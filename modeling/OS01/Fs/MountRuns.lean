import Mathlib.Data.List.Nodup
import OS01.Fs.Mount

/-!
# The mount tree over whole runs

Once the root is mounted every other mount is bound, if no more than `PENDING_MAX` mounts were waiting
for it: the array that collects them has no more slots, and the mounts that did not fit stay unbound.
A call that fails leaves everything as it was.
-/

namespace OS01.Fs

open Nat Function List Lib Option MountTree

/-- A mount without its binding. -/
def MountRec.loose (m : MountRec) : MountRec :=
  { m with mountpoint := none, parent := none, parentIno := 0 }

namespace MountTree

/-! ## The invariant -/

/-- A mount and its mount point refer to each other. -/
def Bound (s : MountTree) (id : Nat) : Prop :=
  ∃ p n, (s.mount id).parent = some p ∧ (s.mount id).mountpoint = some n ∧ n < s.nodes ∧
    s.node n = { mount := p, parentIno := (s.mount id).parentIno, name := (s.mount id).name,
                 mountedHere := some id }

/-- A mount that is not bound; only the root has no name. -/
structure Free (s : MountTree) (id : Nat) : Prop where
  parent : (s.mount id).parent = none
  parentIno : (s.mount id).parentIno = 0
  mountpoint : (s.mount id).mountpoint = none
  name : (s.mount id).path ≠ [slash] →
    ∃ dir, vfsSplitParent (s.mount id).path [slash] = some (dir, (s.mount id).name)

/-- What holds in all states. -/
structure TreeOk (s : MountTree) : Prop where
  nodup : s.list.Nodup
  known : ∀ id ∈ s.list, id < s.mounts
  paths : ∀ a ∈ s.list, ∀ b ∈ s.list, (s.mount a).path = (s.mount b).path → a = b
  root : ∀ r, s.root = some r → r ∈ s.list ∧ (s.mount r).path = [slash] ∧ s.Free r
  only : ∀ id ∈ s.list, (s.mount id).path = [slash] → s.root = some id
  binding : ∀ id ∈ s.list, s.Bound id ∨ s.Free id
  triples : ∀ a ∈ s.list, ∀ b ∈ s.list, (s.mount a).parent ≠ none →
    (s.mount a).parent = (s.mount b).parent → (s.mount a).parentIno = (s.mount b).parentIno →
    (s.mount a).name = (s.mount b).name → a = b

/-- All mounts are bound once there is a root, and none before. -/
structure Complete (s : MountTree) : Prop where
  bound : ∀ r, s.root = some r → ∀ id ∈ s.list, id ≠ r → s.Bound id
  early : s.root = none → ∀ id ∈ s.list, s.Free id

variable {s s' : MountTree} {id x : Nat} {p : Path}

/-! ## Binding -/

/-- A mount is given its name. -/
abbrev withName (s : MountTree) (id : Nat) (base : Path) : MountTree := s.setMount id { s.mount id with name := base }

/-- The outcomes of `vfs_bind_submount_locked`. -/
lemma bind_cases (s : MountTree) (id : Nat) (env : BindEnv) : (∃ r < 0, s.vfsBindSubmount id env = (s, r)) ∨
      ∃ d base, vfsSplitParent (s.mount id).path [slash] = some (d, base) ∧
        (s.mount id).path ≠ [slash] ∧ base ≠ [] ∧
        ((∃ r < 0, s.vfsBindSubmount id env = (s.withName id base, r)) ∨
          ∃ dir, (s.withName id base).vfsFindSubmount dir base = none ∧
            s.vfsBindSubmount id env = ((s.withName id base).attach id dir, 0)) := by
  generalize hr : s.vfsBindSubmount id env = r
  unfold vfsBindSubmount at hr
  dsimp only at hr
  split at hr
  · exact .inl ⟨_, by decide, hr.symm⟩
  next hrt =>
    split at hr
    · exact .inl ⟨_, by decide, hr.symm⟩
    split at hr
    · exact .inl ⟨_, by decide, hr.symm⟩
    next d base hspl =>
      split at hr
      · exact .inl ⟨_, by decide, hr.symm⟩
      next hb =>
        split at hr
        · exact .inl ⟨_, by decide, hr.symm⟩
        refine .inr ⟨d, base, hspl, hrt, hb, ?_⟩
        split at hr
        · exact .inl ⟨_, by decide, hr.symm⟩
        next dir hdir =>
          split at hr
          · exact .inl ⟨_, by decide, hr.symm⟩
          split at hr
          · exact .inl ⟨_, by decide, hr.symm⟩
          next hf =>
            have hn := not_isSome_iff_eq_none.1 hf
            split at hr
            · split at hr
              · exact .inl ⟨_, by decide, hr.symm⟩
              · exact .inr ⟨dir, hn, hr.symm⟩
            · split at hr
              · exact .inl ⟨_, by decide, hr.symm⟩
              · exact .inr ⟨dir, hn, hr.symm⟩
            · next errno _ => exact .inl ⟨-(errno + 1), by omega, hr.symm⟩

variable {base : Path} {dir : ParentDir} {cond : Prop} {r : Int}

/-- For a mount that is listed the name is already set. -/
lemma Free.setMount_name (h : s.Free id) {d : Path} (hp : (s.mount id).path ≠ [slash])
    (hspl : vfsSplitParent (s.mount id).path [slash] = some (d, base)) :
    (s.mount id).name = base ∧ s.withName id base = s := by
  obtain ⟨dir, hn⟩ := h.name hp
  rw [hspl] at hn
  have hb : base = (s.mount id).name := congrArg Prod.snd (some.inj hn)
  refine ⟨hb.symm, ?_⟩
  rw [hb]
  exact congrArg (fun f => { s with mount := f }) (update_eq_self id s.mount)

/-- Only the mount itself matters. -/
lemma Free.congr (h : s.Free x) (hm : s'.mount x = s.mount x) : s'.Free x :=
  ⟨hm ▸ h.parent, hm ▸ h.parentIno, hm ▸ h.mountpoint, hm ▸ h.name⟩

lemma attach_mount_of_ne (s : MountTree) (dir : ParentDir) (hx : x ≠ id) :
    (s.attach id dir).mount x = s.mount x := update_of_ne hx ..

lemma attach_mount (s : MountTree) (id : Nat) (dir : ParentDir) : (s.attach id dir).mount id = { s.mount id with
      parent := some dir.mount, parentIno := dir.ino, mountpoint := some s.nodes } :=
  update_self ..

lemma attach_bound (s : MountTree) (id : Nat) (dir : ParentDir) : (s.attach id dir).Bound id := by
  refine ⟨dir.mount, s.nodes, ?_, ?_, lt_succ_self _, ?_⟩
  · rw [attach_mount]
  · rw [attach_mount]
  · rw [attach_mount]
    exact update_self ..

/-- What is attached later does not touch a bound mount. -/
lemma Bound.attach (h : s.Bound x) (hx : x ≠ id) (dir : ParentDir) : (s.attach id dir).Bound x := by
  obtain ⟨p, n, hp, hn, hlt, hnd⟩ := h
  have hmnt := attach_mount_of_ne s dir hx
  refine ⟨p, n, by rw [hmnt, hp], by rw [hmnt, hn], lt_succ_of_lt hlt, ?_⟩
  rw [hmnt, ← hnd]
  exact update_of_ne (Nat.ne_of_lt hlt) ..

lemma Free.attach (h : s.Free x) (hx : x ≠ id) (dir : ParentDir) : (s.attach id dir).Free x :=
  h.congr (attach_mount_of_ne s dir hx)

/-- Where `vfs_find_submount` finds nothing the triple is new. -/
lemma find_none (h : s.vfsFindSubmount dir base = none)
    (hb : base ≠ []) (hx : x ∈ s.list) (hp : (s.mount x).parent = some dir.mount)
    (hi : (s.mount x).parentIno = dir.ino) : (s.mount x).name ≠ base := by
  intro hn
  unfold vfsFindSubmount at h
  rw [if_neg hb] at h
  have hno := find?_eq_none.1 h x hx
  simp [hp, hi, hn, vfsMountNameEq, vfsNameCmp] at hno

/-- **Binding a listed mount.** -/
lemma TreeOk.attach (h : TreeOk s) (hid : id ∈ s.list) (hfr : s.Free id)
    (hpt : (s.mount id).path ≠ [slash]) (hnm : (s.mount id).name ≠ [])
    (hfn : s.vfsFindSubmount dir (s.mount id).name = none) : TreeOk (s.attach id dir) := by
  have hoth {x : Nat} (hx : x ≠ id) := attach_mount_of_ne s dir hx
  have hs := attach_mount s id dir
  have hpaths (x : Nat) : ((s.attach id dir).mount x).path = (s.mount x).path := by
    by_cases hx : x = id
    · rw [hx, hs]
    · rw [hoth hx]
  refine ⟨h.nodup, h.known, fun a ha b hb heq => ?_, fun r hr => ?_, fun x hx hp => ?_,
    fun x hx => ?_, fun a ha b hb hne hp hi hn => ?_⟩
  · rw [hpaths, hpaths] at heq
    exact h.paths a ha b hb heq
  · obtain ⟨hmem, hsl, hf⟩ := h.root r hr
    refine ⟨hmem, (hpaths r).trans hsl, hf.attach ?_ dir⟩
    rintro rfl
    exact hpt hsl
  · exact h.only x hx ((hpaths x).symm.trans hp)
  · by_cases hxi : x = id
    · exact .inl (hxi ▸ attach_bound s id dir)
    · obtain hb | hf := h.binding x hx
      · exact .inl (hb.attach hxi dir)
      · exact .inr (hf.attach hxi dir)
  · by_cases hai : a = id
    · by_cases hbi : b = id
      · rw [hai, hbi]
      · subst hai
        rw [hs, hoth hbi] at hp hi hn
        exact absurd hn.symm (find_none hfn hnm hb hp.symm hi.symm)
    by_cases hbi : b = id
    · subst hbi
      rw [hs, hoth hai] at hp hi hn
      exact absurd hn (find_none hfn hnm ha hp hi)
    · rw [hoth hai, hoth hbi] at hp hi hn
      rw [hoth hai] at hne
      exact h.triples a ha b hb hne hp hi hn

/-! ## Binding the pending mounts -/

lemma Free.loose (h : s.Free id) : (s.mount id).loose = s.mount id := by
  obtain ⟨hp, hi, hm, -⟩ := h
  unfold MountRec.loose
  rw [← hp, ← hi]
  congr 1
  rw [hm, hp]

/-- What binding some of the listed mounts leaves alone; `fresh` are the mounts bound. -/
structure Binds (s s' : MountTree) (fresh : List Nat) : Prop where
  ok : TreeOk s'
  list : s'.list = s.list
  root : s'.root = s.root
  mounts : s'.mounts = s.mounts
  nodes : s.nodes ≤ s'.nodes
  bound : ∀ x, s.Bound x → s'.Bound x
  new : ∀ x ∈ fresh, s'.Bound x
  loose : ∀ x, (s'.mount x).loose = (s.mount x).loose
  rest : ∀ x, x ∉ fresh → s'.mount x = s.mount x

/-- One pending mount. -/
lemma TreeOk.bindOne (h : TreeOk s) (hid : id ∈ s.list) (hf : s.Free id)
    (hp : (s.mount id).path ≠ [slash]) (env : BindEnv) : (∃ r < 0, s.vfsBindSubmount id env = (s, r)) ∨
      ∃ s', s.vfsBindSubmount id env = (s', 0) ∧ Binds s s' [id] := by
  obtain hr | ⟨d, base, hspl, -, hb, hrs⟩ := bind_cases s id env
  · exact .inl hr
  obtain ⟨hn, hs⟩ := hf.setMount_name hp hspl
  rw [hs] at hrs
  obtain ⟨r, hr, he⟩ | ⟨dir, hfn, he⟩ := hrs
  · exact .inl ⟨r, hr, he⟩
  have hbd := attach_bound s id dir
  refine .inr ⟨_, he, h.attach hid hf hp (hn ▸ hb) (hn ▸ hfn), rfl, rfl, rfl,
    le_succ _, fun x hx => ?_, fun x hx => ?_, fun x => ?_, fun x hx => ?_⟩
  · by_cases hxi : x = id
    · exact hxi ▸ hbd
    · exact hx.attach hxi dir
  · rw [mem_singleton.1 hx]
    exact hbd
  · by_cases hxi : x = id
    · rw [hxi, attach_mount]
      rfl
    · rw [attach_mount_of_ne s dir hxi]
  · exact attach_mount_of_ne s dir fun hxi => hx (mem_singleton.2 hxi)

/-- **The loop over the pending mounts**: all are bound, or the ones bound so far are known. -/
lemma TreeOk.bindAll (h : TreeOk s) (env : Nat → BindEnv) (done : List Nat) {ids : List Nat}
    (hnodup : ids.Nodup) (hids : ∀ x ∈ ids, x ∈ s.list ∧ s.Free x ∧ (s.mount x).path ≠ [slash]) :
    ∃ s' r new, bindAll env s done ids = (s', r, new ++ done) ∧ Binds s s' new ∧
      (∀ x ∈ new, x ∈ ids) ∧ (r < 0 ∨ r = 0 ∧ ∀ x ∈ ids, x ∈ new) := by
  induction ids generalizing s done with
  | nil =>
    exact ⟨s, 0, [], rfl, ⟨h, rfl, rfl, rfl, Nat.le_refl _, fun _ hb => hb, by simp,
      fun _ => rfl, fun _ _ => rfl⟩, by simp, .inr ⟨rfl, by simp⟩⟩
  | cons i ids ih =>
    obtain ⟨hmem, hfr, hpt⟩ := hids i (mem_cons_self ..)
    obtain ⟨hnot, hnd⟩ := nodup_cons.1 hnodup
    obtain ⟨r, hr, he⟩ | ⟨s1, he, hb⟩ := h.bindOne hmem hfr hpt (env i)
    · refine ⟨s, r, [], ?_, ⟨h, rfl, rfl, rfl, Nat.le_refl _, fun _ hb => hb, by simp,
        fun _ => rfl, fun _ _ => rfl⟩, by simp, .inl hr⟩
      simp only [bindAll, he, if_pos hr, nil_append]
    have hids1 : ∀ x ∈ ids, x ∈ s1.list ∧ s1.Free x ∧ (s1.mount x).path ≠ [slash] := by
      intro x hx
      obtain ⟨hm, hf, hp⟩ := hids x (mem_cons_of_mem _ hx)
      have hs := hb.rest x fun heq => hnot (mem_singleton.1 heq ▸ hx)
      rw [hb.list, hs]
      exact ⟨hm, hf.congr hs, hp⟩
    obtain ⟨s', r, new, he', hb', hsub, hres⟩ := ih hb.ok (i :: done) hnd hids1
    refine ⟨s', r, new ++ [i], ?_, ⟨hb'.ok, hb'.list.trans hb.list, hb'.root.trans hb.root,
      hb'.mounts.trans hb.mounts, Nat.le_trans hb.nodes hb'.nodes,
      fun x hx => hb'.bound x (hb.bound x hx), fun x hx => ?_,
      fun x => (hb'.loose x).trans (hb.loose x), fun x hx => ?_⟩, fun x hx => ?_, ?_⟩
    · simp [bindAll, he, he', append_assoc]
    · obtain hx | hx := mem_append.1 hx
      · exact hb'.new x hx
      · exact hb'.bound x (hb.new x hx)
    · rw [mem_append, not_or] at hx
      rw [hb'.rest x hx.1, hb.rest x hx.2]
    · obtain hx | hx := mem_append.1 hx
      · exact mem_cons_of_mem _ (hsub x hx)
      · exact mem_singleton.1 hx ▸ mem_cons_self ..
    · obtain hr | ⟨hr, hall⟩ := hres
      · exact .inl hr
      · refine .inr ⟨hr, fun x hx => ?_⟩
        obtain rfl | hx := mem_cons.1 hx
        · simp
        · exact mem_append_left _ (hall x hx)

/-- Undoing bindings. -/
lemma unbindAll (l : List Nat) (s : MountTree) :
    (l.foldl vfsUnbindSubmount s).list = s.list ∧ (l.foldl vfsUnbindSubmount s).mounts = s.mounts ∧
      (l.foldl vfsUnbindSubmount s).nodes = s.nodes ∧
      ∀ x, (l.foldl vfsUnbindSubmount s).mount x = if x ∈ l then (s.mount x).loose else s.mount x := by
  induction l generalizing s with
  | nil => simp
  | cons i l ih =>
    obtain ⟨h1, h2, h3, h4⟩ := ih (s.vfsUnbindSubmount i)
    refine ⟨h1, h2, h3, fun x => ?_⟩
    rw [foldl_cons, h4]
    by_cases hx : x = i
    · subst hx
      rw [show (s.vfsUnbindSubmount x).mount x = (s.mount x).loose from update_self ..]
      simp [MountRec.loose]
    · rw [show (s.vfsUnbindSubmount i).mount x = s.mount x from update_of_ne hx ..]
      simp [hx]

/-! ## The sort keeps the mounts -/

lemma shallowest_perm (depth : Nat → Nat) (x : Nat) (l : List Nat) :
    ((shallowest depth x l).1 :: (shallowest depth x l).2).Perm (x :: l) := by
  induction l generalizing x with
  | nil => exact .refl _
  | cons y ys ih =>
    unfold shallowest
    split
    · exact (List.Perm.swap ..).trans ((ih y).cons x)
    · exact ((List.Perm.swap ..).trans ((ih x).cons y)).trans (List.Perm.swap ..)

lemma sortDepth_perm (depth : Nat → Nat) (n : Nat) (l : List Nat) : (sortDepth depth n l).Perm l := by
  induction n generalizing l with
  | zero =>
    exact .refl _
  | succ n ih =>
    cases l with
    | nil => exact .refl _
    | cons x xs => exact ((ih _).cons _).trans (shallowest_perm depth x xs)

lemma pending_perm (s : MountTree) (id : Nat) : (s.pending id).Perm
      ((s.list.filter fun x => decide (x ≠ id) && (s.mount x).parent.isNone).take PENDING_MAX) :=
  sortDepth_perm ..

/-! ## Calls -/

/-- The mount list, the root and all bindings are as before. -/
structure Unchanged (s s' : MountTree) : Prop where
  list : s'.list = s.list
  root : s'.root = s.root
  mount : ∀ x ∈ s.list, s'.mount x = s.mount x
  node : ∀ x ∈ s.list, ∀ n, (s.mount x).mountpoint = some n → s'.node n = s.node n

/-- Names that were used stay used. -/
structure Grows (s s' : MountTree) : Prop where
  mounts : s.mounts ≤ s'.mounts
  nodes : s.nodes ≤ s'.nodes

lemma Unchanged.bound (h : Unchanged s s') (hg : Grows s s') (hx : x ∈ s.list) (hb : s.Bound x) :
    s'.Bound x := by
  obtain ⟨p, n, hp, hn, hlt, hnd⟩ := hb
  have hm := h.mount x hx
  refine ⟨p, n, hm ▸ hp, hm ▸ hn, Nat.lt_of_lt_of_le hlt hg.nodes, ?_⟩
  rw [h.node x hx n hn, hm, hnd]

lemma Unchanged.free (h : Unchanged s s') (hx : x ∈ s.list) (hf : s.Free x) : s'.Free x :=
  hf.congr (h.mount x hx)

/-- The invariants see listed mounts only. -/
lemma TreeOk.unchanged (h : TreeOk s) (hu : Unchanged s s') (hg : Grows s s') : TreeOk s' := by
  have hl := hu.list
  have hrt := hu.root
  have hmnt := hu.mount
  refine ⟨hl ▸ h.nodup, fun x hx => ?_, fun a ha b hb heq => ?_, fun r hr => ?_, fun x hx hp => ?_,
    fun x hx => ?_, fun a ha b hb hne hp hi hn => ?_⟩
  · exact Nat.lt_of_lt_of_le (h.known x (hl ▸ hx)) hg.mounts
  · rw [hl] at ha hb
    rw [hmnt a ha, hmnt b hb] at heq
    exact h.paths a ha b hb heq
  · obtain ⟨hmem, hsl, hf⟩ := h.root r (hrt ▸ hr)
    exact ⟨hl ▸ hmem, hmnt r hmem ▸ hsl, hu.free hmem hf⟩
  · rw [hl] at hx
    rw [hrt]
    exact h.only x hx (hmnt x hx ▸ hp)
  · rw [hl] at hx
    obtain hb | hf := h.binding x hx
    · exact .inl (hu.bound hg hx hb)
    · exact .inr (hu.free hx hf)
  · rw [hl] at ha hb
    rw [hmnt a ha, hmnt b hb] at hp hi hn
    rw [hmnt a ha] at hne
    exact h.triples a ha b hb hne hp hi hn

lemma Complete.unchanged (h : Complete s) (hu : Unchanged s s') (hg : Grows s s') : Complete s' := by
  refine ⟨fun r hr x hx hne => ?_, fun hr x hx => ?_⟩
  · rw [hu.list] at hx
    exact hu.bound hg hx (h.bound r (hu.root ▸ hr) x hx hne)
  · rw [hu.list] at hx
    exact hu.free hx (h.early (hu.root ▸ hr) x hx)

/-- A mount that is not bound is listed; it is the root if its path says so. -/
def enlist (s : MountTree) (id : Nat) : MountTree :=
  { s with
    list := id :: s.list
    root := if (s.mount id).path = [slash] then some id else s.root }

lemma TreeOk.enlist (h : TreeOk s) (hid : id ∉ s.list) (hlt : id < s.mounts) (hfr : s.Free id)
    (hnew : ∀ x ∈ s.list, (s.mount x).path ≠ (s.mount id).path)
    (hrt : (s.mount id).path = [slash] → s.root = none) : TreeOk (s.enlist id) where
  nodup := nodup_cons.2 ⟨hid, h.nodup⟩
  known := by
    intro x hx
    obtain rfl | hx := mem_cons.1 hx
    · exact hlt
    · exact h.known x hx
  paths := by
    intro a ha b hb heq
    obtain hai | ha' := mem_cons.1 ha
    · obtain hbi | hb' := mem_cons.1 hb
      · rw [hai, hbi]
      · rw [hai] at heq
        exact absurd heq.symm (hnew b hb')
    · obtain hbi | hb' := mem_cons.1 hb
      · rw [hbi] at heq
        exact absurd heq (hnew a ha')
      · exact h.paths a ha' b hb' heq
  root := by
    intro r hr
    unfold MountTree.enlist at hr
    split at hr
    · next hsl =>
        cases hr
        exact ⟨mem_cons_self .., hsl, hfr.congr rfl⟩
    · obtain ⟨hmem, hsl, hf⟩ := h.root r hr
      exact ⟨mem_cons_of_mem _ hmem, hsl, hf.congr rfl⟩
  only := by
    intro x hx hp
    obtain rfl | hx := mem_cons.1 hx
    · exact if_pos hp
    · have hr := h.only x hx hp
      refine (if_neg fun hsl => ?_).trans hr
      rw [hrt hsl] at hr
      cases hr
  binding := by
    intro x hx
    obtain rfl | hx := mem_cons.1 hx
    · exact .inr (hfr.congr rfl)
    · exact (h.binding x hx).imp_right fun hf => hf.congr rfl
  triples := by
    intro a ha b hb hne hp hi hn
    have hnn : (s.mount id).parent = none := hfr.parent
    obtain rfl | ha := mem_cons.1 ha
    · exact absurd hnn hne
    · obtain rfl | hb := mem_cons.1 hb
      · rw [show ((s.enlist b).mount b).parent = none from hnn] at hp
        exact absurd hp hne
      · exact h.triples a ha b hb hne hp hi hn

/-- What a call gives: an error and nothing changed, or success, and under a condition a tree that is
complete. -/
def Outcome (s : MountTree) (cond : Prop) (res : MountTree × Int) : Prop :=
  (res.2 < 0 ∧ Unchanged s res.1 ∧ Grows s res.1) ∨
    (res.2 = 0 ∧ TreeOk res.1 ∧ (cond → Complete res.1))

lemma Outcome.refuse (s : MountTree) (hr : r < 0) : Outcome s cond (s, r) :=
  .inl ⟨hr, ⟨rfl, rfl, fun _ _ => rfl, fun _ _ _ _ => rfl⟩, ⟨Nat.le_refl _, Nat.le_refl _⟩⟩

/-- The state with a new mount that is not listed yet. -/
structure Fresh (s s₀ : MountTree) (id : Nat) (path : Path) : Prop where
  unchanged : Unchanged s s₀
  grows : Grows s s₀
  notMem : id ∉ s.list
  known : id < s₀.mounts
  path : (s₀.mount id).path = path
  parent : (s₀.mount id).parent = none
  parentIno : (s₀.mount id).parentIno = 0
  mountpoint : (s₀.mount id).mountpoint = none

section

variable (h : Fresh s s' id p)
include h

/-- The name of a mount that is not listed is of no concern. -/
lemma Fresh.setName (base : Path) : Fresh s (s'.withName id base) id p := by
  have hs : (s'.withName id base).mount id = { s'.mount id with name := base } := update_self ..
  refine ⟨⟨h.unchanged.list, h.unchanged.root, fun x hx => ?_, h.unchanged.node⟩,
    ⟨h.grows.mounts, h.grows.nodes⟩, h.notMem, h.known, ?_, ?_, ?_, ?_⟩
  · refine (update_of_ne ?_ ..).trans (h.unchanged.mount x hx)
    rintro rfl
    exact h.notMem hx
  · rw [hs]
    exact h.path
  · rw [hs]
    exact h.parent
  · rw [hs]
    exact h.parentIno
  · rw [hs]
    exact h.mountpoint

lemma Fresh.error (hr : r < 0) : Outcome s cond (s', r) := .inl ⟨hr, h.unchanged, h.grows⟩

/-- The new mount is listed. -/
lemma Fresh.enlist (hok : TreeOk s) (hnew : ∀ x ∈ s.list, (s.mount x).path ≠ p)
    (hr : p = [slash] → s.root = none)
    (hn : p ≠ [slash] → ∃ dir, vfsSplitParent p [slash] = some (dir, (s'.mount id).name)) :
    TreeOk (s'.enlist id) ∧ s'.Free id := by
  have hf : s'.Free id := ⟨h.parent, h.parentIno, h.mountpoint, h.path ▸ hn⟩
  refine ⟨(hok.unchanged h.unchanged h.grows).enlist ?_ h.known hf (fun x hx => ?_) ?_, hf⟩
  · rw [h.unchanged.list]
    exact h.notMem
  · rw [h.unchanged.list] at hx
    rw [h.unchanged.mount x hx, h.path]
    exact hnew x hx
  · rw [h.path, h.unchanged.root]
    exact hr

/-- **A mount before the root.** -/
lemma Fresh.publishPending (hok : TreeOk s) (hcpl : Complete s)
    (hnew : ∀ x ∈ s.list, (s.mount x).path ≠ p) (hsl : p ≠ [slash]) (hrt : s.root = none)
    (cond : Prop) (mem : Bool) : Outcome s cond (s'.publishPending id mem) := by
  unfold MountTree.publishPending
  split
  · exact h.error (by decide)
  split
  · exact h.error (by decide)
  next d base hspl =>
    split
    · exact h.error (by decide)
    have hset := h.setName base
    have hrec : { s'.mount id with name := base, parent := none, parentIno := 0,
                                   mountpoint := none } = { s'.mount id with name := base } := by
      rw [MountRec.mk.injEq]
      exact ⟨rfl, rfl, rfl, h.parent.symm, h.parentIno.symm, h.mountpoint.symm⟩
    have hs : (s'.withName id base).mount id = { s'.mount id with name := base } := update_self ..
    obtain ⟨hlst, hf⟩ := hset.enlist hok hnew (fun hp => absurd hp hsl) fun _ =>
      ⟨d, by rw [hs, ← hspl, h.path]⟩
    have he : (s'.withName id base).enlist id = { s'.withName id base with list := id :: s'.list } := by
      unfold MountTree.enlist
      rw [hset.path, if_neg hsl]
      rfl
    dsimp only
    rw [hrec]
    refine .inr ⟨rfl, he ▸ hlst, fun _ => ⟨fun r hr => ?_, fun _ x hx => ?_⟩⟩
    · change s'.root = some r at hr
      rw [h.unchanged.root, hrt] at hr
      cases hr
    · obtain rfl | hx := mem_cons.1 hx
      · exact hf.congr rfl
      · change x ∈ s'.list at hx
        rw [h.unchanged.list] at hx
        exact (hset.unchanged.free hx (hcpl.early hrt x hx)).congr rfl

/-- **A mount after the root.** -/
lemma Fresh.publishBound (hok : TreeOk s) (hcpl : Complete s)
    (hnew : ∀ x ∈ s.list, (s.mount x).path ≠ p) (hsl : p ≠ [slash]) (hrt : s.root ≠ none)
    (cond : Prop) (env : BindEnv) : Outcome s cond (s'.publishBound id env) := by
  unfold MountTree.publishBound
  obtain ⟨r, hr, he⟩ | ⟨d, base, hspl, -, hbs, hrs⟩ := bind_cases s' id env
  · simp only [he, if_pos hr]
    exact h.error hr
  have hset := h.setName base
  have hs : (s'.withName id base).mount id = { s'.mount id with name := base } := update_self ..
  have hn : ((s'.withName id base).mount id).name = base := by
    rw [hs]
  obtain ⟨hlst, hfr⟩ := hset.enlist hok hnew (fun hp => absurd hp hsl) fun _ =>
    ⟨d, by rw [hn, ← hspl, h.path]⟩
  generalize s'.withName id base = s1 at hset hn hlst hfr hrs
  obtain ⟨r, hr, he⟩ | ⟨dir, hf, he⟩ := hrs
  · simp only [he, if_pos hr]
    exact hset.error hr
  have henl : (s1.enlist id).attach id dir = { s1.attach id dir with list := id :: s1.list } := by
    unfold MountTree.enlist
    rw [hset.path, if_neg hsl]
    rfl
  have hf' : (s1.enlist id).vfsFindSubmount dir base = none := by
    unfold vfsFindSubmount at hf ⊢
    rw [if_neg hbs] at hf ⊢
    refine (find?_cons_of_neg ?_).trans hf
    rw [show ((s1.enlist id).mount id).parent = none from hfr.parent]
    simp
  have hattach := hlst.attach (mem_cons_self ..) (hfr.congr rfl)
    (show (s1.mount id).path ≠ [slash] from hset.path ▸ hsl)
    (show (s1.mount id).name ≠ [] from hn ▸ hbs) (hn.symm ▸ hf')
  rw [henl] at hattach
  simp only [he]
  refine .inr ⟨rfl, hattach, fun _ => ⟨fun r hr x hx hne => ?_, fun hr => ?_⟩⟩
  · obtain rfl | hx := mem_cons.1 hx
    · exact attach_bound s1 x dir
    · change x ∈ s1.list at hx
      rw [hset.unchanged.list] at hx
      have hxi : x ≠ id := fun heq => hset.notMem (heq ▸ hx)
      have hb := hcpl.bound r (hset.unchanged.root ▸ hr) x hx hne
      exact (hset.unchanged.bound hset.grows hx hb).attach hxi dir
  · exact absurd (hset.unchanged.root.symm.trans hr) hrt

end

/-- The mounts that wait for the root. -/
lemma Fresh.pending (h : Fresh s s' id [slash]) (hok : TreeOk s) (hcpl : Complete s) (hr : s.root = none) :
    ((s'.enlist id).pending id).Nodup ∧ (∀ x ∈ (s'.enlist id).pending id, x ∈ s.list) ∧
      (s.list.length ≤ PENDING_MAX → ∀ x ∈ s.list, x ∈ (s'.enlist id).pending id) := by
  have hp := pending_perm (s'.enlist id) id
  -- every listed mount is waiting
  have hfilter : ((s'.enlist id).list.filter fun x =>
      decide (x ≠ id) && ((s'.enlist id).mount x).parent.isNone) = s.list := by
    change (id :: s'.list).filter _ = s.list
    rw [filter_cons_of_neg (by simp), h.unchanged.list]
    refine filter_eq_self.2 fun x hx => ?_
    have hne : x ≠ id := fun heq => h.notMem (heq ▸ hx)
    have hf := h.unchanged.free hx (hcpl.early hr x hx)
    rw [show ((s'.enlist id).mount x).parent = none from hf.parent]
    simp [hne]
  rw [hfilter] at hp
  refine ⟨hp.nodup_iff.2 (hok.nodup.sublist (take_sublist ..)), fun x hx => ?_, fun hlen x hx => ?_⟩
  · exact mem_of_mem_take (hp.mem_iff.1 hx)
  · rw [take_of_length_le hlen] at hp
    exact hp.mem_iff.2 hx

/-- **The root.** -/
lemma Fresh.publishRoot (h : Fresh s s' id [slash]) (hok : TreeOk s) (hcpl : Complete s)
    (hnew : ∀ x ∈ s.list, (s.mount x).path ≠ [slash]) (hrt : s.root = none)
    (env : Nat → BindEnv) : Outcome s (s.list.length ≤ PENDING_MAX) (s'.publishRoot id env) := by
  obtain ⟨hlst, -⟩ := h.enlist hok hnew (fun _ => hrt) fun hp => absurd rfl hp
  obtain ⟨hnd, hsub, hall⟩ := h.pending hok hcpl hrt
  have hf (x : Nat) (hx : x ∈ s.list) : s'.Free x := h.unchanged.free hx (hcpl.early hrt x hx)
  have hids : ∀ x ∈ (s'.enlist id).pending id, x ∈ (s'.enlist id).list ∧
      (s'.enlist id).Free x ∧ ((s'.enlist id).mount x).path ≠ [slash] := by
    intro x hx
    have hmem := hsub x hx
    refine ⟨mem_cons_of_mem _ (h.unchanged.list ▸ hmem), (hf x hmem).congr rfl, ?_⟩
    change (s'.mount x).path ≠ [slash]
    rw [h.unchanged.mount x hmem]
    exact hnew x hmem
  obtain ⟨s1, r, new, he, hb, hnewsub, hres⟩ := hlst.bindAll env [] hnd hids
  have henl : { s' with root := some id, list := id :: s'.list } = s'.enlist id := by
    unfold MountTree.enlist
    rw [h.path, if_pos rfl]
  have hls : s1.list = id :: s.list := by
    rw [hb.list, ← h.unchanged.list]
    rfl
  rw [append_nil] at he
  unfold MountTree.publishRoot
  simp only [henl, he]
  obtain hr | ⟨hr, hbd⟩ := hres
  · -- a failure undoes everything
    obtain ⟨hl, hm, hn, hmnt⟩ := unbindAll new s1
    rw [if_pos hr]
    refine .inl ⟨hr, ⟨?_, hrt.symm, fun x hx => ?_, fun x hx n hn => ?_⟩, ?_, ?_⟩
    · change (foldl _ s1 new).list.erase id = s.list
      rw [hl, hls, erase_cons_head]
    · change (foldl _ s1 new).mount x = s.mount x
      have hloose : (s1.mount x).loose = s.mount x := by
        rw [hb.loose x]
        change (s'.mount x).loose = s.mount x
        rw [(hf x hx).loose, h.unchanged.mount x hx]
      rw [hmnt x]
      split
      · exact hloose
      · next hx' =>
          rw [hb.rest x hx']
          exact h.unchanged.mount x hx
    · rw [(hcpl.early hrt x hx).mountpoint] at hn
      cases hn
    · change s.mounts ≤ (foldl _ s1 new).mounts
      rw [hm, hb.mounts]
      exact h.grows.mounts
    · change s.nodes ≤ (foldl _ s1 new).nodes
      rw [hn]
      exact Nat.le_trans h.grows.nodes hb.nodes
  · rw [hr, if_neg (Int.lt_irrefl 0)]
    refine .inr ⟨rfl, hb.ok, fun hlen => ⟨fun r' hr' x hx hne => ?_, fun hr' => ?_⟩⟩
    · have hr'' : s1.root = some id := by
        rw [hb.root, ← henl]
      rw [hr''] at hr'
      cases hr'
      rw [hls] at hx
      obtain rfl | hx := mem_cons.1 hx
      · exact absurd rfl hne
      · exact hb.new x (hbd x (hall hlen x hx))
    · rw [hb.root, ← henl] at hr'
      cases hr'

/-- **A new mount** with a path that no other has. -/
lemma outcome_mountNew (hok : TreeOk s) (hcpl : Complete s) (path : Path)
    (caseInsensitive : Bool) (env : MountEnv) : Outcome s (path = [slash] → s.list.length ≤ PENDING_MAX)
      (s.mountNew path caseInsensitive env) := by
  unfold mountNew
  split
  · exact .refuse s (by decide)
  next hdup =>
    split
    · exact .refuse s (by decide)
    split
    · next errno _ => exact .refuse s (by omega)
    have hs : (s.setMount s.mounts { path, caseInsensitive }).mount s.mounts =
        { path, caseInsensitive } := update_self ..
    have hnotMem : s.mounts ∉ s.list := fun hmem => Nat.lt_irrefl _ (hok.known _ hmem)
    have hfr : Fresh s { s.setMount s.mounts { path, caseInsensitive } with
        mounts := s.mounts + 1 } s.mounts path := by
      refine ⟨⟨rfl, rfl, fun x hx => update_of_ne ?_ .., fun _ _ _ _ => rfl⟩,
        ⟨le_succ _, Nat.le_refl _⟩, hnotMem, lt_succ_self _, ?_, ?_, ?_, ?_⟩
      · rintro rfl
        exact hnotMem hx
      all_goals rw [hs]
    have hnew : ∀ x ∈ s.list, (s.mount x).path ≠ path := by
      intro x hx hp
      refine hdup ?_
      unfold vfsHasDuplicateMountPath
      split
      · rfl
      · exact any_eq_true.2 ⟨x, hx, by simpa using hp⟩
    have hpt := hfr.path
    dsimp only
    unfold vfsPublishMount
    split
    · next hsl =>
        rw [hpt] at hsl
        subst hsl
        split
        · exact hfr.error (by decide)
        · next hrt =>
            refine (hfr.publishRoot hok hcpl hnew (not_isSome_iff_eq_none.1 hrt) env.bind).imp_right ?_
            exact fun ⟨hr, hok, hcpl⟩ => ⟨hr, hok, fun hlen => hcpl (hlen rfl)⟩
    · next hsl =>
        rw [hpt] at hsl
        split
        · next hrt => exact hfr.publishPending hok hcpl hnew hsl hrt _ _
        · next hrt => exact hfr.publishBound hok hcpl hnew hsl hrt _ _

/-- **One call.** -/
lemma outcome_call (hok : TreeOk s) (hcpl : Complete s) (e : MountEvent) :
    Outcome s (normalizeVfsPath (callPath e) = [slash] → s.list.length ≤ PENDING_MAX) (s.call e) := by
  cases e with
  | vfsMount path env =>
    simp only [call, vfsMount]
    split
    · exact .refuse s (by decide)
    · split
      · exact .refuse s (by decide)
      · exact outcome_mountNew hok hcpl _ _ _
  | vfsMountFs typeName path dev env =>
    simp only [call, vfsMountFs]
    split
    · exact .refuse s (by decide)
    split
    · exact .refuse s (by decide)
    · split
      · exact .refuse s (by decide)
      · split
        · exact .refuse s (by decide)
        · exact outcome_mountNew hok hcpl _ _ _

/-! ## Runs -/

/-- The condition under which the tree is complete: the root is mounted with no more than
`PENDING_MAX` mounts waiting for it, and paths fit their buffers. -/
def Safe (s : MountTree) (e : MountEvent) : Prop :=
  (callPath e).length < VFS_NAME_MAX ∧
    (normalizeVfsPath (callPath e) = [slash] → s.list.length ≤ PENDING_MAX)

instance (s : MountTree) (e : MountEvent) : Decidable (s.Safe e) :=
  inferInstanceAs (Decidable (_ ∧ (_ → _)))

/-- The state after a call. -/
def next (s : MountTree) (e : MountEvent) : MountTree := (s.call e).1

/-- What is claimed of the tree: mounts and mount points refer to each other, and no two mounts have
the same place or the same path. -/
structure Sound (s : MountTree) : Prop where
  bound : ∀ r, s.root = some r → ∀ id ∈ s.list, id ≠ r → s.Bound id
  triples : ∀ r, s.root = some r → ∀ a ∈ s.list, ∀ b ∈ s.list, a ≠ r → b ≠ r →
    (s.mount a).parent = (s.mount b).parent → (s.mount a).parentIno = (s.mount b).parentIno →
    (s.mount a).name = (s.mount b).name → a = b
  paths : ∀ a ∈ s.list, ∀ b ∈ s.list, (s.mount a).path = (s.mount b).path → a = b

/-- **The mount tree.** In every run that keeps to the condition the tree is sound once the root is
mounted, and a call that fails changes nothing. -/
theorem mount_tree {types : List FsType} {s : MountTree} {es : List MountEvent}
    (hrun : Run (guarded (ofFun next) Safe) (init types) es s) :
    Sound s ∧ ∀ e, (callPath e).length < VFS_NAME_MAX → (s.call e).2 < 0 → Unchanged s (s.call e).1 := by
  have hinv : TreeOk s ∧ Complete s := by
    refine hrun.invariant (I := fun s => TreeOk s ∧ Complete s) (fun s e s' hs hst => ?_) ⟨?_, ?_⟩
    · obtain ⟨⟨-, hpn⟩, rfl⟩ := hst
      obtain ⟨-, hu, hg⟩ | ⟨-, hok, hcpl⟩ := outcome_call hs.1 hs.2 e
      · exact ⟨hs.1.unchanged hu hg, hs.2.unchanged hu hg⟩
      · exact ⟨hok, hcpl hpn⟩
    · exact ⟨nodup_nil, by simp [init], by simp [init], by simp [init], by simp [init],
        by simp [init], by simp [init]⟩
    · exact ⟨by simp [init], by simp [init]⟩
  obtain ⟨hok, hcpl⟩ := hinv
  refine ⟨⟨hcpl.bound, fun r hr a ha b hb hra hrb hp hi hn => ?_, hok.paths⟩, fun e _ hneg => ?_⟩
  · obtain ⟨p, n, hpar, -⟩ := hcpl.bound r hr a ha hra
    refine hok.triples a ha b hb ?_ hp hi hn
    rw [hpar]
    exact some_ne_none p
  · obtain ⟨-, hu, -⟩ | ⟨hz, -⟩ := outcome_call hok hcpl e
    · exact hu
    · omega

/-! ## Runs -/

/-- Binding succeeds, with a stub in the root directory of a mount. -/
def stubIn (root : Nat) : MountEnv := { bind := fun _ => { parent := some ⟨root, 1, true⟩ } }

/-- A mount before the root, the root, and one after it. -/
def threeMounts : List MountEvent :=
  [.vfsMount [slash, 97] (stubIn 1), .vfsMount [slash] (stubIn 1), .vfsMount [slash, 98] (stubIn 1)]

/-- The theorem for three mounts. -/
theorem mount_tree_threeMounts :
    Run (guarded (ofFun next) Safe) (init []) threeMounts (threeMounts.foldl next (init [])) ∧
      Sound (threeMounts.foldl next (init [])) ∧ (threeMounts.foldl next (init [])).root = some 1 ∧
      (threeMounts.foldl next (init [])).list = [2, 1, 0] := by
  have hrun : Run (guarded (ofFun next) Safe) (init []) threeMounts (threeMounts.foldl next (init [])) :=
    .cons ⟨by decide, rfl⟩ (.cons ⟨by decide, rfl⟩ (.cons ⟨by decide, rfl⟩ (.nil _)))
  exact ⟨hrun, (mount_tree hrun).1, by decide, by decide⟩

/-- Thirty-three mounts before the root. -/
def manyMounts : List MountEvent :=
  ((List.range 33).map fun i => .vfsMount [slash, (97 + i).toUInt8] (stubIn 33)) ++
    [.vfsMount [slash] (stubIn 33)]

/-- The first of them stays unbound under the root. -/
theorem mount_tree_manyMounts : Run (ofFun next) (init []) manyMounts (manyMounts.foldl next (init [])) ∧
      (manyMounts.foldl next (init [])).root = some 33 ∧ 0 ∈ (manyMounts.foldl next (init [])).list ∧
      ((manyMounts.foldl next (init [])).mount 0).mountpoint = none ∧
      ¬Sound (manyMounts.foldl next (init [])) := by
  -- one evaluation of the run gives all three
  obtain ⟨hr, hlst, hloose⟩ : (manyMounts.foldl next (init [])).root = some 33 ∧
      0 ∈ (manyMounts.foldl next (init [])).list ∧
      ((manyMounts.foldl next (init [])).mount 0).mountpoint = none := by decide +kernel
  refine ⟨Run.foldl next _ _, hr, hlst, hloose, fun hsnd => ?_⟩
  obtain ⟨p, n, -, hpoint, -⟩ := hsnd.bound 33 hr 0 hlst (by decide)
  simp [hloose] at hpoint

end MountTree

end OS01.Fs
