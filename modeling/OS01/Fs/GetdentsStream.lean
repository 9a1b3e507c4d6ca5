import OS01.Fs.Getdents

/-!
# A directory read in pieces

Every call of `vfs_getdents` builds the listing again and copies out a piece of it. If the file system gives the same
entries each time, the pieces make up one sorted listing, and it holds everything that is in the directory exactly if
that fits the array (`getdents_lists_all_iff`).
-/

namespace OS01.Fs

open Nat List Lib LinuxDirent64 UInt64

/-! ## What a listing shows -/

/-- A file system that answers index `i` with entry `i` of a list, and behind its end with an empty name. -/
def stableReaddir (es : List Dirent) : Readdir := some fun _ i => some (es[i.toNat]?.getD ⟨[], .unknown, 0⟩)

/-- An entry has a name, and it fits its slot. -/
def Dirent.Named (e : Dirent) : Prop := e.name ≠ [] ∧ e.clip = e

namespace MountTree

variable (s : MountTree) (rootIno : Nat → Option Nat) (dir : ListedDir)

/-- A mount joins a list in which its name is not there. -/
def join (m : Nat) (entries : List Dirent) (id : Nat) : List Dirent :=
  if s.isDirect dir m id && !entries.any fun e => s.vfsMountNameEq m e.name (s.mount id).name then
    entries ++ [s.mountEntry rootIno id entries.length]
  else entries

variable (es : List Dirent)

/-- Everything that is in a directory: its entries, and the mounts that hang in it under names not there yet. -/
def contents : List Dirent :=
  match dir.mount with
  | none => es
  | some m => s.list.foldl (s.join rootIno dir m) es

/-- The array that every call builds. -/
def shown : List Dirent := s.listing rootIno dir (es.take VFS_GETDENTS_SORT_MAX)

/-- A call with a buffer of `call.1` bytes: its result and its records. -/
def Returns (pos : Nat) (call : Nat × Int × List LinuxDirent64) (pos' : Nat) : Prop :=
  ∃ fuel, vfsGetdents s rootIno dir (stableReaddir es) true fuel call.1 pos = some (call.2.1, call.2.2, pos')

/-- The records of some calls. -/
def records (calls : List (Nat × Int × List LinuxDirent64)) : List LinuxDirent64 := calls.flatMap fun call => call.2.2

/-- The calls from position 0 to the first one that returns 0 give every name once and in order. -/
def ListsAll (counts : Nat → Nat) : Prop :=
  ∃ calls pos, Run (s.Returns rootIno dir es) 0 calls pos ∧
    calls.map Prod.fst = (List.range calls.length).map counts ∧ (∀ call ∈ calls, call.2.1 ≠ 0) ∧
    s.Returns rootIno dir es pos (counts calls.length, 0, []) pos ∧
    ((records calls).map dName).Perm ((s.contents rootIno dir es).map Dirent.name) ∧
    ((records calls).map dName).Pairwise fun a b => s.nameKey dir a ≤ s.nameKey dir b

variable {s rootIno dir} {es : List Dirent} {m : Nat}

lemma join_extends (ids : List Nat) (entries : List Dirent) :
    entries <+: ids.foldl (s.join rootIno dir m) entries := by
  induction ids generalizing entries with
  | nil => exact prefix_refl _
  | cons id ids ih =>
    refine List.IsPrefix.trans ?_ (ih _)
    unfold join
    split_ifs
    · exact prefix_append _ _
    · exact prefix_refl _

variable {entries : List Dirent}

/-- The array holds everything if there is room for it. -/
lemma inject_eq (ids : List Nat)
    (h : (ids.foldl (s.join rootIno dir m) entries).length ≤ VFS_GETDENTS_SORT_MAX) :
    s.inject rootIno dir m ids entries = ids.foldl (s.join rootIno dir m) entries := by
  induction ids generalizing entries with
  | nil => rfl
  | cons id ids ih =>
    unfold inject
    by_cases hr : entries.length < VFS_GETDENTS_SORT_MAX
    · rw [foldl_cons, ← ih h, join]
      split_ifs <;> rfl
    · -- a full array is a prefix of what is there, and not shorter
      rw [if_neg hr]
      exact (join_extends (id :: ids) entries).eq_of_length_le (by omega)

lemma length_inject (ids : List Nat) (h : entries.length ≤ VFS_GETDENTS_SORT_MAX) :
    (s.inject rootIno dir m ids entries).length ≤ VFS_GETDENTS_SORT_MAX := by
  induction ids generalizing entries with
  | nil => exact h
  | cons id ids ih =>
    unfold inject
    split_ifs with hr
    · exact ih (by rw [length_append]; exact hr)
    · exact ih h
    · exact h

lemma after_iff (a b : Dirent) : s.after dir a b = true ↔ s.nameKey dir b.name < s.nameKey dir a.name := by
  exact decide_eq_true_iff

lemma length_shown (es : List Dirent) : (s.shown rootIno dir es).length ≤ VFS_GETDENTS_SORT_MAX := by
  unfold shown listing
  rw [(bubbleSort_spec after_iff _).1.length_eq]
  cases dir.mount with
  | none => exact length_take_le _ _
  | some m => exact length_inject _ (length_take_le _ _)

/-- Everything is listed if there is room for it. -/
lemma shown_perm (h : (s.contents rootIno dir es).length ≤ VFS_GETDENTS_SORT_MAX) :
    (s.shown rootIno dir es).Perm (s.contents rootIno dir es) := by
  unfold shown listing contents at *
  refine (bubbleSort_spec after_iff _).1.trans ?_
  cases hm : dir.mount with
  | none =>
    rw [hm] at h
    rw [take_of_length_le h]
  | some m =>
    rw [hm] at h
    have hes := (@join_extends s rootIno dir m s.list es).length_le
    rw [take_of_length_le (hes.trans h)]
    exact .of_eq (inject_eq s.list h)

end MountTree

/-! ## The calls -/

variable {es : List Dirent} {fuel k : Nat} {out : List LinuxDirent64}

/-- The loop collects the entries in turn. -/
lemma collect_stable (hes : ∀ e ∈ es, e.Named) {r : List Dirent} (hk : k ≤ es.length) (hmax : k ≤ VFS_GETDENTS_SORT_MAX)
    (h : collect (stableReaddir es) fuel k (es.take k) = some r) : r = es.take VFS_GETDENTS_SORT_MAX := by
  induction fuel generalizing k with
  | zero => cases h
  | succ fuel ih =>
    have hmod : (ofNat k).toNat = k := toNat_ofNat_of_lt' (lt_of_le_of_lt hmax (by decide))
    rw [collect, vfsReaddir, stableReaddir, length_take, min_eq_left hk] at h
    simp only [Option.bind_some, hmod] at h
    by_cases hr : k < VFS_GETDENTS_SORT_MAX
    · rw [if_pos hr] at h
      by_cases hl : k < es.length
      · obtain ⟨hn, hc⟩ := hes es[k] (getElem_mem hl)
        rw [getElem?_eq_getElem hl, Option.getD_some, if_neg hn, hc, take_concat_get' es k hl] at h
        exact ih hl hr h
      · obtain rfl : k = es.length := by omega
        rw [getElem?_eq_none le_rfl, take_length] at h
        rw [take_of_length_le (le_of_lt hr)]
        exact (Option.some.inj h).symm
    · rw [if_neg hr] at h
      obtain rfl : k = VFS_GETDENTS_SORT_MAX := by omega
      exact (Option.some.inj h).symm

lemma ends_stable (hes : ∀ e ∈ es, e.Named) : Ends (stableReaddir es) := by
  have hmod : ∀ k ≤ VFS_GETDENTS_SORT_MAX, (ofNat k).toNat = k := fun k hk =>
    toNat_ofNat_of_lt' (lt_of_le_of_lt hk (by decide))
  by_cases hlen : es.length ≤ VFS_GETDENTS_SORT_MAX
  · refine ⟨es.length, Or.inl ⟨_, rfl, ?_⟩⟩
    rw [hmod _ hlen, getElem?_eq_none le_rfl]
    rfl
  · refine ⟨VFS_GETDENTS_SORT_MAX, Or.inr (le_of_eq (count_iff_forall.2 fun k hk => ?_).symm)⟩
    have hget : es[k]? = some es[k] := getElem?_eq_getElem (by omega)
    simp [GivesEntry, vfsReaddir, stableReaddir, hmod k (le_of_lt hk), hget, (hes es[k] (getElem_mem _)).1]

/-- The output loop gives the records of the first entries; one at least, if the first fits. -/
lemma emit_spec (count written pos : Nat) (es : List Dirent) {total : Nat}
    (h : emit count written pos es = (out, total)) :
    out.map dName = (es.take out.length).map Dirent.name ∧ out.length ≤ es.length ∧ written ≤ total ∧
      ∀ e ∈ es.head?, written + reclen e ≤ count → written < total ∧ out ≠ [] := by
  induction es generalizing written pos out total with
  | nil =>
    cases h
    simp
  | cons e es ih =>
    unfold emit at h
    split_ifs at h with hf
    · cases h
      simp
      omega
    cases h
    obtain ⟨hnms, hlen, hle, -⟩ := ih (written + reclen e) (pos + 1) rfl
    have hpos : 0 < reclen e := by
      unfold reclen
      omega
    exact ⟨by simp [hnms], by simpa using hlen, by omega, fun _ _ _ => ⟨by omega, by simp⟩⟩

namespace MountTree

variable {s : MountTree} {rootIno : Nat → Option Nat} {dir : ListedDir} {counts : Nat → Nat} {pos pos' : Nat}

section

variable (hdir : dir.isDir = true)
include hdir

variable (hes : ∀ e ∈ es, e.Named)
include hes

/-- What a call does: it copies out a piece of the one listing. -/
lemma returns_iff {count : Nat} {ret : Int} :
    s.Returns rootIno dir es pos (count, ret, out) pos' ↔
      ∃ total : Nat, emit count 0 pos ((s.shown rootIno dir es).drop pos) = (out, total) ∧ total = ret ∧
        pos + out.length = pos' := by
  unfold Returns vfsGetdents
  simp only [hdir, Bool.not_true, Bool.false_eq_true, if_false, Option.map_eq_some_iff, Prod.mk.injEq]
  constructor
  · rintro ⟨fuel, entries, hcol, hret, rfl, rfl⟩
    obtain rfl := collect_stable hes (zero_le _) (zero_le _) hcol
    exact ⟨_, rfl, hret, rfl⟩
  rintro ⟨total, he, hret, rfl⟩
  obtain ⟨n, hen⟩ := ends_stable hes
  obtain ⟨fuel, entries, hcol⟩ := @collect_of_ends (stableReaddir es) 0 n [] rfl (zero_le n) hen
  obtain rfl := collect_stable hes (zero_le _) (zero_le _) hcol
  rw [shown] at he
  exact ⟨fuel, _, hcol, by rw [he]; exact hret, by rw [he], by rw [he]⟩

/-- The pieces never reach beyond the listing. -/
lemma length_pieces {calls : List (Nat × Int × List LinuxDirent64)}
    (h : Run (s.Returns rootIno dir es) pos calls pos') (hpos : pos ≤ (s.shown rootIno dir es).length) :
    pos + (records calls).length ≤ (s.shown rootIno dir es).length := by
  induction h with
  | nil => exact hpos
  | @cons pos _ _ call _ hs _ ih =>
    obtain ⟨total, he, -, rfl⟩ := (returns_iff hdir hes).1 hs
    have hlen := (emit_spec _ _ _ _ he).2.1
    rw [length_drop] at hlen
    rw [records, flatMap_cons, length_append, ← add_assoc]
    exact ih (by omega)

/-- From every position the calls give the rest of the listing, and then one returns 0. -/
lemma pieces (hc : ∀ k, ∀ e ∈ s.shown rootIno dir es, reclen e ≤ counts k) (pos : Nat) :
    ∃ calls pos', Run (s.Returns rootIno dir es) pos calls pos' ∧
      calls.map Prod.fst = (range calls.length).map counts ∧ (∀ call ∈ calls, call.2.1 ≠ 0) ∧
      s.Returns rootIno dir es pos' (counts calls.length, 0, []) pos' ∧
      (records calls).map dName = ((s.shown rootIno dir es).drop pos).map Dirent.name := by
  generalize hl : s.shown rootIno dir es = l at hc
  induction d : l.length - pos using Nat.strong_induction_on generalizing pos counts with
  | _ d ih =>
    by_cases hend : l.length ≤ pos
    · have hnil : l.drop pos = [] := drop_of_length_le hend
      exact ⟨[], pos, .nil pos, rfl, by simp, (returns_iff hdir hes).2 ⟨0, by rw [hl, hnil]; rfl, rfl, rfl⟩,
        by rw [hnil]; rfl⟩
    -- a buffer has room for one record, so that the position moves on
    have hhd : (l.drop pos).head? = some l[pos] := by simp
    obtain ⟨⟨out, total⟩, he⟩ : ∃ r, emit (counts 0) 0 pos (l.drop pos) = r := ⟨_, rfl⟩
    obtain ⟨hnms, -, -, hfirst⟩ := emit_spec _ _ _ _ he
    obtain ⟨htot, hout⟩ := hfirst _ hhd (by simpa using hc 0 _ (getElem_mem _))
    have hlen := length_pos_of_ne_nil hout
    obtain ⟨calls, pos', hrun, hfst, hne, hls, hr⟩ := ih (l.length - (pos + out.length)) (by omega)
      (pos + out.length) (fun k => hc (k + 1)) rfl
    refine ⟨(counts 0, total, out) :: calls, pos',
      .cons ((returns_iff hdir hes).2 ⟨total, by rw [hl, he], rfl, rfl⟩) hrun, ?_, ?_, hls, ?_⟩
    · rw [length_cons, range_succ_eq_map, map_cons, hfst, map_cons, map_map]
      rfl
    · exact forall_mem_cons.2 ⟨by simpa using Nat.ne_of_gt htot, hne⟩
    · rw [records, flatMap_cons, map_append, ← records, hr, hnms, ← map_append, ← drop_drop, take_append_drop]

/-- What is listed has found room in the array. -/
lemma room_of_listsAll
    (h : s.ListsAll rootIno dir es counts) : (s.contents rootIno dir es).length ≤ VFS_GETDENTS_SORT_MAX := by
  obtain ⟨calls, pos, hrun, -, -, -, hp, -⟩ := h
  have hpieces := length_pieces hdir hes hrun (zero_le _)
  have hshown := @length_shown s rootIno dir es
  have hlen := hp.length_eq
  rw [length_map, length_map] at hlen
  omega

end

/-- **Listing a directory**: the calls give everything that is in it, each name once and in order, exactly if there is
room for it in the array. -/
theorem getdents_lists_all_iff (s : MountTree) (rootIno : Nat → Option Nat) (dir : ListedDir) (hdir : dir.isDir = true)
    (es : List Dirent) (hes : ∀ e ∈ es, e.Named) (counts : Nat → Nat)
    (hcounts : ∀ k, ∀ e ∈ s.shown rootIno dir es, reclen e ≤ counts k) :
    s.ListsAll rootIno dir es counts ↔ (s.contents rootIno dir es).length ≤ VFS_GETDENTS_SORT_MAX := by
  refine ⟨room_of_listsAll hdir hes, fun h => ?_⟩
  obtain ⟨calls, pos', hrun, hfst, hne, hl, hnms⟩ := pieces hdir hes hcounts 0
  refine ⟨calls, pos', hrun, hfst, hne, hl, ?_, ?_⟩
  · rw [hnms]
    exact (shown_perm h).map _
  · rw [hnms, pairwise_map]
    exact (bubbleSort_spec after_iff _).2

/-- No mounts. -/
def noMounts : MountTree := ⟨[], none, fun _ => {}, fun _ => {}, 0, 0, []⟩

/-- A directory with `n` files, named by two letters. -/
def filesOf (n : Nat) : List Dirent :=
  (List.range n).map fun i => ⟨[UInt8.ofNat (97 + i / 26), UInt8.ofNat (97 + i % 26)], .file, i + 1⟩

lemma filesOf_named (n : Nat) : ∀ e ∈ filesOf n, e.Named := by
  intro e he
  obtain ⟨i, -, rfl⟩ := mem_map.1 he
  exact ⟨cons_ne_nil _ _, rfl⟩

/-- Two mounts hang in the directory with the inode number 1 of mount 0; the name of the first is `aa`. -/
def twoMounts : MountTree where
  list := [2, 1, 0]
  root := some 0
  mount id := if id = 0 then {} else { name := [97, UInt8.ofNat (96 + id)], parent := some 0, parentIno := 1 }
  node _ := {}
  mounts := 3
  nodes := 0
  types := []

/-- The theorem where one mount covers a file, one has a name of its own, and each call has room for one record. -/
theorem getdents_lists_mounts : twoMounts.ListsAll (fun _ => none) ⟨true, some 0, 1⟩ (filesOf 1) fun _ => 32 :=
  (getdents_lists_all_iff twoMounts (fun _ => none) ⟨true, some 0, 1⟩ rfl (filesOf 1) (filesOf_named 1) (fun _ => 32)
    fun _ => by decide).2 (by decide)

/-- A directory with 257 files is not listed as a whole. -/
theorem getdents_loses_one : ¬ noMounts.ListsAll (fun _ => none) ⟨true, none, 1⟩ (filesOf 257) fun _ => 280 := by
  intro h
  have hr := room_of_listsAll rfl (filesOf_named 257) h
  have hlen : (noMounts.contents (fun _ => none) ⟨true, none, 1⟩ (filesOf 257)).length = 257 := by
    rw [contents, filesOf, length_map, length_range]
  rw [hlen] at hr
  exact absurd hr (by decide)

end MountTree

end OS01.Fs
