import OS01.Fs.TmpfsBlocks
import OS01.Fs.TmpfsSpec

/-!
# The tree of the memory file system

The invariant of the node table (`Tmpfs.Ok`): children and parents refer to each other, the names in
a directory are distinct, a node without links has no directory and no children, and reference counts
are exact. `Tmpfs.Refines` relates the table to the abstract file system. Each operation is made of
three kinds of steps: one node is changed without moving it (`Ok.touch`), a reference is given up
(`Ok.put`), or a node, also a new one, is moved to a directory or out of all of them (`Ok.moves`).

While a node is taken out of its directory the reference of the directory is still counted; the
invariant has a parameter for such references.
-/

namespace OS01.Fs.Tmpfs

open List Function Option Lib Block

variable {s s' : Tmpfs} {a : AbsFs} {x x' : Nat → Nat} {id d c : Nat} {n n' m : TmpfsNode}
  {name : Path}

/-! ## The invariant -/

/-- What holds between calls. `x` counts the references that are in no directory and no VFS node. -/
structure Ok (s : Tmpfs) (x : Nat → Nat) : Prop where
  root : ∃ n, s.node 0 = some n ∧ n.dir = true ∧ n.parent = none
  known : ∀ id n, s.node id = some n → id < s.next
  child : ∀ d n c, s.node d = some n → c ∈ n.children → ∃ m, s.node c = some m ∧ m.parent = some d
  nodup : ∀ d n, s.node d = some n → n.children.Nodup
  names : ∀ d n, s.node d = some n → ∀ c ∈ n.children, ∀ c' ∈ n.children, ∀ name,
    s.named name c → s.named name c' → c = c'
  parent : ∀ c m d, s.node c = some m → m.parent = some d →
    d ≠ c ∧ ∃ n, s.node d = some n ∧ c ∈ n.children
  linked : ∀ c m, s.node c = some m → (m.nlink = 0 ↔ c ≠ 0 ∧ m.parent = none)
  empty : ∀ d n, s.node d = some n → n.dir = false ∨ n.nlink = 0 → n.children = []
  refs : ∀ c m, s.node c = some m →
    m.refcount = (if m.nlink = 0 then 0 else 1) + s.handles c + x c
  held : ∀ c, 0 < s.handles c + x c → (s.node c).isSome
  cap : ∀ d n, s.node d = some n → n.children.length ≤ n.childCap
  orphaned : ∀ c m, s.node c = some m → m.orphaned = true → m.nlink = 0
  size : ∀ d n, s.node d = some n → n.dir = true → n.size = 0

/-- How a node shows in the abstract file system. -/
def Shows (s : Tmpfs) (n : TmpfsNode) (o : Option FsObj) : Prop :=
  if n.dir then ∃ entry, o = some (.dir (n.nlink == 0) entry) ∧
    ∀ name c, entry name = some c ↔ c ∈ n.children ∧ s.named name c
  else o = some (.file (.ofBytes n.size (stored n.blocks)))

/-- The table shows the abstract file system. -/
structure Refines (s : Tmpfs) (a : AbsFs) : Prop where
  node : ∀ id n, s.node id = some n → s.Shows n (a id)
  fresh : ∀ id, s.next ≤ id → a id = none

lemma named_iff (hm : s.node c = some m) : s.named name c ↔ m.name = name := by
  simp [named, hm]

lemma Ok.named_of_mem (h : Ok s x) (hn : s.node d = some n) (hc : c ∈ n.children) :
    ∃ m, s.node c = some m ∧ s.named m.name c := by
  obtain ⟨m, hm, -⟩ := h.child d n c hn hc
  exact ⟨m, hm, (named_iff hm).2 rfl⟩

/-- A child has one directory. -/
lemma Ok.unique (h : Ok s x) {d' : Nat} (hn : s.node d = some n) (hc : c ∈ n.children)
    (hn' : s.node d' = some n') (hc' : c ∈ n'.children) : d = d' := by
  obtain ⟨m, hm, hp⟩ := h.child d n c hn hc
  obtain ⟨m', hm', hp'⟩ := h.child d' n' c hn' hc'
  rw [hm] at hm'
  cases hm'
  exact some.inj (hp.symm.trans hp')

/-! ## Finding children -/

lemma findChild_some {i : Nat} (h : s.findChild n name = some i) :
    ∃ c, n.children[i]? = some c ∧ c ∈ n.children ∧ s.named name c := by
  obtain ⟨hi, hnm, -⟩ := findIdx?_eq_some_iff_getElem.1 h
  exact ⟨n.children[i], getElem?_eq_getElem hi, getElem_mem hi, hnm⟩

lemma findChild_none (h : s.findChild n name = none) : ∀ c ∈ n.children, ¬s.named name c := by
  intro c hc hnm
  have := findIdx?_eq_none_iff.1 h c hc
  rw [hnm] at this
  cases this

lemma findChild_isSome (hc : c ∈ n.children) (hnm : s.named name c) : ∃ i, s.findChild n name = some i := by
  cases h : s.findChild n name with
  | none => exact absurd hnm (findChild_none h c hc)
  | some i => exact ⟨i, rfl⟩

variable {o : Option FsObj} {handles : Nat → Nat} {y : Nat} {k : TmpfsNode}

/-- A directory in the abstract file system. -/
lemma Shows.dir (h : s.Shows n o) (hdir : n.dir = true) : ∃ entry, o = some (.dir (n.nlink == 0) entry) ∧
      ∀ name c, entry name = some c ↔ c ∈ n.children ∧ s.named name c := by
  unfold Shows at h
  rwa [if_pos hdir] at h

lemma Shows.file (h : s.Shows n o) (hdir : n.dir = false) :
    o = some (.file (.ofBytes n.size (stored n.blocks))) := by
  unfold Shows at h
  rwa [if_neg (by simp [hdir])] at h

/-- Only the names of the children count. -/
lemma Shows.congr (h : s.Shows n o) (hdir : n'.dir = n.dir)
    (hl : (n'.nlink == 0) = (n.nlink == 0)) (hchildren : n'.children = n.children)
    (hf : n.dir = false → n'.size = n.size ∧ stored n'.blocks = stored n.blocks)
    (hnm : ∀ c ∈ n.children, ∀ name, s'.named name c = s.named name c) : s'.Shows n' o := by
  unfold Shows at h ⊢
  rw [hdir]
  split
  · next hd =>
    rw [if_pos hd] at h
    obtain ⟨entry, ho, hent⟩ := h
    refine ⟨entry, hl ▸ ho, fun name c => ?_⟩
    rw [hent, hchildren]
    constructor
    all_goals exact fun ⟨hc, hn⟩ => ⟨hc, hnm c hc name ▸ hn⟩
  · next hd =>
    rw [if_neg hd] at h
    obtain ⟨hs, hb⟩ := hf (Bool.eq_false_iff.2 hd)
    rw [hs, hb]
    exact h

/-- An entry of the abstract file system is a child. -/
lemma Refines.entry (h : Refines s a) (hn : s.node d = some n) {g : Bool}
    {entry : Path → Option Nat} (ha : a d = some (.dir g entry)) : n.dir = true ∧ g = (n.nlink == 0) ∧
      ∀ name c, entry name = some c ↔ c ∈ n.children ∧ s.named name c := by
  have hshw := h.node d n hn
  cases hdir : n.dir with
  | false =>
    rw [hshw.file hdir] at ha
    cases ha
  | true =>
    obtain ⟨entry', ha', hent⟩ := hshw.dir hdir
    rw [ha] at ha'
    obtain ⟨rfl, rfl⟩ : g = (n.nlink == 0) ∧ entry = entry' := by simpa using ha'
    exact ⟨rfl, rfl, hent⟩

/-! ## Changing a node in place -/

/-- What a change in place keeps. -/
structure SamePlace (n n' : TmpfsNode) : Prop where
  name : n'.name = n.name
  dir : n'.dir = n.dir
  nlink : n'.nlink = n.nlink
  parent : n'.parent = n.parent
  children : n'.children = n.children
  cap : n.childCap ≤ n'.childCap
  orphaned : n'.orphaned = n.orphaned
  size : n'.dir = true → n'.size = n.size

/-- The state with one node and the handles replaced. -/
def touch (s : Tmpfs) (id : Nat) (n : TmpfsNode) (handles : Nat → Nat) : Tmpfs :=
  { s.set id n with handles := handles }

lemma touch_self : (s.touch id n handles).node id = some n := update_self ..

lemma touch_of_ne (h : c ≠ id) : (s.touch id n handles).node c = s.node c := update_of_ne h ..

/-- Every node of the new state comes from one of the old state. -/
lemma touch_old (hn : s.node id = some n) (hs : SamePlace n n')
    (hm : (s.touch id n' handles).node c = some m) :
    ∃ m₀, s.node c = some m₀ ∧ SamePlace m₀ m ∧ (c ≠ id → m = m₀) := by
  by_cases hc : c = id
  · subst hc
    rw [touch_self] at hm
    cases hm
    exact ⟨n, hn, hs, fun h => absurd rfl h⟩
  · rw [touch_of_ne hc] at hm
    exact ⟨m, hm, ⟨rfl, rfl, rfl, rfl, rfl, le_rfl, rfl, fun _ => rfl⟩, fun _ => rfl⟩

/-- Every node of the old state gives one of the new state. -/
lemma touch_new (handles : Nat → Nat) (hn : s.node id = some n) (hs : SamePlace n n')
    (hm : s.node c = some m) : ∃ m', (s.touch id n' handles).node c = some m' ∧ SamePlace m m' := by
  by_cases hc : c = id
  · subst hc
    rw [hn] at hm
    cases hm
    exact ⟨n', touch_self, hs⟩
  · exact ⟨m, (touch_of_ne hc).trans hm, ⟨rfl, rfl, rfl, rfl, rfl, le_rfl, rfl, fun _ => rfl⟩⟩

lemma touch_named (handles : Nat → Nat) (hn : s.node id = some n) (hs : SamePlace n n') :
    (s.touch id n' handles).named name c = s.named name c := by
  by_cases hc : c = id
  · subst hc
    simp [named, touch_self, hn, hs.name]
  · simp [named, touch_of_ne hc]

/-- **A change in place keeps the invariant.** -/
lemma Ok.touch (h : Ok s x) (hn : s.node id = some n) (hsm : SamePlace n n') (handles : Nat → Nat)
    (hr : n'.refcount = (if n.nlink = 0 then 0 else 1) + handles id + x' id)
    (hoth : ∀ c, c ≠ id → handles c + x' c = s.handles c + x c) : Ok (s.touch id n' handles) x' where
  root := by
    obtain ⟨n0, h0, hdir, hpar⟩ := h.root
    obtain ⟨m', hm', hs⟩ := touch_new handles hn hsm h0
    exact ⟨m', hm', hs.dir.trans hdir, hs.parent.trans hpar⟩
  known c m hm := by
    obtain ⟨m0, hm0, -⟩ := touch_old hn hsm hm
    exact h.known c m0 hm0
  child d k c hd hc := by
    obtain ⟨k0, hk0, hk, -⟩ := touch_old hn hsm hd
    obtain ⟨m, hm, hp⟩ := h.child d k0 c hk0 (hk.children ▸ hc)
    obtain ⟨m', hm', hs⟩ := touch_new handles hn hsm hm
    exact ⟨m', hm', hs.parent.trans hp⟩
  nodup d k hd := by
    obtain ⟨k0, hk0, hk, -⟩ := touch_old hn hsm hd
    rw [hk.children]
    exact h.nodup d k0 hk0
  names d k hd c hc c' hc' name hnm hn' := by
    obtain ⟨k0, hk0, hk, -⟩ := touch_old hn hsm hd
    rw [touch_named handles hn hsm] at hnm hn'
    exact h.names d k0 hk0 c (hk.children ▸ hc) c' (hk.children ▸ hc') name hnm hn'
  parent c m d hm hp := by
    obtain ⟨m0, hm0, hs, -⟩ := touch_old hn hsm hm
    obtain ⟨hne, k, hk, hmem⟩ := h.parent c m0 d hm0 (hs.parent ▸ hp)
    obtain ⟨k', hk', hks⟩ := touch_new handles hn hsm hk
    exact ⟨hne, k', hk', hks.children ▸ hmem⟩
  linked c m hm := by
    obtain ⟨m0, hm0, hs, -⟩ := touch_old hn hsm hm
    rw [hs.nlink, hs.parent]
    exact h.linked c m0 hm0
  empty d k hd hk := by
    obtain ⟨k0, hk0, hs, -⟩ := touch_old hn hsm hd
    rw [hs.children]
    rw [hs.dir, hs.nlink] at hk
    exact h.empty d k0 hk0 hk
  refs c m hm := by
    by_cases hc : c = id
    · subst hc
      rw [touch_self] at hm
      cases hm
      rw [hsm.nlink]
      exact hr
    · rw [touch_of_ne hc] at hm
      have := h.refs c m hm
      have := hoth c hc
      change _ = _ + handles c + _
      omega
  held c hc := by
    by_cases hid : c = id
    · subst hid
      rw [touch_self]
      rfl
    · rw [touch_of_ne hid]
      exact h.held c (hoth c hid ▸ hc)
  cap d k hd := by
    obtain ⟨k0, hk0, hs, -⟩ := touch_old hn hsm hd
    rw [hs.children]
    exact Nat.le_trans (h.cap d k0 hk0) hs.cap
  orphaned c m hm ho := by
    obtain ⟨m0, hm0, hs, -⟩ := touch_old hn hsm hm
    rw [hs.nlink]
    exact h.orphaned c m0 hm0 (hs.orphaned ▸ ho)
  size d k hd hk := by
    obtain ⟨k0, hk0, hs, -⟩ := touch_old hn hsm hd
    rw [hs.size hk]
    exact h.size d k0 hk0 (hs.dir ▸ hk)

/-- A change in place of a node whose object changes with it. -/
lemma Refines.touch (h : Refines s a) (hn : s.node id = some n) (hs : SamePlace n n')
    (handles : Nat → Nat) (ho : s.Shows n' o) (hid : id < s.next) :
    Refines (s.touch id n' handles) (update a id o) := by
  refine ⟨fun c m hm => ?_, fun c hc => ?_⟩
  · by_cases hc : c = id
    · subst hc
      rw [touch_self] at hm
      cases hm
      rw [update_self]
      exact ho.congr rfl rfl rfl (fun _ => ⟨rfl, rfl⟩) fun _ _ _ => touch_named handles hn hs
    · rw [touch_of_ne hc] at hm
      rw [update_of_ne hc]
      exact (h.node c m hm).congr rfl rfl rfl (fun _ => ⟨rfl, rfl⟩) fun _ _ _ => touch_named handles hn hs
  · change s.next ≤ c at hc
    rw [update_of_ne (by omega)]
    exact h.fresh c hc

/-- A change in place that does not show. -/
lemma Refines.touch_hidden (h : Refines s a) (hn : s.node id = some n) (hs : SamePlace n n')
    (hid : id < s.next) (hf : n.dir = false → n'.size = n.size ∧ stored n'.blocks = stored n.blocks) :
    Refines (s.touch id n' handles) a := by
  have hshw : s.Shows n' (a id) := (h.node id n hn).congr hs.dir (by rw [hs.nlink]) hs.children hf
      fun _ _ _ => rfl
  have := h.touch hn hs handles hshw hid
  rwa [update_eq_self] at this

/-! ## Giving up a reference -/

/-- The last reference is given up. -/
lemma Ok.drop (h : Ok s x) (hm : s.node c = some m) (hl : m.nlink = 0) (hhan : s.handles c = 0)
    (hoth : ∀ y, y ≠ c → x' y = x y) (hs : x' c = 0) : Ok { s with node := update s.node c none } x' := by
  have hne : c ≠ 0 ∧ m.parent = none := (h.linked c m hm).1 hl
  have hold : ∀ {y k}, update s.node c none y = some k → y ≠ c ∧ s.node y = some k := by
    intro y k hy
    by_cases hyc : y = c
    · rw [hyc, update_self] at hy
      cases hy
    · rw [update_of_ne hyc] at hy
      exact ⟨hyc, hy⟩
  have hnew : ∀ {y k}, y ≠ c → s.node y = some k → update s.node c none y = some k :=
    fun hyc hy => (update_of_ne hyc ..).trans hy
  -- no directory has it as a child
  have hf : ∀ {d k y}, s.node d = some k → y ∈ k.children → y ≠ c := by
    rintro d k y hd hy rfl
    obtain ⟨m', hm', hp⟩ := h.child d k y hd hy
    rw [hm] at hm'
    cases hm'
    rw [hne.2] at hp
    cases hp
  have hnm : ∀ {y nm}, y ≠ c → (Tmpfs.named { s with node := update s.node c none } nm y ↔ s.named nm y) := by
    intro y nm hyc
    simp [named, update_of_ne hyc]
  refine ⟨?_, fun y k hy => ?_, fun d k y hd hy => ?_, fun d k hd => ?_,
    fun d k hd y hy y' hy' nm hn hn' => ?_, fun y k d hy hp => ?_, fun y k hy => ?_,
    fun d k hd => ?_, fun y k hy => ?_, fun y hy => ?_, fun d k hd => ?_, fun y k hy => ?_, fun d k hd => ?_⟩
  · obtain ⟨k, hk, hdir, hp⟩ := h.root
    exact ⟨k, hnew (Ne.symm hne.1) hk, hdir, hp⟩
  · exact h.known y k (hold hy).2
  · have hd := (hold hd).2
    obtain ⟨k', hk', hp⟩ := h.child d k y hd hy
    exact ⟨k', hnew (hf hd hy) hk', hp⟩
  · exact h.nodup d k (hold hd).2
  · have hd := (hold hd).2
    exact h.names d k hd y hy y' hy' nm ((hnm (hf hd hy)).1 hn) ((hnm (hf hd hy')).1 hn')
  · obtain ⟨hyc, hy⟩ := hold hy
    obtain ⟨hdy, k', hk', hmem⟩ := h.parent y k d hy hp
    refine ⟨hdy, k', hnew ?_ hk', hmem⟩
    rintro rfl
    rw [hm] at hk'
    cases hk'
    rw [h.empty d m hm (.inr hl)] at hmem
    cases hmem
  · exact h.linked y k (hold hy).2
  · exact h.empty d k (hold hd).2
  · obtain ⟨hyc, hy⟩ := hold hy
    rw [hoth y hyc]
    exact h.refs y k hy
  · change 0 < s.handles y + x' y at hy
    have hyc : y ≠ c := by
      rintro rfl
      omega
    rw [hoth y hyc] at hy
    obtain ⟨k, hk⟩ := isSome_iff_exists.1 (h.held y hy)
    exact isSome_iff_exists.2 ⟨k, hnew hyc hk⟩
  · exact h.cap d k (hold hd).2
  · exact h.orphaned y k (hold hy).2
  · exact h.size d k (hold hd).2

/-- **Giving up a reference** that is in no directory and no VFS node. -/
lemma Ok.put (h : Ok s x) (hx : 0 < x c) : ∃ s', s.put c = some s' ∧ Ok s' (update x c (x c - 1)) ∧
      ∀ a, Refines s a → Refines s' a := by
  obtain ⟨m, hm⟩ := isSome_iff_exists.1 (h.held c (by omega))
  have hr := h.refs c m hm
  have hoth : ∀ y, y ≠ c → update x c (x c - 1) y = x y := fun y hy => update_of_ne hy ..
  have hsl : update x c (x c - 1) c = x c - 1 := update_self ..
  have hput : s.put c = if m.refcount - 1 = 0 then
      some { s with node := update s.node c none }
      else some (s.set c { m with refcount := m.refcount - 1 }) := by
    unfold Tmpfs.put
    rw [hm]
    simp
  by_cases hl : m.refcount - 1 = 0
  · have hln : m.nlink = 0 := by
      by_contra hne
      rw [if_neg hne] at hr
      omega
    refine ⟨_, hput.trans (if_pos hl), h.drop hm hln (by omega) hoth (by omega), fun a ha => ?_⟩
    refine ⟨fun y k hy => ?_, ha.fresh⟩
    have hyc : y ≠ c := by
      rintro rfl
      simp at hy
    replace hy : s.node y = some k := by
      simpa only [update_of_ne hyc] using hy
    refine (ha.node y k hy).congr rfl rfl rfl (fun _ => ⟨rfl, rfl⟩) fun z hz nm => ?_
    have hzc : z ≠ c := by
      rintro rfl
      obtain ⟨m', hm', hp⟩ := h.child y k z hy hz
      rw [hm] at hm'
      cases hm'
      rw [((h.linked z m hm).1 hln).2] at hp
      cases hp
    simp [named, update_of_ne hzc]
  · have hs : SamePlace m { m with refcount := m.refcount - 1 } :=
      ⟨rfl, rfl, rfl, rfl, rfl, le_rfl, rfl, fun _ => rfl⟩
    refine ⟨_, hput.trans (if_neg hl), h.touch hm hs s.handles ?_ fun y hy => ?_,
      fun a ha => ha.touch_hidden hm hs (h.known c m hm) fun _ => ⟨rfl, rfl⟩⟩
    · change m.refcount - 1 = _
      omega
    · rw [hoth y hy]

/-! ## Moving a node -/

/-- What a move of `c` to the directory `target` keeps of another node. -/
structure Keeps (c : Nat) (target : Option Nat) (id : Nat) (n n' : TmpfsNode) : Prop where
  name : n'.name = n.name
  dir : n'.dir = n.dir
  nlink : n'.nlink = n.nlink
  parent : n'.parent = n.parent
  orphaned : n'.orphaned = n.orphaned
  size : n'.size = n.size
  refcount : n'.refcount = n.refcount
  blocks : n'.blocks = n.blocks
  nodup : n'.children.Nodup
  cap : n'.children.length ≤ n'.childCap
  children : ∀ y, y ∈ n'.children ↔ y ≠ c ∧ y ∈ n.children ∨ target = some id ∧ y = c

/-- A node, which may be a new one, gets the place that `m` says. -/
structure Moves (s s' : Tmpfs) (c : Nat) (m : TmpfsNode) : Prop where
  self : s'.node c = some m
  next : s.next ≤ s'.next
  known : c < s'.next
  handles : ∀ y, y ≠ c → s'.handles y = s.handles y
  absent : ∀ id, id ≠ c → s.node id = none → s'.node id = none
  node : ∀ id n, id ≠ c → s.node id = some n → ∃ n', s'.node id = some n' ∧ Keeps c m.parent id n n'
  children : s.node c = none ∧ m.children = [] ∨
    ∃ m₀, s.node c = some m₀ ∧ m.children = m₀.children ∧ m.childCap = m₀.childCap

lemma Moves.old {k' : TmpfsNode} (h : Moves s s' c m) (hy : y ≠ c)
    (hk : s'.node y = some k') : ∃ k, s.node y = some k ∧ Keeps c m.parent y k k' := by
  cases hs : s.node y with
  | none =>
    rw [h.absent y hy hs] at hk
    cases hk
  | some k =>
    obtain ⟨k1, hk1, hkp⟩ := h.node y k hy hs
    rw [hk] at hk1
    cases hk1
    exact ⟨k, rfl, hkp⟩

/-- A node after the move is the moved one, or was there before. -/
lemma Moves.which (h : Moves s s' c m) (hk : s'.node y = some k) :
    y = c ∧ m = k ∨ y ≠ c ∧ ∃ k₀, s.node y = some k₀ ∧ Keeps c m.parent y k₀ k := by
  by_cases hyc : y = c
  · rw [hyc, h.self] at hk
    exact .inl ⟨hyc, some.inj hk⟩
  · exact .inr ⟨hyc, h.old hyc hk⟩

lemma Moves.named (h : Moves s s' c m) (hy : y ≠ c) : s'.named name y = s.named name y := by
  unfold Tmpfs.named
  cases hs : s.node y with
  | none => rw [h.absent y hy hs]
  | some k =>
    obtain ⟨k', hk', hkp⟩ := h.node y k hy hs
    rw [hk', any_some, any_some, hkp.name]

/-- The place a node is moved to: a linked directory with no other child of its name, or none. -/
structure Fits (s : Tmpfs) (c : Nat) (m : TmpfsNode) : Prop where
  root : c ≠ 0
  dir : ∀ d, m.parent = some d → d ≠ c ∧ ∃ n, s.node d = some n ∧ n.dir = true ∧ n.nlink ≠ 0 ∧
    ∀ y ∈ n.children, y ≠ c → ¬s.named m.name y
  linked : m.nlink = 0 ↔ m.parent = none
  empty : m.dir = false ∨ m.nlink = 0 → m.children = []
  orphaned : m.orphaned = true → m.nlink = 0
  size : m.dir = true → m.size = 0

/-- The children of the moved node were its children before. -/
lemma Ok.moved_child (h : Ok s x) (hm : Moves s s' c m) (hy : y ∈ m.children) :
    y ≠ c ∧ ∃ m₀, s.node c = some m₀ ∧ y ∈ m₀.children := by
  obtain ⟨hn, hnil⟩ | ⟨m₀, hm0, heq, -⟩ := hm.children
  · rw [hnil] at hy
    cases hy
  · rw [heq] at hy
    obtain ⟨k, hk, hp⟩ := h.child c m₀ y hm0 hy
    exact ⟨fun hyc => (h.parent y k c hk hp).1 hyc.symm, m₀, hm0, hy⟩

/-- A child of any node after the move is the moved one, or was a child before. -/
lemma Ok.child_of_moves (h : Ok s x) (hm : Moves s s' c m) {e : Nat}
    (he : s'.node e = some k) (hy : y ∈ k.children) :
    y = c ∧ e ≠ c ∧ m.parent = some e ∨ y ≠ c ∧ ∃ k₀, s.node e = some k₀ ∧ y ∈ k₀.children := by
  obtain ⟨rfl, rfl⟩ | ⟨hec, k₀, hk0, hkp⟩ := hm.which he
  · exact .inr (h.moved_child hm hy)
  · obtain ⟨hyc, hy0⟩ | ⟨hto, hyc⟩ := (hkp.children y).1 hy
    · exact .inr ⟨hyc, k₀, hk0, hy0⟩
    · exact .inl ⟨hyc, hec, hto⟩

/-- **A move keeps the invariant.** -/
lemma Ok.moves (h : Ok s x) (hm : Moves s s' c m) (hf : Fits s c m)
    (hrf : m.refcount = (if m.nlink = 0 then 0 else 1) + s'.handles c + x' c)
    (hx : ∀ y, y ≠ c → x' y = x y) : Ok s' x' where
  root := by
    obtain ⟨r, hr, hdir, hp⟩ := h.root
    obtain ⟨r', hr', hk⟩ := hm.node 0 r (Ne.symm hf.root) hr
    exact ⟨r', hr', hk.dir.trans hdir, hk.parent.trans hp⟩
  known y k hy := by
    by_cases hyc : y = c
    · exact hyc ▸ hm.known
    · obtain ⟨k0, hk0, -⟩ := hm.old hyc hy
      exact Nat.lt_of_lt_of_le (h.known y k0 hk0) hm.next
  child e k y he hy := by
    obtain ⟨rfl, -, hto⟩ | ⟨hyc, k0, hk0, hy0⟩ := h.child_of_moves hm he hy
    · exact ⟨m, hm.self, hto⟩
    · obtain ⟨j, hj, hp⟩ := h.child e k0 y hk0 hy0
      obtain ⟨j', hj', hkp⟩ := hm.node y j hyc hj
      exact ⟨j', hj', hkp.parent.trans hp⟩
  nodup e k he := by
    obtain ⟨rfl, rfl⟩ | ⟨hec, k0, -, hkp⟩ := hm.which he
    · obtain ⟨hnn, hnil⟩ | ⟨m0, hm0, heq, -⟩ := hm.children
      · rw [hnil]
        exact nodup_nil
      · rw [heq]
        exact h.nodup e m0 hm0
    · exact hkp.nodup
  names e k he y hy y' hy' nm hn hn' := by
    rcases h.child_of_moves hm he hy with ⟨rfl, hec, hto⟩ | ⟨hyc, k0, hk0, hy0⟩ <;>
      obtain ⟨rfl, hec', hto'⟩ | ⟨hyc', k0', hk0', hy0'⟩ := h.child_of_moves hm he hy'
    · rfl
    · -- the moved node has a name that no other child of its directory has
      obtain ⟨-, j, hj, -, -, hfr⟩ := hf.dir e hto
      rw [hj] at hk0'
      cases hk0'
      rw [hm.named hyc', ← (named_iff hm.self).1 hn] at hn'
      exact absurd hn' (hfr y' hy0' hyc')
    · obtain ⟨-, j, hj, -, -, hfr⟩ := hf.dir e hto'
      rw [hj] at hk0
      cases hk0
      rw [hm.named hyc, ← (named_iff hm.self).1 hn'] at hn
      exact absurd hn (hfr y hy0 hyc)
    · rw [hk0] at hk0'
      cases hk0'
      rw [hm.named hyc] at hn
      rw [hm.named hyc'] at hn'
      exact h.names e k0 hk0 y hy0 y' hy0' nm hn hn'
  parent y k e hy hp := by
    obtain ⟨rfl, rfl⟩ | ⟨hyc, k0, hk0, hkp⟩ := hm.which hy
    · obtain ⟨hne, j, hj, -⟩ := hf.dir e hp
      obtain ⟨j', hj', hkp⟩ := hm.node e j hne hj
      exact ⟨hne, j', hj', (hkp.children y).2 (.inr ⟨hp, rfl⟩)⟩
    obtain ⟨hne, j, hj, hmem⟩ := h.parent y k0 e hk0 (hkp.parent ▸ hp)
    by_cases hec : e = c
    · subst hec
      refine ⟨hne, m, hm.self, ?_⟩
      obtain ⟨hnn, hnil⟩ | ⟨m0, hm0, heq, -⟩ := hm.children
      · rw [hnn] at hj
        cases hj
      · rw [hj] at hm0
        cases hm0
        exact heq ▸ hmem
    · obtain ⟨j', hj', hj''⟩ := hm.node e j hec hj
      exact ⟨hne, j', hj', (hj''.children y).2 (.inl ⟨hyc, hmem⟩)⟩
  linked y k hy := by
    obtain ⟨rfl, rfl⟩ | ⟨hyc, k0, hk0, hkp⟩ := hm.which hy
    · exact hf.linked.trans ⟨fun hp => ⟨hf.root, hp⟩, fun hp => hp.2⟩
    · rw [hkp.nlink, hkp.parent]
      exact h.linked y k0 hk0
  empty e k he hk := by
    obtain ⟨rfl, rfl⟩ | ⟨hec, k0, hk0, hkp⟩ := hm.which he
    · exact hf.empty hk
    rw [hkp.dir, hkp.nlink] at hk
    have hnil := h.empty e k0 hk0 hk
    refine eq_nil_iff_forall_not_mem.2 fun y hy => ?_
    obtain ⟨-, hy0⟩ | ⟨hto, -⟩ := (hkp.children y).1 hy
    · rw [hnil] at hy0
      cases hy0
    · obtain ⟨-, j, hj, hdir, hl, -⟩ := hf.dir e hto
      rw [hk0] at hj
      cases hj
      rw [hdir] at hk
      exact hl (hk.resolve_left (by simp))
  refs y k hy := by
    obtain ⟨rfl, rfl⟩ | ⟨hyc, k0, hk0, hkp⟩ := hm.which hy
    · exact hrf
    · rw [hkp.refcount, hkp.nlink, hm.handles y hyc, hx y hyc]
      exact h.refs y k0 hk0
  held y hy := by
    by_cases hyc : y = c
    · rw [hyc, hm.self]
      rfl
    · rw [hm.handles y hyc, hx y hyc] at hy
      obtain ⟨k0, hk0⟩ := isSome_iff_exists.1 (h.held y hy)
      obtain ⟨k, hk, -⟩ := hm.node y k0 hyc hk0
      rw [hk]
      rfl
  cap e k he := by
    obtain ⟨rfl, rfl⟩ | ⟨hec, k0, -, hkp⟩ := hm.which he
    · obtain ⟨hnn, hnil⟩ | ⟨m0, hm0, heq, hcap⟩ := hm.children
      · rw [hnil]
        exact Nat.zero_le _
      · rw [heq, hcap]
        exact h.cap e m0 hm0
    · exact hkp.cap
  orphaned y k hy ho := by
    obtain ⟨rfl, rfl⟩ | ⟨hyc, k0, hk0, hkp⟩ := hm.which hy
    · exact hf.orphaned ho
    · rw [hkp.nlink]
      exact h.orphaned y k0 hk0 (hkp.orphaned ▸ ho)
  size e k he hk := by
    obtain ⟨rfl, rfl⟩ | ⟨hec, k0, hk0, hkp⟩ := hm.which he
    · exact hf.size hk
    · rw [hkp.size]
      exact h.size e k0 hk0 (hkp.dir ▸ hk)

/-- How the abstract file system changes with a move. -/
structure Follows (s : Tmpfs) (a a' : AbsFs) (next c : Nat) (m : TmpfsNode) : Prop where
  file : ∀ id k, id ≠ c → a id = some (.file k) → a' id = some (.file k)
  dir : ∀ id n g entry, id ≠ c → s.node id = some n → a id = some (.dir g entry) →
    ∃ entry', a' id = some (.dir g entry') ∧ ∀ nm y, entry' nm = some y ↔
      y ≠ c ∧ entry nm = some y ∨ m.parent = some id ∧ y = c ∧ nm = m.name
  self : s.Shows m (a' c)
  fresh : ∀ id, next ≤ id → a' id = none

/-- **A move is followed by the abstract file system.** -/
lemma Refines.moves (h : Ok s x) (href : Refines s a) (hm : Moves s s' c m) {a' : AbsFs}
    (hfol : Follows s a a' s'.next c m) : Refines s' a' := by
  refine ⟨fun id k hk => ?_, hfol.fresh⟩
  by_cases hid : id = c
  · subst hid
    rw [hm.self] at hk
    cases hk
    exact hfol.self.congr rfl rfl rfl (fun _ => ⟨rfl, rfl⟩) fun y hy nm => hm.named (h.moved_child hm hy).1
  obtain ⟨k0, hk0, hkp⟩ := hm.old hid hk
  have hshw := href.node id k0 hk0
  unfold Shows
  rw [hkp.dir, hkp.nlink]
  split
  · next hdir =>
    obtain ⟨entry, ha, hent⟩ := hshw.dir hdir
    obtain ⟨entry', ha', hent'⟩ := hfol.dir id k0 _ entry hid hk0 ha
    refine ⟨entry', ha', fun nm y => ?_⟩
    rw [hent', hent, hkp.children]
    by_cases hy : y = c
    · subst hy
      rw [named_iff hm.self]
      constructor
      · rintro (⟨hne, -⟩ | ⟨hp, -, hnm⟩)
        · exact absurd rfl hne
        · exact ⟨.inr ⟨hp, rfl⟩, hnm.symm⟩
      · rintro ⟨⟨hne, -⟩ | ⟨hp, -⟩, hnm⟩
        · exact absurd rfl hne
        · exact .inr ⟨hp, rfl, hnm.symm⟩
    · simp [hy, hm.named hy]
  · next hdir =>
    rw [hkp.size, hkp.blocks]
    exact hfol.file id _ hid (hshw.file (Bool.eq_false_iff.2 hdir))

end OS01.Fs.Tmpfs
