import OS01.Fs.TmpfsTree

/-!
# The calls of the memory file system

Each call keeps the invariant and does what the abstract file system allows (`Tmpfs.Good`), if it
meets the condition `Tmpfs.Safe`. The condition leaves out the calls that the code treats wrongly:

* `unlink` of a directory and `rmdir` of a file, which remove it all the same;
* `rename` of an entry to itself, which reads the children array at index -1, into a file or a
  removed directory, of a directory below itself, and of a file over a directory or the other way;
* a write or a truncation that grows a file over bytes that an earlier truncation left in a page;
* a read that reaches a page that a growing truncation did not allocate;
* reads and writes of more than `2 ^ 31 - 1` bytes, whose result does not fit an `int`.
-/

namespace OS01.Fs.Tmpfs

open List Nat Function Option Lib AbsFs TmpfsNode Refines

variable {s s' : Tmpfs} {a : AbsFs} {x : Nat → Nat} {id d c i : Nat} {n m : TmpfsNode} {name : Path}

/-- No references beside those of directories and VFS nodes. -/
def noRefs : Nat → Nat := fun _ => 0

/-- The VFS has a node of it, so it may be named in a call. -/
def Held (s : Tmpfs) (id : Nat) : Prop := id = 0 ∨ 0 < s.handles id

instance (s : Tmpfs) (id : Nat) : Decidable (s.Held id) := inferInstanceAs (Decidable (_ ∨ _))

/-- What the callers see to: nodes that are live, names that fit, and positions that do not wrap. -/
def Valid (s : Tmpfs) : TmpfsEvent → Prop
  | .lookup d name _ | .create d name _ _ | .mkdir d name _ _ | .unlink d name | .rmdir d name =>
    s.Held d ∧ name.length ≤ 255
  | .rename od oldname nd newname _ =>
    s.Held od ∧ s.Held nd ∧ oldname.length ≤ 255 ∧ newname.length ≤ 255
  | .write id off data _ => s.Held id ∧ off + data.length < 2 ^ 64
  | .truncate id newSize => s.Held id ∧ newSize < 2 ^ 64
  | .read id off len => s.Held id ∧ off + len < 2 ^ 64
  | .readdir d _ => s.Held d
  | .evict id => 0 < s.handles id

instance (s : Tmpfs) : (e : TmpfsEvent) → Decidable (s.Valid e)
  | .lookup .. | .create .. | .mkdir .. | .unlink .. | .rmdir .. | .rename .. | .write .. | .truncate .. | .read .. =>
    inferInstanceAs (Decidable (_ ∧ _))
  | .readdir .. => inferInstanceAs (Decidable (Held _ _))
  | .evict .. => inferInstanceAs (Decidable (_ < _))

/-- The child of a directory with a name. -/
def childNamed (s : Tmpfs) (d : Nat) (name : Path) : Option Nat := do
  let n ← s.node d
  let i ← s.findChild n name
  n.children[i]?

/-- One directory is the other, or is on the way to it. -/
def Under (s : Tmpfs) : Nat → Nat → Prop :=
  Relation.ReflTransGen fun p q => ∃ n, s.node p = some n ∧ q ∈ n.children

/-- Whether a node is a directory. -/
def isDir (s : Tmpfs) (id : Nat) : Bool := (s.node id).any fun n => n.dir

/-- The bytes that a file would show if it grew to `off`, up to there, are zero. -/
def Clean (n : TmpfsNode) (off : Nat) : Prop := ∀ i < off, n.size ≤ i → Block.stored n.blocks i = 0

instance (n : TmpfsNode) (off : Nat) : Decidable (Clean n off) :=
  inferInstanceAs (Decidable (∀ i < off, n.size ≤ i → _))

/-- The calls that are treated rightly. -/
def Safe (s : Tmpfs) : TmpfsEvent → Prop
  | .unlink d name => ∀ c, s.childNamed d name = some c → s.isDir c = false
  | .rmdir d name => ∀ c, s.childNamed d name = some c → s.isDir c = true
  | .rename od oldname nd newname _ => ∀ c, s.childNamed od oldname = some c →
      (od, oldname) ≠ (nd, newname) ∧ ¬s.Under c nd ∧
        (∃ n, s.node nd = some n ∧ n.dir = true ∧ n.nlink ≠ 0) ∧
        ∀ t, s.childNamed nd newname = some t → s.isDir t = s.isDir c
  | .write id off data _ => data.length < 2 ^ 31 ∧
      ∀ n, s.node id = some n → n.dir = false ∧ Clean n off
  | .truncate id newSize => ∀ n, s.node id = some n → n.dir = false ∧ Clean n newSize
  | .read id off len => ∀ n, s.node id = some n → n.dir = false ∧ min len (n.size - off) < 2 ^ 31 ∧
      ∀ i < min len (n.size - off), Block.Has n.blocks ((off + i) / 4096)
  | _ => True

/-- A call keeps the invariant and is allowed. -/
def Good (s : Tmpfs) (a : AbsFs) (e : TmpfsEvent) : Prop :=
  ∃ s' r a', s.call e = some (s', r) ∧ Ok s' noRefs ∧ Refines s' a' ∧ a.Accepts (e, r) a'

lemma Good.fail {e : TmpfsEvent} {r : TmpfsResult} (hok : Ok s noRefs) (href : Refines s a)
    (hc : s.call e = some (s, r)) (hf : AbsFs.Failure e r)
    (hwhy : AbsFs.NoMemory e ∨ ∀ r b, ¬AbsFs.Op a e r b) : Good s a e :=
  ⟨s, r, a, hc, hok, href, .inr ⟨hf, rfl, hwhy⟩⟩

lemma Ok.get (h : Ok s x) (hhl : s.Held id) : ∃ n, s.node id = some n := by
  obtain rfl | hpos := hhl
  · obtain ⟨n, hn, -⟩ := h.root
    exact ⟨n, hn⟩
  · exact isSome_iff_exists.1 (h.held id (Nat.lt_of_lt_of_le hpos (Nat.le_add_right ..)))

/-! ## New nodes -/

variable {g grow : Bool} {n₁ child : TmpfsNode} {y k next : Nat} {target : Option Nat}
  {entry : Path → Option Nat} {obj : FsObj}

/-- Room for a child is a matter of the capacity only. -/
lemma reserve_some (h : n.reserve grow = some n₁) (hcap : n.children.length ≤ n.childCap) :
    ∃ k, n₁ = { n with childCap := k } ∧ n.children.length < k ∧ n.childCap ≤ k := by
  unfold reserve at h
  split at h
  · next hlt => exact ⟨n.childCap, (some.inj h).symm, hlt, le_refl _⟩
  next hf =>
  split at h
  · refine ⟨_, (some.inj h).symm, ?_, ?_⟩
    · split
      · omega
      · simp only [TMPFS_CHILDREN_INIT_CAP]
        omega
    · split <;> omega
  · cases h

lemma reserve_none (h : n.reserve grow = none) : grow = false := by
  unfold reserve at h
  split at h
  · cases h
  · split at h
    · cases h
    · next hmem => exact Bool.eq_false_iff.2 hmem

/-- What a new node looks like. -/
structure NewNode (child : TmpfsNode) (d : Nat) : Prop where
  parent : child.parent = some d
  children : child.children = []
  nlink : child.nlink ≠ 0
  refcount : child.refcount = 2
  size : child.size = 0
  orphaned : child.orphaned = false

lemma newFile_new (name : Path) (d : Nat) : NewNode (.newFile name d) d :=
  ⟨rfl, rfl, Nat.one_ne_zero, rfl, rfl, rfl⟩

lemma newDir_new (name : Path) (d : Nat) : NewNode (.newDir name d) d :=
  ⟨rfl, rfl, succ_ne_zero 1, rfl, rfl, rfl⟩

lemma Ok.unused (h : Ok s x) : s.node s.next = none ∧ s.handles s.next = 0 := by
  have hnn : s.node s.next = none := by
    cases hn : s.node s.next with
    | none => rfl
    | some n => exact absurd (h.known _ n hn) (lt_irrefl _)
  refine ⟨hnn, ?_⟩
  by_contra hpos
  have hs := h.held s.next (by omega)
  rw [hnn] at hs
  cases hs

/-- The state after a node is added. -/
def withChild (s : Tmpfs) (d : Nat) (n child : TmpfsNode) : Tmpfs :=
  { (s.set d { n with children := n.children ++ [s.next] }).set s.next child with
    next := s.next + 1 }.addHandle s.next

lemma ne_of_node (hy : s.node y = none) (hn : s.node d = some n) : y ≠ d := by
  rintro rfl
  rw [hn] at hy
  cases hy

/-- The directory that the moved node comes to, with the children `l` beside it. -/
lemma keeps_added {l : List Nat} (hl : l.Nodup) (hk : l.length < k)
    (hmem : ∀ z, z ∈ l ↔ z ≠ c ∧ z ∈ n.children) :
    Keeps c (some d) d n { n with childCap := k, children := l ++ [c] } := by
  refine ⟨rfl, rfl, rfl, rfl, rfl, rfl, rfl, rfl, ?_, ?_, fun z => ?_⟩
  · refine nodup_append.2 ⟨hl, by simp, fun z hz w hw => ?_⟩
    rw [mem_singleton.1 hw]
    exact ((hmem z).1 hz).1
  · rw [length_append]
    exact hk
  · rw [mem_append, hmem]
    simp

section

variable (h : Ok s x) (hn : s.node d = some n)
include h hn

/-- A directory that the moved node was not in, and does not come to. -/
lemma Ok.keeps (hout : c ∉ n.children) (hto : target ≠ some d) : Keeps c target d n n := by
  refine ⟨rfl, rfl, rfl, rfl, rfl, rfl, rfl, rfl, h.nodup d n hn, h.cap d n hn, fun z => ?_⟩
  constructor
  · exact fun hz => .inl ⟨fun hzc => hout (hzc ▸ hz), hz⟩
  · rintro (⟨-, hz⟩ | ⟨hd, -⟩)
    · exact hz
    · exact absurd hd hto

/-- The directory that the moved node leaves. -/
lemma Ok.keeps_removed (hi : n.children[i]? = some c) (hto : target ≠ some d) :
    Keeps c target d n { n with children := swapRemove n.children i } := by
  have hnd := h.nodup d n hn
  refine ⟨rfl, rfl, rfl, rfl, rfl, rfl, rfl, rfl, nodup_swapRemove hi hnd, ?_, fun z => ?_⟩
  · have := length_swapRemove hi
    have := h.cap d n hn
    dsimp only
    omega
  · rw [mem_swapRemove hi hnd]
    simp [hto]

lemma withChild_moves (hk : n.children.length < k) (hch : NewNode child d) :
    Moves s (s.withChild d { n with childCap := k } child) s.next child := by
  obtain ⟨hnn, -⟩ := h.unused
  have hnd : ∀ y, y ≠ s.next → (s.withChild d { n with childCap := k } child).node y =
      if y = d then some { n with childCap := k, children := n.children ++ [s.next] } else s.node y := by
    intro y hy
    change update (update s.node d _) s.next (some child) y = _
    rw [update_of_ne hy, update_apply]
  have hold : ∀ {e j}, s.node e = some j → s.next ∉ j.children := by
    intro e j he hmem
    obtain ⟨m, hm, -⟩ := h.child e j _ he hmem
    exact ne_of_node hnn hm rfl
  refine ⟨update_self .., le_succ _, lt_succ_self _,
    fun y hy => update_of_ne hy .., fun y hy hs => ?_, fun y j hy hs => ?_, .inl ⟨hnn, hch.children⟩⟩
  · rw [hnd y hy, if_neg (ne_of_node hs hn), hs]
  rw [hnd y hy, hch.parent]
  by_cases hyd : y = d
  · subst hyd
    rw [hn] at hs
    cases hs
    refine ⟨_, if_pos rfl, keeps_added (h.nodup y n hn) hk fun z => ?_⟩
    exact ⟨fun hz => ⟨fun hzc => hold hn (hzc ▸ hz), hz⟩, And.right⟩
  · exact ⟨j, (if_neg hyd).trans hs, h.keeps hs (hold hs) fun hdy => hyd (some.inj hdy).symm⟩

/-- Why a directory refuses a new node. -/
lemma refuses_of_cond (href : Refines s a)
    (hcn : (!n.dir || n.nlink == 0 || n.orphaned || (s.findChild n name).isSome) = true)
    (ha : a d = some (.dir false entry)) : entry name ≠ none := by
  obtain ⟨hdir, hl, hent⟩ := href.entry hn ha
  have hnl : n.nlink ≠ 0 := by simpa using hl
  have hor : n.orphaned = false := by
    cases ho : n.orphaned with
    | false => rfl
    | true => exact absurd (h.orphaned d n hn ho) hnl
  have hfnd : (s.findChild n name).isSome = true := by
    simpa [hdir, hor, hnl] using hcn
  obtain ⟨i, hi⟩ := isSome_iff_exists.1 hfnd
  obtain ⟨c, -, hc, hnm⟩ := findChild_some hi
  rw [(hent name c).2 ⟨hc, hnm⟩]
  exact some_ne_none c

/-- A node with a child is a directory. -/
lemma Ok.dir_of_child (hmem : c ∈ n.children) : n.dir = true := by
  cases hd : n.dir with
  | true => rfl
  | false =>
    rw [h.empty d n hn (.inl hd)] at hmem
    cases hmem

end

/-- A name that no child has, has no entry. -/
lemma entry_none (hent : ∀ name c, entry name = some c ↔ c ∈ n.children ∧ s.named name c)
    (hf : ∀ y ∈ n.children, ¬s.named name y) : entry name = none := by
  refine eq_none_iff_forall_not_mem.2 fun y hy => ?_
  obtain ⟨hmem, hnm⟩ := (hent name y).1 hy
  exact hf y hmem hnm

lemma ne_of_file {k : Content} (hk : a y = some (.file k)) (ha : a d = some (.dir g entry)) : y ≠ d := by
  rintro rfl
  rw [ha] at hk
  cases hk

/-- The abstract file system after a node is added. -/
lemma follows_withChild (h : Ok s x) (href : Refines s a) (ha : a d = some (.dir false entry))
    (hn : entry child.name = none) (hch : NewNode child d) (hobj : s.Shows child (some obj))
    (hnx : s.next < next) : Follows s a (update (a.place d child.name s.next) s.next (some obj)) next s.next
      child := by
  refine ⟨fun y k hy hk => ?_, fun y j g e hy hj he => ?_, ?_, fun y hy => ?_⟩
  · rw [update_of_ne hy, place_of_ne (ne_of_file hk ha), hk]
  · rw [update_of_ne hy]
    have hunused : ∀ nm z, e nm = some z → z ≠ s.next := by
      rintro nm _ hz rfl
      obtain ⟨-, -, hent⟩ := href.entry hj he
      obtain ⟨m, hm, -⟩ := h.child y j _ hj ((hent nm _).1 hz).1
      rw [h.unused.1] at hm
      cases hm
    by_cases hyd : y = d
    · subst hyd
      rw [ha] at he
      obtain ⟨rfl, rfl⟩ : false = g ∧ entry = e := by simpa using he
      refine ⟨update entry child.name (some s.next), ?_, fun nm z => ?_⟩
      · rw [place_dir ha, update_self]
      rw [hch.parent, update_apply]
      split
      · next hnm =>
        subst hnm
        rw [hn]
        simp [eq_comm]
      next hnm =>
      constructor
      · exact fun hz => .inl ⟨hunused nm z hz, hz⟩
      · rintro (⟨-, hz⟩ | ⟨-, -, hnm'⟩)
        · exact hz
        · exact absurd hnm' hnm
    · refine ⟨e, (place_of_ne hyd).trans he, fun nm z => ?_⟩
      rw [hch.parent]
      constructor
      · exact fun hz => .inl ⟨hunused nm z hz, hz⟩
      · rintro (⟨-, hz⟩ | ⟨hdy, -⟩)
        · exact hz
        · exact absurd (some.inj hdy).symm hyd
  · rw [update_self]
    exact hobj
  · rw [update_of_ne (by omega), place_of_ne ?_]
    · exact href.fresh y (by omega)
    · rintro rfl
      rw [href.fresh y (by omega)] at ha
      cases ha

section

variable (h : Ok s noRefs) (href : Refines s a)
include h href

/-- **`addChild`**: a new node and a new object, or no change. -/
lemma addChild_good (grow : Bool) (hhl : s.Held d) (hch : NewNode child d) (hobj : s.Shows child (some obj)) :
    (s.addChild d child grow = some (s, .null) ∧
      (grow = false ∨ ∀ entry, a d = some (.dir false entry) → entry child.name ≠ none)) ∨
    ∃ s' entry, s.addChild d child grow = some (s', .node s.next) ∧ Ok s' noRefs ∧
      Refines s' (update (a.place d child.name s.next) s.next (some obj)) ∧
      a d = some (.dir false entry) ∧ entry child.name = none ∧ a s.next = none := by
  obtain ⟨n, hn⟩ := h.get hhl
  obtain ⟨hnn, hhan⟩ := h.unused
  unfold addChild
  rw [hn]
  simp only [bind_eq_bind, bind_some]
  split
  · next hc => exact .inl ⟨rfl, .inr fun entry ha => refuses_of_cond h hn href hc ha⟩
  next hc =>
  simp only [Bool.or_eq_true, Bool.not_eq_true', beq_iff_eq, not_or, Bool.not_eq_false,
    Bool.not_eq_true, isSome_eq_false_iff, isNone_iff_eq_none] at hc
  obtain ⟨⟨⟨hdir, hnl⟩, -⟩, hfn⟩ := hc
  cases hres : n.reserve grow with
  | none => exact .inl ⟨rfl, .inl (reserve_none hres)⟩
  | some n₁ =>
    obtain ⟨k, rfl, hk, -⟩ := reserve_some hres (h.cap d n hn)
    obtain ⟨entry, ha, hent⟩ := (href.node d n hn).dir hdir
    have hg : (n.nlink == 0) = false := by simpa using hnl
    rw [hg] at ha
    have hf := findChild_none hfn
    have hemp := entry_none hent hf
    have hmv := withChild_moves h hn hk hch
    refine .inr ⟨s.withChild d { n with childCap := k } child, entry, ?_, ?_, ?_, ha, hemp,
      href.fresh _ (le_refl _)⟩
    · have hp : push { n with childCap := k } s.next =
          some { n with childCap := k, children := n.children ++ [s.next] } := if_pos hk
      simp only [hp]
      rfl
    · refine h.moves hmv ⟨?_, fun e he => ?_, ?_, fun _ => hch.children, fun ho => ?_,
        fun _ => hch.size⟩ ?_ fun _ _ => rfl
      · obtain ⟨r, hr, -⟩ := h.root
        exact ne_of_node hnn hr
      · rw [hch.parent] at he
        cases he
        exact ⟨(ne_of_node hnn hn).symm, n, hn, hdir, hnl, fun y hy _ => hf y hy⟩
      · rw [hch.parent]
        simp [hch.nlink]
      · rw [hch.orphaned] at ho
        cases ho
      · rw [hch.refcount, if_neg hch.nlink]
        change 2 = 1 + update s.handles s.next (s.handles s.next + 1) s.next + 0
        rw [update_self, hhan]
    · exact moves h href hmv (follows_withChild h href ha hemp hch hobj (lt_succ_self _))

/-- **`tmpfs_vfs_create`.** -/
lemma create_good {mem : Bool} (hhl : s.Held d) : Good s a (.create d name mem grow) := by
  cases mem with
  | false => exact .fail h href rfl rfl (.inl (.inl rfl))
  | true =>
    have hobj : s.Shows (.newFile name d) (some (.file .empty)) := rfl
    rcases addChild_good h href grow hhl (newFile_new name d) hobj with
      ⟨hc, hwhy⟩ | ⟨s', entry, hc, hok, href', ha, hn, hnew⟩
    · refine .fail h href hc rfl (hwhy.imp .inr fun hno r b hop => ?_)
      cases hop with
      | create ha hn _ => exact hno _ ha hn
    · exact ⟨s', _, _, hc, hok, href', .inl (.create ha hn hnew)⟩

/-- **`tmpfs_vfs_mkdir`.** -/
lemma mkdir_good {mem : Bool} (hhl : s.Held d) : Good s a (.mkdir d name mem grow) := by
  cases mem with
  | false => exact .fail h href rfl rfl (.inl (.inl rfl))
  | true =>
    have hobj : s.Shows (.newDir name d) (some (.dir false fun _ => none)) :=
      ⟨fun _ => none, rfl, fun _ _ => by simp [newDir]⟩
    rcases addChild_good h href grow hhl (newDir_new name d) hobj with
      ⟨hc, hwhy⟩ | ⟨s', entry, hc, hok, href', ha, hn, hnew⟩
    · refine .fail h href hc rfl (hwhy.imp .inr fun hno r b hop => ?_)
      cases hop with
      | mkdir ha hn _ => exact hno _ ha hn
    · exact ⟨s', _, _, hc, hok, href', .inl (.mkdir ha hn hnew)⟩

end

/-! ## Removal -/

/-- A child of a directory: its place there, its name and its node. -/
structure Child (s : Tmpfs) (d : Nat) (n : TmpfsNode) (i c : Nat) (m : TmpfsNode) (name : Path) : Prop where
  dir : s.node d = some n
  index : n.children[i]? = some c
  named : s.named name c
  node : s.node c = some m

/-- A child that was found. -/
lemma Ok.found (h : Ok s x) (hn : s.node d = some n) (hf : s.findChild n name = some i) :
    ∃ c m, Child s d n i c m name := by
  obtain ⟨c, hi, hmem, hnm⟩ := findChild_some hf
  obtain ⟨m, hm, -⟩ := h.child d n c hn hmem
  exact ⟨c, m, hn, hi, hnm, hm⟩

/-- A name is that of a child, or there is no such child or no directory. -/
lemma Ok.found_or (h : Ok s x) (hn : s.node d = some n) (name : Path) : (n.dir = false ∨ s.findChild n name = none) ∨
    n.dir = true ∧ ∃ i, s.findChild n name = some i ∧ ∃ c m, Child s d n i c m name := by
  cases hdir : n.dir with
  | false => exact .inl (.inl rfl)
  | true =>
    cases hf : s.findChild n name with
    | none => exact .inl (.inr rfl)
    | some i => exact .inr ⟨rfl, i, rfl, h.found hn hf⟩

/-- A node that is in no directory and is marked so. -/
def loosed (m : TmpfsNode) : TmpfsNode := { m with nlink := 0, parent := none, orphaned := true }

section

variable (hc : Child s d n i c m name)
include hc

lemma Child.mem : c ∈ n.children := mem_of_getElem? hc.index

lemma Child.childNamed_eq (hf : s.findChild n name = some i) : s.childNamed d name = some c := by
  simp [childNamed, hc.dir, hf, hc.index]

lemma Child.isDir_eq : s.isDir c = m.dir := by simp [isDir, hc.node]

variable (h : Ok s x)
include h

/-- A child is not its own directory. -/
lemma Child.ne : c ≠ d := by
  obtain ⟨m, hm, hp⟩ := h.child d n c hc.dir hc.mem
  exact (h.parent c m d hm hp).1.symm

lemma Child.linked : c ≠ 0 ∧ m.parent = some d ∧ m.nlink ≠ 0 := by
  obtain ⟨m', hm', hp⟩ := h.child d n c hc.dir hc.mem
  have hm := hc.node
  rw [hm] at hm'
  cases hm'
  refine ⟨?_, hp, fun hnl => ?_⟩
  · rintro rfl
    obtain ⟨r, hr, -, hrp⟩ := h.root
    rw [hm] at hr
    cases hr
    rw [hp] at hrp
    cases hrp
  · rw [((h.linked c m hm).1 hnl).2] at hp
    cases hp

lemma Child.detach_moves : ∃ s', s.detach d i = some (s', c) ∧ s'.handles = s.handles ∧ s'.next = s.next ∧
    (∀ y, y ≠ c → y ≠ d → s'.node y = s.node y) ∧
    s'.node d = some { n with children := swapRemove n.children i } ∧ Moves s s' c (loosed m) := by
  have hcd : c ≠ d := hc.ne h
  have hr : ∀ y, y ≠ c → y ≠ d → ((s.set d { n with children := swapRemove n.children i }).set c
      (loosed m)).node y = s.node y := fun y hyc hyd =>
    (update_of_ne hyc ..).trans (update_of_ne hyd ..)
  have hdir : ((s.set d { n with children := swapRemove n.children i }).set c (loosed m)).node d =
      some { n with children := swapRemove n.children i } := (update_of_ne hcd.symm ..).trans (update_self ..)
  refine ⟨(s.set d { n with children := swapRemove n.children i }).set c (loosed m), ?_, rfl, rfl,
    hr, hdir, ⟨update_self .., le_refl _, h.known c m hc.node, fun _ _ => rfl,
    fun y hyc hy => ?_, fun y j hyc hy => ?_, .inr ⟨m, hc.node, rfl, rfl⟩⟩⟩
  · have hget : (s.set d { n with children := swapRemove n.children i }).node c = some m :=
      (update_of_ne hcd ..).trans hc.node
    simp [detach, hc.dir, hc.index, hget, loosed]
  · exact (hr y hyc (ne_of_node hy hc.dir)).trans hy
  by_cases hyd : y = d
  · subst hyd
    rw [hc.dir] at hy
    cases hy
    exact ⟨_, hdir, h.keeps_removed hc.dir hc.index (by simp [loosed])⟩
  · exact ⟨j, (hr y hyc hyd).trans hy, h.keeps hy (fun hm => hyd (h.unique hy hm hc.dir hc.mem)) (by simp [loosed])⟩

variable (href : Refines s a)
include href

/-- The entries after the name of a child is cut: all but that child. -/
lemma Child.cut_entry {j : TmpfsNode} (hj : s.node y = some j) {e : Path → Option Nat}
    (he : a y = some (.dir g e)) :
    ∃ e', a.cut d name y = some (.dir g e') ∧ ∀ nm z, e' nm = some z ↔ z ≠ c ∧ e nm = some z := by
  obtain ⟨-, -, hent⟩ := href.entry hj he
  by_cases hyd : y = d
  · subst hyd
    rw [hc.dir] at hj
    cases hj
    refine ⟨update e name none, ?_, fun nm z => ?_⟩
    · rw [cut_dir he, update_self]
    rw [update_apply]
    split
    · next hnm =>
      subst hnm
      constructor
      · rintro ⟨⟩
      · rintro ⟨hne, hz⟩
        obtain ⟨hz1, hz2⟩ := (hent nm z).1 hz
        exact absurd (h.names y n hc.dir z hz1 c hc.mem nm hz2 hc.named) hne
    next hnm =>
    refine ⟨fun hz => ⟨?_, hz⟩, fun hz => hz.2⟩
    rintro rfl
    exact hnm (((named_iff hc.node).1 ((hent nm z).1 hz).2).symm.trans ((named_iff hc.node).1 hc.named))
  · refine ⟨e, (cut_of_ne hyd).trans he, fun nm z => ⟨fun hz => ⟨?_, hz⟩, fun hz => hz.2⟩⟩
    rintro rfl
    exact hyd (h.unique hj ((hent nm z).1 hz).1 hc.dir hc.mem)

/-- The abstract file system after a node is detached. -/
lemma Child.follows_detach (hnx : s.next ≤ next) : Follows s a ((a.cut d name).remove c) next c (loosed m) := by
  obtain ⟨entry, ha, -⟩ := (href.node d n hc.dir).dir (h.dir_of_child hc.dir hc.mem)
  refine ⟨fun y k hy hk => ?_, fun y j g e hy hj he => ?_, ?_, fun y hy => ?_⟩
  · rw [remove_of_ne hy, cut_of_ne (ne_of_file hk ha), hk]
  · rw [remove_of_ne hy]
    simp only [loosed, reduceCtorEq, false_and, or_false]
    exact hc.cut_entry h href hj he
  · have hcut : a.cut d name c = a c := cut_of_ne (hc.ne h)
    have hshw := href.node c m hc.node
    cases hmd : m.dir with
    | false =>
      have hf := hshw.file hmd
      rw [remove_file (hcut.trans hf), hcut]
      unfold Shows
      rw [if_neg (by simp [loosed, hmd])]
      exact hf
    | true =>
      obtain ⟨entry', ha', hent'⟩ := hshw.dir hmd
      rw [remove_dir (hcut.trans ha'), update_self]
      unfold Shows
      rw [if_pos (by exact hmd)]
      exact ⟨entry', rfl, hent'⟩
  · have hyc := h.known c m hc.node
    have hyd := h.known d n hc.dir
    rw [remove_of_ne (by omega), cut_of_ne (by omega)]
    exact href.fresh y (by omega)

end

/-- A directory that has no child of a name, or a file, has no entry of that name. -/
lemma no_entry (href : Refines s a) (hn : s.node d = some n) (hnn : n.dir = false ∨ s.findChild n name = none)
    (ha : a d = some (.dir g entry)) (hc : entry name = some c) : False := by
  obtain ⟨hdir, -, hent⟩ := href.entry hn ha
  obtain hf | hfn := hnn
  · rw [hdir] at hf
    cases hf
  · obtain ⟨hmem, hnm⟩ := (hent name c).1 hc
    exact findChild_none hfn c hmem hnm

/-- The entry of a child that was found. -/
lemma entry_of_find (href : Refines s a) (hn : s.node d = some n) (hdir : n.dir = true)
    (hmem : c ∈ n.children) (hnm : s.named name c) :
    ∃ entry, a d = some (.dir (n.nlink == 0) entry) ∧ entry name = some c := by
  obtain ⟨entry, ha, hent⟩ := (href.node d n hn).dir hdir
  exact ⟨entry, ha, (hent name c).2 ⟨hmem, hnm⟩⟩

/-- Dropping the one reference a call holds leaves the calls none. -/
lemma Ok.put_last (h : Ok s (update noRefs c 1)) :
    ∃ s', s.put c = some s' ∧ Ok s' noRefs ∧ ∀ a, Refines s a → Refines s' a := by
  obtain ⟨s', hput, hok', hrfn⟩ := h.put (c := c) (by simp)
  have hz : update (update noRefs c 1) c (update noRefs c 1 c - 1) = noRefs := by
    rw [update_idem, update_self]
    exact update_eq_self c noRefs
  exact ⟨s', hput, hz ▸ hok', hrfn⟩

section

variable (h : Ok s noRefs) (href : Refines s a)
include h

/-- A detached node keeps the invariant, with one reference to give up. -/
lemma Ok.detach (hc : Child s d n i c m name) (hemp : m.children = []) (hmv : Moves s s' c (loosed m))
    (hhan : s'.handles = s.handles) : Ok s' (update noRefs c 1) := by
  obtain ⟨hrt, -, hnl⟩ := hc.linked h
  have hm := hc.node
  refine h.moves hmv ⟨hrt, fun e he => (by cases he), ⟨fun _ => rfl, fun _ => rfl⟩,
    fun _ => hemp, fun _ => rfl, fun hdir => h.size c m hm hdir⟩ ?_ fun y hy => update_of_ne hy ..
  have hr := h.refs c m hm
  rw [if_neg hnl] at hr
  rw [update_self, hhan]
  change m.refcount = 0 + s.handles c + 1
  change m.refcount = 1 + s.handles c + 0 at hr
  omega

include href

/-- **Removing a child** that has no children. -/
lemma remove_good (hc : Child s d n i c m name) (hemp : m.children = []) :
    ∃ s₁ s', s.detach d i = some (s₁, c) ∧ s₁.put c = some s' ∧ Ok s' noRefs ∧
      Refines s' ((a.cut d name).remove c) := by
  obtain ⟨s₁, hdet, hhan, hnx, -, -, hmv⟩ := hc.detach_moves h
  have href1 := moves h href hmv (hc.follows_detach h href (le_of_eq hnx.symm))
  obtain ⟨s', hput, hok', hrfn⟩ := (h.detach hc hemp hmv hhan).put_last
  exact ⟨s₁, s', hdet, hput, hok', hrfn _ href1⟩

/-- **`tmpfs_vfs_unlink`.** -/
lemma unlink_good (hhl : s.Held d) (hs : s.Safe (.unlink d name)) : Good s a (.unlink d name) := by
  obtain ⟨n, hn⟩ := h.get hhl
  obtain hno | ⟨hdir, i, hf, c, m, hc⟩ := h.found_or hn name
  · refine .fail h href ?_ rfl (.inr fun r b hop => ?_)
    · obtain hdir | hf := hno
      · simp [call, unlink, hn, hdir]
      · simp [call, unlink, hn, hf]
    · cases hop with
      | unlink ha he _ => exact no_entry href hn hno ha he
  have hfl : m.dir = false := hc.isDir_eq ▸ hs c (hc.childNamed_eq hf)
  obtain ⟨s1, s', hdet, hput, hok', href'⟩ := remove_good h href hc (h.empty c m hc.node (.inl hfl))
  obtain ⟨entry, ha, he⟩ := entry_of_find href hn hdir hc.mem hc.named
  have hobj := (href.node c m hc.node).file hfl
  refine ⟨s', .code 0, a.cut d name, ?_, hok', ?_, .inl (.unlink ha he hobj)⟩
  · simp [call, unlink, hn, hdir, hf, hdet, hput]
  · have hcut : a.cut d name c = a c := cut_of_ne (hc.ne h)
    rwa [remove_file (hcut.trans hobj)] at href'

/-- **`tmpfs_vfs_rmdir`.** -/
lemma rmdir_good (hhl : s.Held d) (hs : s.Safe (.rmdir d name)) : Good s a (.rmdir d name) := by
  obtain ⟨n, hn⟩ := h.get hhl
  obtain hno | ⟨hdir, i, hf, c, m, hc⟩ := h.found_or hn name
  · refine .fail h href ?_ rfl (.inr fun r b hop => ?_)
    · obtain hdir | hf := hno
      · simp [call, rmdir, hn, hdir]
      · simp [call, rmdir, hn, hf]
    · cases hop with
      | rmdir ha he _ _ => exact no_entry href hn hno ha he
  have hi := hc.index
  have hm := hc.node
  have hmd : m.dir = true := hc.isDir_eq ▸ hs c (hc.childNamed_eq hf)
  obtain ⟨entry, ha, he⟩ := entry_of_find href hn hdir hc.mem hc.named
  obtain ⟨entry', ha', hent'⟩ := (href.node c m hm).dir hmd
  by_cases hemp : m.children = []
  · obtain ⟨s1, s', hdet, hput, hok', href'⟩ := remove_good h href hc hemp
    refine ⟨s', .code 0, _, ?_, hok', href', .inl (.rmdir ha he ha' fun nm => ?_)⟩
    · simp [call, rmdir, hn, hdir, hf, hi, hm, hemp, hdet, hput]
    · exact entry_none hent' (by simp [hemp])
  refine .fail h href ?_ rfl (.inr fun r b hop => ?_)
  · simp [call, rmdir, hn, hf, hi, hm, length_pos_of_ne_nil hemp]
  cases hop with
  | rmdir hb hbc hb' hnn =>
    rw [ha] at hb
    obtain ⟨-, rfl⟩ : _ ∧ entry = _ := by simpa using hb
    rw [he] at hbc
    cases hbc
    rw [ha'] at hb'
    obtain ⟨-, rfl⟩ : _ ∧ entry' = _ := by simpa using hb'
    obtain ⟨y, hy⟩ := exists_mem_of_ne_nil _ hemp
    obtain ⟨k, -, hk⟩ := h.named_of_mem hm hy
    have := (hent' k.name y).2 ⟨hy, hk⟩
    rw [hnn] at this
    cases this

end

/-! ## Renaming -/

variable {od nd : Nat} {o : TmpfsNode} {oldname newname : Path}

/-- A node with a new name and directory. -/
def renamed (m : TmpfsNode) (nd : Nat) (newname : Path) : TmpfsNode :=
  { m with name := newname, parent := some nd }

/-- The directory that a node is moved to, and its name there. -/
structure Target (s : Tmpfs) (nd : Nat) (n : TmpfsNode) (c : Nat) (newname : Path) : Prop where
  node : s.node nd = some n
  dir : n.dir = true
  nlink : n.nlink ≠ 0
  ne : c ≠ nd
  length : newname.length ≤ 255

section

variable (h : Ok s x) (hc : Child s od o i c m oldname) (ht : Target s nd n c newname)
include h hc ht

lemma move_moves (hcap : od = nd ∨ n.children.length < n.childCap) :
    ∃ s', s.move od (some i) nd newname = some s' ∧ s'.handles = s.handles ∧ s'.next = s.next ∧
      Moves s s' c (renamed m nd newname) := by
  have hco : c ≠ od := hc.ne h
  have ho := hc.dir
  have hi := hc.index
  have hn := ht.node
  have hnd := h.nodup od o ho
  have hlen : newname.take 255 = newname := take_of_length_le ht.length
  let o1 : TmpfsNode := { o with children := swapRemove o.children i }
  let s1 : Tmpfs := s.set c (renamed m nd newname)
  have ho1 : s1.node od = some o := (update_of_ne hco.symm ..).trans ho
  -- the target directory after the node has left its own, which may be the same
  obtain ⟨l, hget, hl, hlm, hlc⟩ : ∃ l, (s1.set od o1).node nd = some { n with children := l } ∧
      l.Nodup ∧ (∀ z, z ∈ l ↔ z ≠ c ∧ z ∈ n.children) ∧ l.length < n.childCap := by
    by_cases hs : od = nd
    · subst hs
      rw [ho] at hn
      obtain rfl := some.inj hn
      refine ⟨_, update_self .., nodup_swapRemove hi hnd, fun z => mem_swapRemove hi hnd, ?_⟩
      have := length_swapRemove hi
      have := h.cap od o ho
      omega
    · have hfr : c ∉ n.children := fun hmem => hs (h.unique ho hc.mem hn hmem)
      refine ⟨n.children, ?_, h.nodup nd n hn, fun z => ?_, hcap.resolve_left hs⟩
      · exact (update_of_ne (Ne.symm hs) ..).trans ((update_of_ne ht.ne.symm ..).trans hn)
      · exact ⟨fun hz => ⟨fun hzc => hfr (hzc ▸ hz), hz⟩, And.right⟩
  have hp : push { n with children := l } c = some { n with children := l ++ [c] } := if_pos hlc
  let s' : Tmpfs := (s1.set od o1).set nd { n with children := l ++ [c] }
  have hr : ∀ y, y ≠ od → y ≠ nd → s'.node y = s1.node y := fun y hyo hyn =>
    (update_of_ne hyn ..).trans (update_of_ne hyo ..)
  refine ⟨s', ?_, rfl, rfl, ⟨?_, le_refl _, h.known c m hc.node, fun _ _ => rfl,
    fun y hyc hy => ?_, fun y j hyc hy => ?_, .inr ⟨m, hc.node, rfl, rfl⟩⟩⟩
  · simp only [move, ho, hi, hc.node, hlen, bind_eq_bind, bind_some]
    change (s1.node od).bind _ = _
    rw [ho1]
    change ((s1.set od o1).node nd).bind _ = _
    rw [hget]
    change (push { n with children := l } c).bind _ = _
    rw [hp]
    rfl
  · rw [hr c hco ht.ne]
    exact update_self ..
  · rw [hr y (ne_of_node hy ho) (ne_of_node hy hn)]
    exact (update_of_ne hyc ..).trans hy
  · by_cases hyn : y = nd
    · subst hyn
      rw [hn] at hy
      cases hy
      exact ⟨_, update_self .., keeps_added hl hlc hlm⟩
    have hto : some nd ≠ some y := fun hdy => hyn (some.inj hdy).symm
    by_cases hyo : y = od
    · subst hyo
      rw [ho] at hy
      cases hy
      exact ⟨o1, (update_of_ne hyn ..).trans (update_self ..), h.keeps_removed ho hi hto⟩
    · refine ⟨j, ?_, h.keeps hy (fun hmem => hyo (h.unique hy hmem ho hc.mem)) hto⟩
      rw [hr y hyo hyn]
      exact (update_of_ne hyc ..).trans hy

variable (href : Refines s a) (hf : ∀ y ∈ n.children, y ≠ c → ¬s.named newname y)
include href hf

/-- The abstract file system after a node is moved. -/
lemma follows_move (hnx : s.next ≤ next) :
    Follows s a ((a.cut od oldname).place nd newname c) next c (renamed m nd newname) := by
  obtain ⟨eo, hao, -⟩ := (href.node od o hc.dir).dir (h.dir_of_child hc.dir hc.mem)
  obtain ⟨en, han, hen⟩ := (href.node nd n ht.node).dir ht.dir
  refine ⟨fun y k hy hk => ?_, fun y j g e hy hj he => ?_, ?_, fun y hy => ?_⟩
  · rw [place_of_ne (ne_of_file hk han), cut_of_ne (ne_of_file hk hao), hk]
  · obtain ⟨e1, he1, hent⟩ := hc.cut_entry h href hj he
    by_cases hyn : y = nd
    · subst hyn
      refine ⟨update e1 newname (some c), ?_, fun nm z => ?_⟩
      · rw [place_dir he1, update_self]
      rw [update_apply]
      split
      · next hnm =>
        subst hnm
        constructor
        · exact fun hz => .inr ⟨rfl, (some.inj hz).symm, rfl⟩
        rintro (⟨hzc, hz⟩ | ⟨-, hz, -⟩)
        · rw [han] at he
          obtain ⟨-, rfl⟩ : _ ∧ en = e := by simpa using he
          obtain ⟨hz1, hz2⟩ := (hen nm z).1 hz
          exact absurd hz2 (hf z hz1 hzc)
        · rw [hz]
      · next hnm =>
        rw [hent]
        constructor
        · exact .inl
        · rintro (hz | ⟨-, -, hnm'⟩)
          · exact hz
          · exact absurd hnm' hnm
    · refine ⟨e1, (place_of_ne hyn).trans he1, fun nm z => ?_⟩
      rw [hent]
      constructor
      · exact .inl
      · rintro (hz | ⟨hdy, -⟩)
        · exact hz
        · exact absurd (some.inj hdy).symm hyn
  · rw [place_of_ne ht.ne, cut_of_ne (hc.ne h)]
    exact (href.node c m hc.node).congr rfl rfl rfl (fun _ => ⟨rfl, rfl⟩) fun _ _ _ => rfl
  · have hyo := h.known od o hc.dir
    have hyn := h.known nd n ht.node
    rw [place_of_ne (by omega), cut_of_ne (by omega)]
    exact href.fresh y (by omega)

/-- **Moving a child** to a linked directory where its new name is free. -/
lemma move_good (hcap : od = nd ∨ n.children.length < n.childCap) :
    ∃ s', s.move od (some i) nd newname = some s' ∧ Ok s' x ∧
      Refines s' ((a.cut od oldname).place nd newname c) := by
  have hm := hc.node
  obtain ⟨hr, -, hnl⟩ := hc.linked h
  obtain ⟨s', hmo, hhan, hnx, hmv⟩ := move_moves h hc ht hcap
  refine ⟨s', hmo, ?_, moves h href hmv (follows_move h hc ht href hf (le_of_eq hnx.symm))⟩
  refine h.moves hmv ⟨hr, fun e he => ?_, ?_, fun hk => ?_, fun hor => ?_, fun hd => ?_⟩ ?_ fun _ _ => rfl
  · cases he
    exact ⟨ht.ne.symm, n, ht.node, ht.dir, ht.nlink, hf⟩
  · simp [renamed, hnl]
  · exact h.empty c m hm hk
  · exact h.orphaned c m hm hor
  · exact h.size c m hm hd
  · rw [hhan]
    exact h.refs c m hm

end

/-- What is below a node in the abstract file system is below it in the table. -/
lemma under_of_below (h : Ok s x) (href : Refines s a) {p q : Nat} (hp : (s.node p).isSome)
    (hbel : a.Below p q) : s.Under p q ∧ (s.node q).isSome := by
  induction hbel with
  | refl => exact ⟨.refl, hp⟩
  | tail _ hst ih =>
    obtain ⟨hund, hs⟩ := ih
    obtain ⟨k, hk⟩ := isSome_iff_exists.1 hs
    obtain ⟨g, entry, nm, ha, hent⟩ := hst
    obtain ⟨-, -, he⟩ := href.entry hk ha
    obtain ⟨hmem, -⟩ := (he nm _).1 hent
    obtain ⟨m, hm, -⟩ := h.child _ k _ hk hmem
    exact ⟨.tail hund ⟨k, hk, hmem⟩, isSome_iff_exists.2 ⟨m, hm⟩⟩

section

variable (h : Ok s noRefs) (href : Refines s a)
include h href

/-- A rename to a name that is not taken. -/
lemma renameFree_good (hc : Child s od o i c m oldname) (ht : Target s nd n c newname)
    (hf : ∀ y ∈ n.children, ¬s.named newname y) (hres : n.reserve grow = some n₁) :
    ∃ s', (s.set nd n₁).move od (some i) nd newname = some s' ∧ Ok s' noRefs ∧
      Refines s' ((a.cut od oldname).place nd newname c) := by
  have hn := ht.node
  obtain ⟨k, rfl, hk, hle⟩ := reserve_some hres (h.cap nd n hn)
  have hs : SamePlace n { n with childCap := k } := ⟨rfl, rfl, rfl, rfl, rfl, hle, rfl, fun _ => rfl⟩
  have hok1 : Ok (s.touch nd { n with childCap := k } s.handles) noRefs :=
    h.touch hn hs s.handles (h.refs nd n hn) fun _ _ => rfl
  have href1 : Refines (s.touch nd { n with childCap := k } s.handles) a :=
    href.touch_hidden hn hs (h.known nd n hn) fun _ => ⟨rfl, rfl⟩
  obtain ⟨o1, ho1, hpl⟩ := touch_new s.handles hn hs hc.dir
  obtain ⟨m1, hm1, -⟩ := touch_new s.handles hn hs hc.node
  exact move_good hok1 ⟨ho1, hpl.children ▸ hc.index, (touch_named s.handles hn hs).trans hc.named, hm1⟩
    ⟨touch_self, ht.dir, ht.nlink, ht.ne, ht.length⟩ href1
    (fun y hy _ hy' => hf y hy ((touch_named s.handles hn hs).symm.trans hy')) (.inr hk)

/-- A rename over a node without children. -/
lemma renameOver_good {j t : Nat} {k : TmpfsNode} (hfn : s.findChild o oldname = some i)
    (hc : Child s od o i c m oldname) (ht : Target s nd n c newname) (hc' : Child s nd n j t k newname)
    (hemp : k.children = []) (hne : (od, oldname) ≠ (nd, newname)) :
    ∃ s₁ o₁ s₂ s', s.detach nd j = some (s₁, t) ∧ s₁.node od = some o₁ ∧
      s₁.move od (if od = nd then s₁.findChild o₁ oldname else some i) nd newname = some s₂ ∧
      s₂.put t = some s' ∧ Ok s' noRefs ∧
      Refines s' ((((a.cut nd newname).remove t).cut od oldname).place nd newname c) := by
  have ho := hc.dir
  have hn := ht.node
  have hj := hc'.index
  have hct : c ≠ t := by
    rintro rfl
    obtain rfl := h.unique ho hc.mem hn hc'.mem
    exact hne (by rw [← (named_iff hc.node).1 hc.named, (named_iff hc.node).1 hc'.named])
  have hot : od ≠ t := by
    rintro rfl
    have hmem := hc.mem
    rw [hc'.node] at ho
    cases ho
    rw [hemp] at hmem
    cases hmem
  obtain ⟨s₁, hdet, hhan, hnx, hr, hnd, hmv⟩ := hc'.detach_moves h
  have hok1 := h.detach hc' hemp hmv hhan
  have href1 := moves h href hmv (hc'.follows_detach h href (le_of_eq hnx.symm))
  have hnm1 : s₁.named oldname c := by
    rw [hmv.named hct]
    exact hc.named
  have hf : ∀ y ∈ swapRemove n.children j, y ≠ c → ¬s₁.named newname y := by
    intro y hy _ hy'
    obtain ⟨hyt, hyn⟩ := (mem_swapRemove hj (h.nodup nd n hn)).1 hy
    rw [hmv.named hyt] at hy'
    exact hyt (h.names nd n hn y hyn t hc'.mem newname hy' hc'.named)
  have hrm : (swapRemove n.children j).length < n.childCap := by
    have := length_swapRemove hj
    have := h.cap nd n hn
    omega
  -- where the source is after the target is gone
  obtain ⟨o₁, i1, ho1, hidx, hi1⟩ : ∃ o₁ i1, s₁.node od = some o₁ ∧
      (if od = nd then s₁.findChild o₁ oldname else some i) = some i1 ∧ o₁.children[i1]? = some c := by
    by_cases hs : od = nd
    · subst hs
      have hmem := hc.mem
      rw [hn] at ho
      cases ho
      have hc1 : c ∈ swapRemove n.children j := (mem_swapRemove hj (h.nodup od n hn)).2 ⟨hct, hmem⟩
      obtain ⟨i1, hi1⟩ := findChild_isSome (n := { n with children := swapRemove n.children j }) hc1 hnm1
      refine ⟨_, i1, hnd, (if_pos rfl).trans hi1, ?_⟩
      obtain ⟨y, hy, hym, hynamed⟩ := findChild_some hi1
      rw [hy, hok1.names od _ hnd y hym c hc1 oldname hynamed hnm1]
    · exact ⟨o, i, (hr od hot hs).trans ho, if_neg hs, hc.index⟩
  obtain ⟨m₁, hm1, -⟩ := hok1.child od o₁ c ho1 (mem_of_getElem? hi1)
  obtain ⟨s₂, hmo, hok2, href2⟩ := move_good hok1 ⟨ho1, hi1, hnm1, hm1⟩
    ⟨hnd, ht.dir, ht.nlink, ht.ne, ht.length⟩ href1 hf (.inr hrm)
  obtain ⟨s', hput, hok', hrfn⟩ := hok2.put_last
  exact ⟨s₁, o₁, s₂, s', hdet, ho1, hidx ▸ hmo, hput, hok', hrfn _ href2⟩

/-- **`tmpfs_vfs_rename`.** -/
lemma rename_good (hod : s.Held od) (hnd : s.Held nd) (hlen : newname.length ≤ 255)
    (hs : s.Safe (.rename od oldname nd newname grow)) : Good s a (.rename od oldname nd newname grow) := by
  obtain ⟨o, ho⟩ := h.get hod
  obtain ⟨n, hn⟩ := h.get hnd
  cases hfn : s.findChild o oldname with
  | none =>
    refine .fail h href ?_ rfl (.inr fun r b hop => ?_)
    · simp [call, rename, ho, hn, hfn]
    · cases hop with
      | renameSelf ha hc | rename ha hc | renameOver ha hc => exact no_entry href ho (.inr hfn) ha hc
  | some i =>
    obtain ⟨c, m, hc⟩ := h.found ho hfn
    obtain ⟨hne, hund, ⟨n', hn', hdir, hl⟩, htys⟩ := hs c (hc.childNamed_eq hfn)
    rw [hn] at hn'
    cases hn'
    have ht : Target s nd n c newname := ⟨hn, hdir, hl, fun heq => hund (heq ▸ .refl), hlen⟩
    have hm := hc.node
    have hbel : ¬a.Below c nd := fun hb =>
      hund (under_of_below h href (isSome_iff_exists.2 ⟨m, hm⟩) hb).1
    obtain ⟨eo, hao, hco⟩ := entry_of_find href ho (h.dir_of_child ho hc.mem) hc.mem hc.named
    obtain ⟨en, han, hen⟩ := (href.node nd n hn).dir hdir
    rw [show (n.nlink == 0) = false by simpa using hl] at han
    cases hf' : s.findChild n newname with
    | none =>
      have hfr := findChild_none hf'
      cases hres : n.reserve grow with
      | none =>
        refine .fail h href ?_ rfl (.inl (reserve_none hres))
        simp [call, rename, ho, hn, hfn, hf', hres]
      | some n₁ =>
        obtain ⟨s', hmv, hok', href'⟩ := renameFree_good h href hc ht hfr hres
        refine ⟨s', .code 0, _, ?_, hok', href', .inl (.rename hao hco han hne hbel (entry_none hen hfr))⟩
        simp [call, rename, ho, hn, hfn, hf', hres, hmv]
    | some j =>
      obtain ⟨t, mt, hc'⟩ := h.found hn hf'
      have hj := hc'.index
      have hmt := hc'.node
      have hty : mt.dir = m.dir := by
        rw [← hc'.isDir_eq, ← hc.isDir_eq]
        exact htys t (hc'.childNamed_eq hf')
      have het : en newname = some t := (hen newname t).2 ⟨hc'.mem, hc'.named⟩
      by_cases hemp : mt.children = []
      · obtain ⟨s1, o1, s2, s', hdet, ho1, hmv, hput, hok', href'⟩ :=
          renameOver_good h href hfn hc ht hc' hemp hne
        refine ⟨s', .code 0, _, ?_, hok', href', .inl (.renameOver hao hco han hne hbel het ?_)⟩
        · simp [call, rename, ho, hn, hfn, hf', hj, hmt, hemp, hdet, ho1, hmv, hput]
        cases hmd : m.dir with
        | false =>
          exact .inl ⟨_, _, (href.node c m hm).file hmd, (href.node t mt hmt).file (hty.trans hmd)⟩
        | true =>
          obtain ⟨ec, hac, -⟩ := (href.node c m hm).dir hmd
          obtain ⟨et, hat, het⟩ := (href.node t mt hmt).dir (hty.trans hmd)
          exact .inr ⟨_, ec, _, et, hac, hat, fun nm => entry_none het (by simp [hemp])⟩
      · obtain ⟨y, hy⟩ := exists_mem_of_ne_nil _ hemp
        have hmtd := h.dir_of_child hmt hy
        obtain ⟨et, hat, hett⟩ := (href.node t mt hmt).dir hmtd
        obtain ⟨k, -, hk⟩ := h.named_of_mem hmt hy
        have hy' := (hett k.name y).2 ⟨hy, hk⟩
        refine .fail h href ?_ rfl (.inr fun r b hop => ?_)
        · simp [call, rename, ho, hn, hfn, hf', hj, hmt, hmtd, length_pos_of_ne_nil hemp]
        cases hop with
        | renameSelf _ _ => exact hne rfl
        | rename _ _ hb _ _ hnn =>
          rw [han] at hb
          obtain rfl : en = _ := by simpa using hb
          rw [het] at hnn
          cases hnn
        | renameOver _ _ hb _ _ ht' hrep =>
          rw [han] at hb
          obtain rfl : en = _ := by simpa using hb
          rw [het] at ht'
          cases ht'
          obtain ⟨_, _, -, hf⟩ | ⟨_, _, _, _, -, hd, hnn⟩ := hrep
          · rw [hat] at hf
            cases hf
          · rw [hat] at hd
            obtain ⟨-, rfl⟩ : _ ∧ et = _ := by simpa using hd
            rw [hnn] at hy'
            cases hy'

end

end OS01.Fs.Tmpfs
