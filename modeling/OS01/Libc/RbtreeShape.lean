import OS01.Libc.Rbtree

/-!
# The shape of a red-black tree in memory

`Shape m k t` says that the memory `m` holds the tree `plug k t`: the node at each place has the pointers
to its children and to its parent and the colour that the place has, and no node occurs twice. Since the
loops of the code go up and down along parent and child pointers, the tree is given as a path `k` and the
subtree `t` at its end, and may be read with any other end (`Shape.up`, `Shape.down`). What the code does
to the pointers becomes a statement about the shape: painting a node, a rotation (`Shape.rotate`), and
another pointer at the end of a path (`HoldsPath.assign`).
-/

namespace OS01.Libc

open Function RbtreeNode Lib Lib.ColorTree

variable {ν : Type*}

/-- The fields of a node with `a` on side `d` and `b` on the other. -/
def RbtreeNode.fork (d : Side) (a b parent : Option ν) (c : Color) : RbtreeNode ν :=
  match d with
  | .left => ⟨a, b, parent, c⟩
  | .right => ⟨b, a, parent, c⟩

namespace RbtreeNode

variable {d : Side} {a b q : Option ν} {c : Color}

@[simp]
lemma child_fork : (fork d a b q c).child d = a := by cases d <;> rfl

@[simp]
lemma child_flip_fork : (fork d a b q c).child d.flip = b := by cases d <;> rfl

@[simp]
lemma parent_fork : (fork d a b q c).parent = q := by cases d <;> rfl

@[simp]
lemma color_fork : (fork d a b q c).color = c := by cases d <;> rfl

@[simp]
lemma setChild_fork (p : Option ν) : (fork d a b q c).setChild d p = fork d p b q c := by
  cases d <;> rfl

@[simp]
lemma setChild_flip_fork (p : Option ν) : (fork d a b q c).setChild d.flip p = fork d a p q c := by
  cases d <;> rfl

lemma fork_with_parent (p : Option ν) :
    { fork d a b q c with parent := p } = fork d a b p c := by cases d <;> rfl

end RbtreeNode

/-- The memory holds a tree whose root has the given parent. -/
def Holds (h : ν → RbtreeNode ν) : Option ν → ColorTree ν → Prop
  | _, .leaf => True
  | q, .node c l x r => h x = ⟨l.root, r.root, q, c⟩ ∧ Holds h (some x) l ∧ Holds h (some x) r

/-- The node above the end of a path. -/
def above (k : List (Frame ν)) : Option ν := k.head?.map Frame.label

/-- The address of the pointer at the end of a path. -/
def linkOf : List (Frame ν) → Link ν
  | [] => .root
  | f :: _ => .child f.label f.side

/-- The memory holds a path with the given pointer at its end. -/
def HoldsPath (h : ν → RbtreeNode ν) (root : Option ν) : List (Frame ν) → Option ν → Prop
  | [], p => root = p
  | f :: k, p =>
    h f.label = .fork f.side p f.other.root (above k) f.color ∧ Holds h (some f.label) f.other ∧
      HoldsPath h root k (some f.label)

/-- The nodes of a path. -/
def pathNodes (k : List (Frame ν)) : List ν := before k ++ after k

/-- The memory holds the tree. -/
structure Shape (m : Rbtree ν) (k : List (Frame ν)) (t : ColorTree ν) : Prop where
  path : HoldsPath m.node m.rbNode k t.root
  tree : Holds m.node (above k) t
  nodup : (plug k t).toList.Nodup

/-- The comparison function compares the keys of the nodes. -/
def Compares {κ : Type*} [LinearOrder κ] (cmp : ν → ν → Int) (key : ν → κ) : Prop :=
  ∀ x y, (cmp x y < 0 ↔ key x < key y) ∧ (0 < cmp x y ↔ key y < key x)

/-- The memory holds a red-black tree with a black root, in the order of the keys. -/
structure Valid {κ : Type*} [LinearOrder κ] (key : ν → κ) (m : Rbtree ν) (t : ColorTree ν) : Prop where
  shape : Shape m [] t
  redBlack : ∃ n, RedBlack t n
  black : t.color = .black
  sorted : t.toList.Pairwise (key · < key ·)

variable {h h' : ν → RbtreeNode ν} {q p root : Option ν} {c : Color} {a b t : ColorTree ν} {x y : ν}
  {d : Side} {k : List (Frame ν)} {f : Frame ν} {m : Rbtree ν}

lemma holds_fork : Holds h q (fork d c a x b) ↔
    h x = .fork d a.root b.root q c ∧ Holds h (some x) a ∧ Holds h (some x) b := by
  cases d with
  | left => exact Iff.rfl
  | right => exact and_congr_right fun _ => and_comm

lemma Holds.congr (hh : ∀ y ∈ t.toList, h' y = h y) (ht : Holds h q t) : Holds h' q t := by
  induction t generalizing q with
  | leaf => trivial
  | node c l y r ihl ihr =>
    obtain ⟨hy, hl, hr⟩ := ht
    refine ⟨?_, ihl (fun z hz => hh z ?_) hl, ihr (fun z hz => hh z ?_) hr⟩
    · rw [hh y (by simp [toList]), hy]
    all_goals simp [toList, hz]

lemma mem_pathNodes_cons :
    y ∈ pathNodes (f :: k) ↔ y = f.label ∨ y ∈ f.other.toList ∨ y ∈ pathNodes k := by
  cases hs : f.side <;> simp [pathNodes, before, after, hs] <;> tauto

lemma HoldsPath.congr (hh : ∀ y ∈ pathNodes k, h' y = h y) (hk : HoldsPath h root k p) :
    HoldsPath h' root k p := by
  induction k generalizing p with
  | nil => exact hk
  | cons f k ih =>
    obtain ⟨hf, hoth, hk⟩ := hk
    refine ⟨?_, hoth.congr fun y hy => hh y ?_, ih (fun y hy => hh y ?_) hk⟩
    · rw [hh f.label (mem_pathNodes_cons.2 (.inl rfl)), hf]
    · exact mem_pathNodes_cons.2 (.inr (.inl hy))
    · exact mem_pathNodes_cons.2 (.inr (.inr hy))

lemma HoldsPath.deref (hk : HoldsPath m.node m.rbNode k p) : m.deref (linkOf k) = p := by
  cases k with
  | nil => exact hk
  | cons f k =>
    show (m.node f.label).child f.side = p
    rw [hk.1, child_fork]

/-- The nodes of the tree are those of the path and those of the subtree. -/
lemma nodup_plug_iff : (plug k t).toList.Nodup ↔
    (pathNodes k).Nodup ∧ t.toList.Nodup ∧ ∀ y ∈ t.toList, y ∉ pathNodes k := by
  rw [toList_plug, List.append_assoc, pathNodes]
  simp only [List.nodup_append, List.mem_append]
  constructor
  · rintro ⟨h1, ⟨h2, h3, h4⟩, h5⟩
    exact ⟨⟨h1, h3, fun y hy z hz => h5 y hy z (.inr hz)⟩, h2, fun y hy hor =>
      hor.elim (fun hb => h5 y hb y (.inl hy) rfl) fun ha => h4 y hy y ha rfl⟩
  · rintro ⟨⟨h1, h2, h3⟩, h4, h5⟩
    refine ⟨h1, ⟨h4, h2, fun y hy z hz hyz => h5 y hy (.inr (hyz ▸ hz))⟩, fun y hy z hz hyz => ?_⟩
    obtain hz | hz := hz
    · exact h5 z hz (.inl (hyz ▸ hy))
    · exact h3 y hy z hz hyz

/-- The nodes of a fork. -/
lemma nodup_fork_iff : (fork d c a x b).toList.Nodup ↔
    a.toList.Nodup ∧ b.toList.Nodup ∧ x ∉ a.toList ∧ x ∉ b.toList ∧ ∀ y ∈ a.toList, y ∉ b.toList := by
  rw [toList_fork]
  cases d <;> grind [Side.join]

lemma mem_fork : y ∈ (fork d c a x b).toList ↔ y = x ∨ y ∈ a.toList ∨ y ∈ b.toList := by
  cases d <;> simp [Side.join] <;> tauto

lemma nodup_pathNodes_cons (hn : (pathNodes (f :: k)).Nodup) :
    (f.label ∉ f.other.toList ∧ f.label ∉ pathNodes k) ∧ (∀ y ∈ f.other.toList, y ∉ pathNodes k) ∧
      (pathNodes k).Nodup := by
  have hp : (plug k (f.attach .leaf)).toList.Nodup :=
    (nodup_plug_iff (k := f :: k)).2 ⟨hn, List.nodup_nil, fun y hy => by cases hy⟩
  obtain ⟨hk, hf, hd⟩ := nodup_plug_iff.1 hp
  obtain ⟨-, -, -, hlab, -⟩ := nodup_fork_iff.1 hf
  exact ⟨⟨hlab, hd _ (mem_fork.2 (.inl rfl))⟩, fun y hy => hd y (mem_fork.2 (.inr (.inr hy))), hk⟩

/-- The tree may be read from one node higher. -/
lemma shape_cons : Shape m (f :: k) t ↔ Shape m k (f.attach t) := by
  constructor
  · rintro ⟨⟨hf, hoth, hk⟩, ht, hn⟩
    exact ⟨by simpa [Frame.attach] using hk, holds_fork.2 ⟨hf, ht, hoth⟩, hn⟩
  · rintro ⟨hk, ht, hn⟩
    obtain ⟨hf, ht, hoth⟩ := holds_fork.1 ht
    exact ⟨⟨hf, hoth, by simpa [Frame.attach] using hk⟩, ht, hn⟩

/-- The tree may be read from its root. -/
lemma shape_plug : Shape m k t ↔ Shape m [] (plug k t) := by
  induction k generalizing t with
  | nil => exact Iff.rfl
  | cons f k ih => rw [shape_cons, ih, plug]

section

variable (hs : Shape m k (fork d c a x b))
include hs

/-- The test that finds the side of a child. -/
lemma Shape.left_eq_iff (hne : a.root ≠ b.root) : (m.node x).left = a.root ↔ d = .left := by
  obtain ⟨hx, -⟩ := holds_fork.1 hs.tree
  rw [hx]
  cases d with
  | left => exact iff_of_true rfl rfl
  | right => exact iff_of_false (fun hb => hne hb.symm) (by decide)

/-- The two children of a node are different unless there is none. -/
lemma Shape.root_ne (ha : a.root = some y) : a.root ≠ b.root := by
  obtain ⟨-, hn, -⟩ := nodup_plug_iff.1 hs.nodup
  obtain ⟨-, -, -, -, hd⟩ := nodup_fork_iff.1 hn
  exact fun hb => hd y (mem_of_root ha) (mem_of_root (hb ▸ ha))

lemma Shape.node_fork : m.node x = .fork d a.root b.root (above k) c := (holds_fork.1 hs.tree).1

end

lemma Holds.parent (ht : Holds h q t) (hx : t.root = some x) : (h x).parent = q := by
  cases t with
  | leaf => cases hx
  | node c l y r =>
    cases hx
    rw [ht.1]

/-- What `is_red` says of the root of a subtree. -/
lemma Holds.isRed (ht : Holds m.node p t) : m.isRed t.root = decide (t.color = .red) := by
  cases t with
  | leaf => rfl
  | node c l x r =>
    obtain ⟨hx, -⟩ := ht
    show ((m.node x).color == .red) = _
    rw [hx]
    cases c <;> rfl

variable [DecidableEq ν] {m' : Rbtree ν} {e : ColorTree ν} {y z : ν} {f : RbtreeNode ν → RbtreeNode ν}

/-! ## Changes of single fields -/

@[simp]
lemma modify_node_self : (m.modify x f).node x = f (m.node x) := update_self ..

lemma modify_node_of_ne (h : y ≠ x) : (m.modify x f).node y = m.node y := update_of_ne h ..

lemma setChild_node_self : (m.setChild d x p).node x = (m.node x).setChild d p := modify_node_self

lemma setParent_node_self : (m.setParent x p).node x = { m.node x with parent := p } := modify_node_self

@[simp]
lemma modify?_rbNode : (m.modify? p f).rbNode = m.rbNode := by cases p <;> rfl

lemma modify?_node_of_ne (h : p ≠ some y) : (m.modify? p f).node y = m.node y := by
  cases p with
  | none => rfl
  | some x => exact modify_node_of_ne fun hyx => h (hyx ▸ rfl)

/-- The parent pointer of the root of a subtree. -/
lemma Holds.setParent? (ht : Holds m.node p t) (hn : t.toList.Nodup) :
    Holds (m.setParent? t.root q).node q t := by
  cases t with
  | leaf => trivial
  | node c l x r =>
    obtain ⟨hx, hl, hr⟩ := ht
    obtain ⟨-, -, hxl, hxr, -⟩ := (nodup_fork_iff (d := .left) (c := c)).1 hn
    change Holds (m.setParent x q).node q (node c l x r)
    refine ⟨?_, hl.congr fun y hy => ?_, hr.congr fun y hy => ?_⟩
    · rw [Rbtree.setParent, modify_node_self, hx]
    · have hyx : y ≠ x := fun hyx => hxl (hyx ▸ hy)
      exact modify_node_of_ne hyx
    · have hyx : y ≠ x := fun hyx => hxr (hyx ▸ hy)
      exact modify_node_of_ne hyx

/-- Another pointer at the end of a path. -/
lemma HoldsPath.assign (hk : HoldsPath m.node m.rbNode k q) (hn : (pathNodes k).Nodup) (p : Option ν) :
    HoldsPath (m.assign p (linkOf k)).node (m.assign p (linkOf k)).rbNode k p ∧
      ∀ z ∉ pathNodes k, (m.assign p (linkOf k)).node z = m.node z := by
  cases k with
  | nil => exact ⟨rfl, fun z _ => rfl⟩
  | cons f k =>
    obtain ⟨hf, hoth, hk⟩ := hk
    obtain ⟨hlab, -⟩ := nodup_pathNodes_cons hn
    show HoldsPath (m.setChild f.side f.label p).node m.rbNode (f :: k) p ∧ _
    refine ⟨⟨?_, hoth.congr fun y hy => ?_, hk.congr fun y hy => ?_⟩, fun z hz => ?_⟩
    · rw [setChild_node_self, hf, setChild_fork]
    · have hyl : y ≠ f.label := fun hyl => hlab.1 (hyl ▸ hy)
      exact modify_node_of_ne hyl
    · have hyl : y ≠ f.label := fun hyl => hlab.2 (hyl ▸ hy)
      exact modify_node_of_ne hyl
    · have hzl : z ≠ f.label := fun hzl => hz (mem_pathNodes_cons.2 (.inl hzl))
      exact modify_node_of_ne hzl

/-- The code finds the pointer at the end of a path, if that is not the pointer to another node. -/
lemma replaceChild_eq (hk : HoldsPath m.node m.rbNode k (some x)) (hx : x ∉ pathNodes k) (d : Side)
    (p : Option ν) : m.replaceChild d (above k) x p = m.assign p (linkOf k) := by
  cases k with
  | nil => rfl
  | cons f k =>
    obtain ⟨hf, -, -⟩ := hk
    have hne : f.other.root ≠ some x := fun hr =>
      hx (mem_pathNodes_cons.2 (.inr (.inl (mem_of_root hr))))
    show (if (m.node f.label).child d = some x then m.setChild d f.label p
      else m.setChild d.flip f.label p) = m.setChild f.side f.label p
    obtain rfl | rfl := Side.eq_or_eq_flip d f.side
    · rw [hf, child_fork, if_pos rfl]
    · rw [hf, child_flip_fork, if_neg hne, Side.flip_flip]

/-! ## Colours -/

/-- The root of the subtree gets another colour. -/
lemma Shape.paint (hs : Shape m k t) (c : Color) :
    Shape (m.modify? t.root ({ · with color := c })) k (t.paint c) := by
  cases t with
  | leaf => exact hs
  | node c' l x r =>
    obtain ⟨hk, ⟨hx, hl, hr⟩, hn⟩ := hs
    obtain ⟨hnk, hnt, hd⟩ := nodup_plug_iff.1 hn
    obtain ⟨-, -, hxl, hxr, -⟩ := (nodup_fork_iff (d := .left) (c := c')).1 hnt
    have hxk : x ∉ pathNodes k := hd x (by simp [toList])
    show Shape (m.modify x ({ · with color := c })) k (node c l x r)
    refine ⟨?_, ⟨?_, hl.congr fun y hy => ?_, hr.congr fun y hy => ?_⟩, ?_⟩
    · refine HoldsPath.congr (fun y hy => ?_) hk
      have hyx : y ≠ x := fun hyx => hxk (hyx ▸ hy)
      exact modify_node_of_ne hyx
    · rw [modify_node_self, hx]
    · have hyx : y ≠ x := fun hyx => hxl (hyx ▸ hy)
      exact modify_node_of_ne hyx
    · have hyx : y ≠ x := fun hyx => hxr (hyx ▸ hy)
      exact modify_node_of_ne hyx
    · rw [toList_plug] at hn ⊢
      exact hn

/-- The root of a subtree on side `d` below the end of the path. -/
lemma Shape.paint_child (hs : Shape m k (fork d c a x b)) (c' : Color) :
    Shape (m.modify? a.root ({ · with color := c' })) k (fork d c (a.paint c') x b) :=
  shape_cons.1 (Shape.paint ((shape_cons (f := ⟨d, c, x, b⟩)).2 hs) c')

/-- The root of the subtree beside it. -/
lemma Shape.paint_other (hs : Shape m k (fork d c a x b)) (c' : Color) :
    Shape (m.modify? b.root ({ · with color := c' })) k (fork d c a x (b.paint c')) := by
  rw [← fork_flip] at hs ⊢
  exact hs.paint_child c'

/-! ## Rotations -/

/-- A rotation. -/
lemma Shape.rotate {c' : Color} (hs : Shape m k (fork d c a x (fork d c' b y e))) :
    ∃ m', m.rotate d x = some m' ∧ Shape m' k (fork d c' (fork d c a x b) y e) := by
  obtain ⟨hk, ht, hn⟩ := hs
  obtain ⟨hx, ha, hy⟩ := holds_fork.1 ht
  obtain ⟨hy, hb, he⟩ := holds_fork.1 hy
  obtain ⟨hnk, hnt, hd⟩ := nodup_plug_iff.1 hn
  obtain ⟨hna, hnye, hxa, hxye, haye⟩ := nodup_fork_iff.1 hnt
  obtain ⟨hnb, hne, hyb, hye, hbe⟩ := nodup_fork_iff.1 hnye
  simp only [mem_fork, not_or] at hxye haye hd
  obtain ⟨hxy, hxb, hxe⟩ := hxye
  have hxk : x ∉ pathNodes k := hd x (.inl rfl)
  have hyk : y ∉ pathNodes k := hd y (.inr (.inr (.inl rfl)))
  have hrt {z : ν} (hz : z ∉ b.toList) : b.root ≠ some z := fun hr => hz (mem_of_root hr)
  rw [root_fork] at hx hk
  -- the memory after each assignment
  let m1 := m.setChild d.flip x b.root
  let m2 := m1.setParent? b.root (some x)
  let m3 := m2.setParent y (above k)
  let m4 := m3.replaceChild d (above k) x (some y)
  let m5 := m4.setChild d y (some x)
  have hm1 {z : ν} (hz : z ≠ x) : m1.node z = m.node z := modify_node_of_ne hz
  have hm2 {z : ν} (hz : z ∉ b.toList) : m2.node z = m1.node z := modify?_node_of_ne (hrt hz)
  have hm3 {z : ν} (hz : z ≠ y) : m3.node z = m2.node z := modify_node_of_ne hz
  have hpath3 : HoldsPath m3.node m3.rbNode k (some x) := by
    have hroot3 : m3.rbNode = m.rbNode := modify?_rbNode (m := m1)
    rw [hroot3]
    refine HoldsPath.congr (fun z hz => ?_) hk
    have hzx : z ≠ x := fun h => hxk (h ▸ hz)
    have hzy : z ≠ y := fun h => hyk (h ▸ hz)
    have hzb : z ∉ b.toList := fun h => hd z (.inr (.inr (.inr (.inl h)))) hz
    rw [hm3 hzy, hm2 hzb, hm1 hzx]
  obtain ⟨hpath4, hm4⟩ := hpath3.assign hnk (some y)
  rw [← replaceChild_eq hpath3 hxk d] at hpath4 hm4
  have hm5 {z : ν} (hz : z ≠ y) : m5.node z = m4.node z := modify_node_of_ne hz
  have hm6 {z : ν} (hz : z ≠ x) : (m5.setParent x (some y)).node z = m5.node z := modify_node_of_ne hz
  have hl {z : ν} (hzx : z ≠ x) (hzy : z ≠ y) (hzk : z ∉ pathNodes k) :
      (m5.setParent x (some y)).node z = m2.node z := by
    rw [hm6 hzx, hm5 hzy, hm4 z hzk, hm3 hzy]
  have hrs {z : ν} (hzx : z ≠ x) (hzy : z ≠ y) (hzb : z ∉ b.toList) (hzk : z ∉ pathNodes k) :
      (m5.setParent x (some y)).node z = m.node z := by
    rw [hl hzx hzy hzk, hm2 hzb, hm1 hzx]
  refine ⟨m5.setParent x (some y), ?_, ?_, ?_, ?_⟩
  · have hb1 : (m1.node y).child d = b.root := by rw [hm1 (Ne.symm hxy), hy, child_fork]
    have hb0 : (m.node y).child d = b.root := by rw [hy, child_fork]
    have hpar : (m.node x).parent = above k := by rw [hx, parent_fork]
    have hch : (m.node x).child d.flip = some y := by rw [hx, child_flip_fork]
    simp only [Rbtree.rotate, hch, hpar, hb0, Option.bind_eq_bind, Option.bind_some]
    rw [show ((m.setChild d.flip x b.root).node y).child d = b.root from hb1]
  · rw [root_fork]
    exact hpath4.congr fun z hz => by
      rw [hm6 fun h => hxk (h ▸ hz), hm5 fun h => hyk (h ▸ hz)]
  · refine holds_fork.2 ⟨?_, holds_fork.2 ⟨?_, ?_, ?_⟩, ?_⟩
    · rw [hm6 (Ne.symm hxy), setChild_node_self, hm4 y hyk, setParent_node_self, hm2 hyb,
        hm1 (Ne.symm hxy), hy, fork_with_parent, setChild_fork, root_fork]
    · rw [setParent_node_self, hm5 hxy, hm4 x hxk, hm3 hxy, hm2 hxb, setChild_node_self, hx,
        setChild_flip_fork, fork_with_parent]
    · refine ha.congr fun z hz => ?_
      obtain ⟨hzy, hzb, -⟩ := haye z hz
      have hzx : z ≠ x := fun h => hxa (h ▸ hz)
      exact hrs hzx hzy hzb (hd z (.inr (.inl hz)))
    · have hb1 : Holds m1.node (some y) b := hb.congr fun z hz => hm1 fun h => hxb (h ▸ hz)
      have hb2 : Holds m2.node (some x) b := hb1.setParent? hnb
      refine hb2.congr fun z hz => ?_
      have hzx : z ≠ x := fun h => hxb (h ▸ hz)
      have hzy : z ≠ y := fun h => hyb (h ▸ hz)
      exact hl hzx hzy (hd z (.inr (.inr (.inr (.inl hz)))))
    · refine he.congr fun z hz => ?_
      have hzx : z ≠ x := fun h => hxe (h ▸ hz)
      have hzy : z ≠ y := fun h => hye (h ▸ hz)
      have hzb : z ∉ b.toList := fun h => hbe z h hz
      exact hrs hzx hzy hzb (hd z (.inr (.inr (.inr (.inr hz)))))
  · have hls : (fork d c' (fork d c a x b) y e).toList = (fork d c a x (fork d c' b y e)).toList := by
      cases d <;> simp [Side.join]
    rw [toList_plug, hls, ← toList_plug]
    exact hn

end OS01.Libc
