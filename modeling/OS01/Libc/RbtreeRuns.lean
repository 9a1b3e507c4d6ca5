import Mathlib.Data.List.Perm.Subperm
import Mathlib.Data.Set.Basic
import OS01.Lib.Run
import OS01.Libc.RbtreeErase

/-!
# Sequences of operations on the red-black tree

`rbtree_next` gives the node after a node in the order of the tree and `rbtree_prev` the one before it
(`neighbour_spec`), so that the usual loops over a tree list its nodes (`walk_spec`). With the results on
insertion and removal this gives `rbtree_correct`: whatever is inserted and removed, the memory holds a
red-black tree with exactly the nodes that should be there, and iterating over it lists them in order.
-/

namespace OS01.Libc

open Rbtree Lib Lib.ColorTree RbtreeNode Side

variable {ν : Type*}

namespace Rbtree

variable (m : Rbtree ν) [DecidableEq ν]

/-- The loop over a tree away from side `d`, from a pointer on. -/
def walk (d : Side) (fuel : Nat) : Nat → Option ν → Option (List ν)
  | 0, _ => none
  | _ + 1, none => some []
  | n + 1, some x => do
      let p ← m.neighbour d fuel x
      let l ← walk d fuel n p
      some (x :: l)

/-- `for (n = rbtree_first(root); n; n = rbtree_next(n))`. -/
def ascending (fuel : Nat) : Option (List ν) := do
  let p ← m.rbtreeFirst fuel
  m.walk .left fuel fuel p

/-- `for (n = rbtree_last(root); n; n = rbtree_prev(n))`. -/
def descending (fuel : Nat) : Option (List ν) := do
  let p ← m.rbtreeLast fuel
  m.walk .right fuel fuel p

end Rbtree

/-! ## Iteration -/

section

variable {m : Rbtree ν} {k : List (Frame ν)} {a b t : ColorTree ν} {c : Color} {x : ν} {d : Side}
  {l s : List ν} {fuel : Nat}

/-- A list as it is met from side `d`. -/
def startingAt (d : Side) (l : List ν) : List ν :=
  match d with
  | .left => l
  | .right => l.reverse

/-- What comes after the subtree at the end of a path. -/
def beyond (d : Side) (k : List (Frame ν)) : List ν :=
  match d with
  | .left => after k
  | .right => (before k).reverse

@[simp]
lemma mem_startingAt : x ∈ startingAt d l ↔ x ∈ l := by cases d <;> simp [startingAt]

@[simp]
lemma nodup_startingAt : (startingAt d l).Nodup ↔ l.Nodup := by
  cases d <;> simp [startingAt]

/-- A node and what comes after it. -/
lemma startingAt_plug : ∃ l, startingAt d (plug k (fork d c a x b)).toList =
    l ++ x :: (startingAt d b.toList ++ beyond d k) := by
  cases d with
  | left => exact ⟨before k ++ a.toList, by simp [startingAt, beyond, toList_plug, join]⟩
  | right =>
    exact ⟨(after k).reverse ++ a.toList.reverse, by
      simp [startingAt, beyond, toList_plug, join]⟩

/-- The node where the descent on one side ends comes first. -/
lemma head_startingAt {k₁ : List (Frame ν)} (hs : ∀ f ∈ k₁, f.side = d) :
    (startingAt d (plug k₁ (fork d c .leaf x b)).toList).head? = some x := by
  cases d with
  | left => simp [startingAt, toList_plug, join, before_of_left hs, toList]
  | right => simp [startingAt, toList_plug, join, after_of_right hs, toList]

lemma extreme_eq (d : Side) (fuel : Nat) (hs : Shape m k t) (hx : t.root = some x)
    (hf : t.toList.length ≤ fuel) : (m.extreme d fuel x).map some = some (startingAt d t.toList).head? := by
  obtain ⟨k1, c, y, e, rfl, hsd, hext⟩ := extreme_spec d fuel hs hx hf
  rw [hext, head_startingAt hsd]
  rfl

/-- Where an element occurs once, what follows it is determined. -/
lemma append_cons_inj {l' s' : List ν} (h : l ++ x :: s = l' ++ x :: s')
    (hn : (l ++ x :: s).Nodup) : s = s' := by
  have hn' : (l' ++ x :: s').Nodup := h ▸ hn
  rw [List.nodup_append] at hn hn'
  obtain ⟨r, hl, hr⟩ | ⟨r, hl, hr⟩ := List.append_eq_append_iff.1 h
  · cases r with
    | nil => exact (List.cons.inj hr).2
    | cons y r =>
      have hy : x = y := (List.cons.inj hr).1
      exact absurd rfl (hn'.2.2 x (by simp [hl, hy]) x (by simp))
  · cases r with
    | nil => exact ((List.cons.inj hr).2).symm
    | cons y r =>
      have hy : x = y := (List.cons.inj hr).1
      exact absurd rfl (hn.2.2 x (by simp [hl, hy]) x (by simp))

lemma outermost_spec (hs : Shape m [] t) (hf : t.toList.length ≤ fuel) :
    m.outermost d fuel = some (startingAt d t.toList).head? := by
  have hr : m.rbNode = t.root := hs.path
  cases ht : t.root with
  | none =>
    obtain rfl := eq_leaf_of_root ht
    simp only [outermost, hr]
    cases d <;> rfl
  | some x =>
    rw [← extreme_eq d fuel hs ht hf]
    simp [outermost, hr, ht]

variable [DecidableEq ν]

/-- The loop that goes up ends at the node that comes after the subtree. -/
lemma climb_spec (fuel : Nat) (hs : Shape m k t) (hx : t.root = some x) (hf : k.length < fuel) :
    m.climb d.flip fuel x (above k) = some (beyond d k).head? := by
  induction fuel generalizing k t x with
  | zero => omega
  | succ fuel ih =>
    cases k with
    | nil => cases d <;> rfl
    | cons f k =>
      obtain ⟨e, c, y, u⟩ := f
      have hs' : Shape m k (fork e c t y u) := shape_cons.1 hs
      have hn := hs'.node_fork
      rw [List.length_cons] at hf
      obtain rfl | rfl := eq_or_eq_flip e d
      · have hch : (m.node y).child e.flip ≠ some x := by
          rw [hn, child_flip_fork]
          exact fun hu => hs'.root_ne hx (hx.trans hu.symm)
        have hhd : (beyond e (⟨e, c, y, u⟩ :: k)).head? = some y := by
          cases e <;> simp [beyond, before, after]
        rw [hhd]
        simp [climb, above, hch]
      have hch : (m.node y).child d.flip = some x := by
        rw [hn, child_fork, hx]
      have hbeyond : beyond d (⟨d.flip, c, y, u⟩ :: k) = beyond d k := by cases d <;> rfl
      have hpar : (m.node y).parent = above k := by rw [hn, parent_fork]
      rw [hbeyond, ← ih hs' (root_fork ..) (by omega)]
      simp only [climb, above, List.head?_cons, Option.map_some, hch]
      rw [hpar]
      rfl

/-- `rbtree_next` and `rbtree_prev`. -/
lemma neighbour_spec (hs : Shape m k (fork d c a x b))
    (hf : (plug k (fork d c a x b)).toList.length ≤ fuel) :
    m.neighbour d fuel x = some (startingAt d b.toList ++ beyond d k).head? := by
  have hch : (m.node x).child d.flip = b.root := by
    rw [hs.node_fork, child_flip_fork]
  have hpar : (m.node x).parent = above k := hs.tree.parent (root_fork ..)
  have hlen := length_le_toList_plug k (fork d c a x b)
  have hlen' : b.toList.length + 1 ≤ (fork d c a x b).toList.length := by
    cases d <;> simp [join]
  cases hb : b.root with
  | none =>
    obtain rfl := eq_leaf_of_root hb
    have hl : startingAt d (.leaf : ColorTree ν).toList = [] := by cases d <;> rfl
    rw [hl, List.nil_append, ← climb_spec fuel hs (root_fork ..) (by omega)]
    simp only [neighbour, hch, hpar]
    rfl
  | some y =>
    have hs' : Shape m (⟨d.flip, c, x, a⟩ :: k) b := shape_cons.2 (by rwa [Frame.attach, fork_flip])
    have hext := extreme_eq d fuel hs' hb (by omega)
    have hne : startingAt d b.toList ≠ [] := by
      intro hnil
      have hmem : y ∈ startingAt d b.toList := mem_startingAt.2 (mem_of_root hb)
      simp [hnil] at hmem
    rw [List.head?_append_of_ne_nil _ hne, ← hext]
    simp [neighbour, hch, hb]

/-- The loop over the tree lists what is left of it. -/
lemma walk_spec (hs : Shape m [] t) (hf : t.toList.length ≤ fuel) (n : Nat)
    (hspl : startingAt d t.toList = l ++ s) (hn : s.length < n) :
    m.walk d fuel n s.head? = some s := by
  induction n generalizing l s with
  | zero => omega
  | succ n ih =>
    cases s with
    | nil => rfl
    | cons x s =>
      have hmem : x ∈ t.toList := by
        rw [← mem_startingAt (d := d), hspl]
        simp
      obtain ⟨k, c, a', b', rfl⟩ := exists_plug hmem
      obtain ⟨a, b, hab⟩ := node_eq_fork d c a' x b'
      rw [hab] at hs hspl hf
      obtain ⟨l', hp⟩ := startingAt_plug (d := d) (k := k) (c := c) (a := a) (x := x) (b := b)
      have hnd : (l ++ x :: s).Nodup := hspl ▸ nodup_startingAt.2 hs.nodup
      have hr : s = startingAt d b.toList ++ beyond d k := append_cons_inj (hspl.symm.trans hp) hnd
      have hnx := neighbour_spec (shape_plug.2 hs) hf
      rw [← hr] at hnx
      have ht := ih (l := l ++ [x]) (s := s) (by
        rw [hab, hspl]
        simp) (by simpa using hn)
      simp [walk, hnx, ht]

/-- The two loops over a tree. -/
lemma iterate_spec (hs : Shape m [] t) (hf : t.toList.length < fuel) :
    m.ascending fuel = some t.toList ∧ m.descending fuel = some t.toList.reverse := by
  have hle : t.toList.length ≤ fuel := Nat.le_of_lt hf
  constructor
  · simp only [ascending, rbtreeFirst, outermost_spec hs hle]
    exact walk_spec (d := .left) (l := []) hs hle fuel rfl hf
  · simp only [descending, rbtreeLast, outermost_spec hs hle]
    exact walk_spec (d := .right) (l := []) hs hle fuel rfl (by simpa [startingAt] using hf)

end

/-! ## Runs -/

/-- An operation on the tree. -/
inductive RbtreeOp (ν : Type*)
  | insert (x : ν)
  | erase (x : ν)

/-- The tree after an operation. -/
def Rbtree.next [DecidableEq ν] (cmp : ν → ν → Int) (fuel : Nat) (m : Rbtree ν) :
    RbtreeOp ν → Option (Rbtree ν)
  | .insert x => (m.rbtreeInsert cmp fuel x).map Prod.fst
  | .erase x => m.rbtreeErase fuel x

/-- A new node is inserted, or a present one is removed. -/
def RbtreeOp.Proper (present : Set ν) : RbtreeOp ν → Prop
  | .insert x => x ∉ present
  | .erase x => x ∈ present

variable {κ : Type*} [LinearOrder κ]

/-- The nodes that should be there after an operation. -/
def RbtreeOp.present (key : ν → κ) (s : Set ν) : RbtreeOp ν → Set ν
  | .insert x => {z | z ∈ s ∨ z = x ∧ ∀ y ∈ s, key y ≠ key x}
  | .erase x => {z | z ∈ s ∧ z ≠ x}

variable [DecidableEq ν] {key : ν → κ} {cmp : ν → ν → Int} {m : Rbtree ν} {t : ColorTree ν} {s : Set ν}

/-- One operation. -/
lemma Valid.next (hcmp : Compares cmp key) (h : Valid key m t) (hmem : ∀ z, z ∈ t.toList ↔ z ∈ s)
    (op : RbtreeOp ν) (hop : op.Proper s) (fuel : Nat) (hf : t.toList.length < fuel) :
    ∃ m' t', m.next cmp fuel op = some m' ∧ Valid key m' t' ∧
      (∀ z, z ∈ t'.toList ↔ z ∈ op.present key s) ∧ t'.toList.length ≤ t.toList.length + 1 := by
  cases op with
  | insert x =>
    have hx : x ∉ t.toList := mt (hmem x).1 hop
    obtain ⟨y, hy, hkey, hins⟩ | ⟨hfr, m', t', hins, hval, hmem'⟩ := h.insert hcmp hx hf
    · refine ⟨m, t, by simp [Rbtree.next, hins], h, fun z => ?_, by omega⟩
      rw [hmem]
      refine ⟨.inl, fun hz => hz.elim id fun hzx => ?_⟩
      exact absurd hkey (hzx.2 y ((hmem y).1 hy))
    refine ⟨m', t', by simp [Rbtree.next, hins], hval, fun z => ?_, ?_⟩
    · rw [hmem', hmem]
      constructor
      · rintro (rfl | hz)
        · exact .inr ⟨rfl, fun y hy => hfr y ((hmem y).2 hy)⟩
        · exact .inl hz
      · rintro (hz | ⟨rfl, -⟩)
        · exact .inr hz
        · exact .inl rfl
    · have hsub : t'.toList.Subperm (x :: t.toList) :=
        hval.shape.nodup.subperm fun z hz => List.mem_cons.2 ((hmem' z).1 hz)
      exact hsub.length_le
  | erase x =>
    obtain ⟨m', t', hers, hval, hmem'⟩ := h.erase ((hmem x).2 hop) hf
    refine ⟨m', t', hers, hval, fun z => ?_, ?_⟩
    · rw [hmem', hmem]
      exact and_comm
    · have hsub : t'.toList.Subperm t.toList := hval.shape.nodup.subperm fun z hz => ((hmem' z).1 hz).2
      have hlen := hsub.length_le
      omega

/-- Any sequence of operations. -/
lemma Valid.run (hcmp : Compares cmp key) (h : Valid key m t) (hmem : ∀ z, z ∈ t.toList ↔ z ∈ s)
    {ops : List (RbtreeOp ν)} {s' : Set ν}
    (hops : Run (guarded (ofFun (RbtreeOp.present key)) RbtreeOp.Proper) s ops s') (fuel : Nat)
    (hf : t.toList.length + ops.length < fuel) :
    ∃ m' t', ops.foldlM (Rbtree.next cmp fuel) m = some m' ∧ Valid key m' t' ∧
      (∀ z, z ∈ t'.toList ↔ z ∈ s') ∧ t'.toList.length < fuel := by
  induction hops generalizing m t with
  | nil s => exact ⟨m, t, rfl, h, hmem, hf⟩
  | cons hs _ ih =>
    obtain ⟨hop, rfl⟩ := hs
    rw [List.length_cons] at hf
    obtain ⟨m1, t1, hn, h1, hmem1, hlen⟩ := h.next hcmp hmem _ hop fuel (by omega)
    obtain ⟨m', t', hrun, h'⟩ := ih h1 hmem1 (by omega)
    refine ⟨m', t', ?_, h'⟩
    rw [List.foldlM_cons, hn]
    exact hrun

/-- **The red-black tree is correct.** For every comparison of keys in a linear order, from an empty root
and with any contents of the nodes, through any insertions of new nodes and removals of present ones:
every call returns; the memory holds a red-black tree with a black root, ordered by the keys, whose nodes
are the present ones; the insertion of a node whose key is taken returns the node that has it and changes
nothing; and the loops over the tree list its nodes once each, in ascending and in descending order. -/
theorem rbtree_correct (cmp : ν → ν → Int) (key : ν → κ) (hcmp : Compares cmp key)
    (memory : ν → RbtreeNode ν) (ops : List (RbtreeOp ν)) (s : Set ν)
    (hops : Run (guarded (ofFun (RbtreeOp.present key)) RbtreeOp.Proper) ∅ ops s) (fuel : Nat)
    (hfuel : ops.length < fuel) :
    ∃ m t, ops.foldlM (Rbtree.next cmp fuel) ⟨none, memory⟩ = some m ∧ Valid key m t ∧
      (∀ z, z ∈ t.toList ↔ z ∈ s) ∧
      (∀ x ∉ s, ∀ y ∈ s, key y = key x → m.rbtreeInsert cmp fuel x = some (m, some y)) ∧
      m.ascending fuel = some t.toList ∧ m.descending fuel = some t.toList.reverse := by
  have hemp : Valid key (⟨none, memory⟩ : Rbtree ν) .leaf :=
    ⟨⟨rfl, trivial, List.nodup_nil⟩, ⟨0, .leaf⟩, rfl, List.Pairwise.nil⟩
  obtain ⟨m, t, hrun, h, hmem, hlen⟩ := hemp.run hcmp (s := ∅) (by simp [toList]) hops fuel
    (by simpa [toList] using hfuel)
  refine ⟨m, t, hrun, h, hmem, fun x hx y hy hkey => ?_, iterate_spec h.shape hlen⟩
  obtain ⟨z, hz, hzk, hins⟩ | ⟨hfr, -⟩ := h.insert hcmp (mt (hmem x).1 hx) hlen
  · -- keys differ in the tree, so it is the same node
    have hk : (t.toList.map key).Nodup := h.sorted.map key fun a b hab => ne_of_lt hab
    have hzy : z = y := List.inj_on_of_nodup_map hk hz ((hmem y).2 hy) (hzk.trans hkey.symm)
    rw [hins, hzy]
  · exact absurd hkey (hfr y ((hmem y).2 hy))

/-- Two numbers are inserted and the first is removed; the other is left. -/
theorem rbtree_correct_numbers : ∃ m t, [.insert 2, .insert 1, .erase 2].foldlM
        (Rbtree.next (fun a b : Nat => (a : Int) - b) 4) ⟨none, fun _ => ⟨none, none, none, .red⟩⟩ =
        some m ∧ Valid (fun a : Nat => a) m t ∧ ∀ z, z ∈ t.toList ↔ z = 1 := by
  have hcmp : Compares (fun a b : Nat => (a : Int) - b) (fun a : Nat => a) := fun a b => by
    dsimp only
    constructor <;> omega
  have hops : Run (guarded (ofFun (RbtreeOp.present fun a : Nat => a)) RbtreeOp.Proper) ∅
      [.insert 2, .insert 1, .erase 2] _ :=
    .cons ⟨by simp [RbtreeOp.Proper], rfl⟩ (.cons ⟨by simp [RbtreeOp.Proper, RbtreeOp.present], rfl⟩
      (.cons ⟨by simp [RbtreeOp.Proper, RbtreeOp.present], rfl⟩ (.nil _)))
  obtain ⟨m, t, hrun, hval, hmem, -⟩ := rbtree_correct _ _ hcmp (fun _ => ⟨none, none, none, .red⟩) _ _
    hops 4 (by decide)
  refine ⟨m, t, hrun, hval, fun z => ?_⟩
  rw [hmem]
  simp [RbtreeOp.present]
  omega

end OS01.Libc
