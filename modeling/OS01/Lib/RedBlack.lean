import Mathlib.Data.List.Nodup
import Mathlib.Order.Lattice

/-!
# Coloured trees and paths into them

A binary tree whose nodes carry a colour, and a path from its root to a subtree (a list of frames, the
lowest one first). `plug k t` is the tree with `t` at the end of the path `k`. The mirrored cases of an
algorithm are one case for both sides: `fork d c a x b` has `a` on side `d` and `b` on the other.

`RedBlack t n` says that no red node of `t` has a red child and that every path down to a leaf meets `n`
black nodes. `Fits k n` says what a path needs for that: a red-black tree with `n` black nodes on each
path may stand at its end (`Fits.plug`, `RedBlack.of_plug`), and then the root is black.

Nothing here mentions a particular program.
-/

namespace OS01.Lib

open List

/-- A side of a node. -/
inductive Side
  | left
  | right
deriving DecidableEq, Repr

/-- The other side. -/
def Side.flip : Side → Side
  | .left => .right
  | .right => .left

/-- The other side of the other side. -/
@[simp]
lemma Side.flip_flip (d : Side) : d.flip.flip = d := by cases d <;> rfl

/-- There are two sides. -/
lemma Side.eq_or_eq_flip (d e : Side) : d = e ∨ d = e.flip := by cases d <;> cases e <;> decide

/-- Two lists around an element, the first one on the given side. -/
def Side.join {α : Type*} (d : Side) (a : List α) (x : α) (b : List α) : List α :=
  match d with
  | .left => a ++ x :: b
  | .right => b ++ x :: a

/-- The colour of a node. -/
inductive Color
  | red
  | black
deriving DecidableEq, Repr

variable {c : Color}

/-- What is not black is red. -/
lemma Color.eq_red_of_ne (h : c ≠ .black) : c = .red := by cases c <;> simp_all

/-- What is not red is black. -/
lemma Color.eq_black_of_ne (h : c ≠ .red) : c = .black := by cases c <;> simp_all

/-- A binary tree with a colour at each node. -/
inductive ColorTree (α : Type*)
  | leaf
  | node (c : Color) (l : ColorTree α) (x : α) (r : ColorTree α)

namespace ColorTree

variable {α : Type*} {a b t u : ColorTree α} {x : α} {d : Side} {n : Nat}

/-- A node with `a` on side `d` and `b` on the other. -/
def fork (d : Side) (c : Color) (a : ColorTree α) (x : α) (b : ColorTree α) : ColorTree α :=
  match d with
  | .left => .node c a x b
  | .right => .node c b x a

/-- On the other side the subtrees change places. -/
lemma fork_flip (d : Side) (c : Color) (a : ColorTree α) (x : α) (b : ColorTree α) :
    fork d.flip c a x b = fork d c b x a := by cases d <;> rfl

/-- A node, seen from a side. -/
lemma node_eq_fork (d : Side) (c : Color) (a : ColorTree α) (x : α) (b : ColorTree α) :
    ∃ a' b', node c a x b = fork d c a' x b' := by
  cases d with
  | left => exact ⟨a, b, rfl⟩
  | right => exact ⟨b, a, rfl⟩

/-- The elements from left to right. -/
def toList : ColorTree α → List α
  | leaf => []
  | node _ l x r => l.toList ++ x :: r.toList

/-- The elements of a node. -/
@[simp]
lemma toList_fork : (fork d c a x b).toList = d.join a.toList x b.toList := by cases d <;> rfl

/-- The element at the root. -/
def root : ColorTree α → Option α
  | leaf => none
  | node _ _ x _ => some x

/-- The root of a node. -/
@[simp]
lemma root_fork (d : Side) (c : Color) (a : ColorTree α) (x : α) (b : ColorTree α) :
    (fork d c a x b).root = some x := by cases d <;> rfl

/-- The root is one of the elements. -/
lemma mem_of_root (h : t.root = some x) : x ∈ t.toList := by
  cases t with
  | leaf => cases h
  | node c l y r =>
    cases h
    simp [toList]

/-- A tree without a root is a leaf. -/
lemma eq_leaf_of_root (h : t.root = none) : t = leaf := by
  cases t with
  | leaf => rfl
  | node c l y r => cases h

/-- The colour of the root; a leaf is black. -/
def color : ColorTree α → Color
  | leaf => .black
  | node c _ _ _ => c

/-- The colour of a node. -/
@[simp]
lemma color_fork : (fork d c a x b).color = c := by cases d <;> rfl

/-- The tree with another colour at the root. -/
def paint (c : Color) : ColorTree α → ColorTree α
  | leaf => leaf
  | node _ l x r => node c l x r

/-- A node in another colour. -/
@[simp]
lemma paint_fork {c' : Color} : (fork d c a x b).paint c' = fork d c' a x b := by cases d <;> rfl

/-- The colour does not change the elements. -/
@[simp]
lemma toList_paint : (t.paint c).toList = t.toList := by cases t <;> rfl

/-- A tree that is painted black is black. -/
@[simp]
lemma color_paint_black : (t.paint .black).color = .black := by cases t <;> rfl

/-- No red node has a red child, and there are `n` black nodes on each path to a leaf. -/
inductive RedBlack : ColorTree α → Nat → Prop
  | leaf : RedBlack leaf 0
  | red {l r : ColorTree α} {x : α} {n : Nat} : l.color = .black → r.color = .black →
      RedBlack l n → RedBlack r n → RedBlack (node .red l x r) n
  | black {l r : ColorTree α} {x : α} {n : Nat} : RedBlack l n → RedBlack r n →
      RedBlack (node .black l x r) (n + 1)

/-- When a red node is in order. -/
lemma redBlack_fork_red : RedBlack (fork d .red a x b) n ↔
    a.color = .black ∧ b.color = .black ∧ RedBlack a n ∧ RedBlack b n := by
  cases d with
  | left =>
    constructor
    · rintro ⟨⟩
      exact ⟨‹_›, ‹_›, ‹_›, ‹_›⟩
    · exact fun h => .red h.1 h.2.1 h.2.2.1 h.2.2.2
  | right =>
    constructor
    · rintro ⟨⟩
      exact ⟨‹_›, ‹_›, ‹_›, ‹_›⟩
    · exact fun h => .red h.2.1 h.1 h.2.2.2 h.2.2.1

/-- When a black node is in order. -/
lemma redBlack_fork_black : RedBlack (fork d .black a x b) n ↔
    ∃ m, n = m + 1 ∧ RedBlack a m ∧ RedBlack b m := by
  cases d with
  | left =>
    constructor
    · rintro ⟨⟩
      exact ⟨_, rfl, ‹_›, ‹_›⟩
    · rintro ⟨m, rfl, ha, hb⟩
      exact .black ha hb
  | right =>
    constructor
    · rintro ⟨⟩
      exact ⟨_, rfl, ‹_›, ‹_›⟩
    · rintro ⟨m, rfl, ha, hb⟩
      exact .black hb ha

/-- Neither the side nor the label matters. -/
lemma redBlack_fork_congr {d' : Side} {y : α} (h : RedBlack (fork d c a x b) n) :
    RedBlack (fork d' c a y b) n := by
  cases c with
  | red => exact redBlack_fork_red.2 (redBlack_fork_red.1 h)
  | black => exact redBlack_fork_black.2 (redBlack_fork_black.1 h)

/-- A red-black tree with a black node on its paths has a node at the root. -/
lemma RedBlack.exists_fork (h : RedBlack t (n + 1)) (d : Side) : ∃ c a x b, t = fork d c a x b := by
  cases t with
  | leaf => cases h
  | node c l x r =>
    obtain ⟨a, b, hab⟩ := node_eq_fork d c l x r
    exact ⟨c, a, x, b, hab⟩

/-- A red tree has a node at the root. -/
lemma exists_fork_of_red (h : t.color = .red) (d : Side) : ∃ a x b, t = fork d .red a x b := by
  cases t with
  | leaf => cases h
  | node c l x r =>
    cases h
    obtain ⟨a, b, hab⟩ := node_eq_fork d .red l x r
    exact ⟨a, x, b, hab⟩

/-- A root may be painted black. -/
lemma RedBlack.paint_black (h : RedBlack t n) : ∃ m, RedBlack (t.paint .black) m := by
  cases h with
  | leaf => exact ⟨0, .leaf⟩
  | red _ _ hl hr | black hl hr => exact ⟨_, .black hl hr⟩

/-- Painting a red root black adds one black node to each path. -/
lemma RedBlack.paint_black_of_red (h : RedBlack t n) (hred : t.color = .red) :
    RedBlack (t.paint .black) (n + 1) := by
  cases h with
  | red _ _ hl hr => exact .black hl hr
  | leaf | black hl hr => cases hred

/-! ## Paths -/

/-- A node above the end of a path, with the subtree beside the path. -/
structure Frame (α : Type*) where
  side : Side
  color : Color
  label : α
  other : ColorTree α

/-- The subtree of a frame. -/
def Frame.attach (f : Frame α) (t : ColorTree α) : ColorTree α := fork f.side f.color t f.label f.other

variable {k k' : List (Frame α)} {f : Frame α}

/-- The tree with `t` at the end of a path. -/
def plug : List (Frame α) → ColorTree α → ColorTree α
  | [], t => t
  | f :: k, t => plug k (f.attach t)

/-- One path after another. -/
lemma plug_append (k k' : List (Frame α)) (t : ColorTree α) : plug (k ++ k') t = plug k' (plug k t) := by
  induction k generalizing t with
  | nil => rfl
  | cons f k ih => exact ih _

/-- What stands left of the end of a path. -/
def before : List (Frame α) → List α
  | [] => []
  | f :: k =>
    match f.side with
    | .left => before k
    | .right => before k ++ f.other.toList ++ [f.label]

/-- What stands right of the end of a path. -/
def after : List (Frame α) → List α
  | [] => []
  | f :: k =>
    match f.side with
    | .left => f.label :: f.other.toList ++ after k
    | .right => after k

/-- The elements are those before, at and after the end of the path. -/
lemma toList_plug (k : List (Frame α)) (t : ColorTree α) :
    (plug k t).toList = before k ++ t.toList ++ after k := by
  induction k generalizing t with
  | nil => simp [plug, before, after]
  | cons f k ih =>
    rw [plug, ih, Frame.attach]
    cases hs : f.side <;> simp [before, after, Side.join, hs]

/-- Nothing stands before the leftmost path. -/
lemma before_of_left (h : ∀ f ∈ k, f.side = .left) : before k = [] := by
  induction k with
  | nil => rfl
  | cons f k ih =>
    have hf := h f (mem_cons_self ..)
    simp [before, hf, ih fun g hg => h g (mem_cons_of_mem _ hg)]

/-- Nothing stands after the rightmost path. -/
lemma after_of_right (h : ∀ f ∈ k, f.side = .right) : after k = [] := by
  induction k with
  | nil => rfl
  | cons f k ih =>
    have hf := h f (mem_cons_self ..)
    simp [after, hf, ih fun g hg => h g (mem_cons_of_mem _ hg)]

/-- A path has no more frames than the tree has other elements. -/
lemma length_le_toList_plug (k : List (Frame α)) (t : ColorTree α) :
    k.length + t.toList.length ≤ (plug k t).toList.length := by
  induction k generalizing t with
  | nil => simp [plug]
  | cons f k ih =>
    have h := ih (f.attach t)
    have hattach : t.toList.length + 1 ≤ (f.attach t).toList.length := by
      rw [Frame.attach]
      cases f.side <;> simp [Side.join]
    rw [plug, length_cons]
    omega

/-- What stands at the end of a path does not change the root above it. -/
lemma root_plug_cons (f : Frame α) (k : List (Frame α)) (t u : ColorTree α) :
    (plug (f :: k) t).root = (plug (f :: k) u).root := by
  induction k generalizing f t u with
  | nil => simp [plug, Frame.attach]
  | cons g k ih => exact ih g _ _

/-- Every element is the root of the subtree at the end of some path. -/
lemma exists_plug (h : x ∈ t.toList) : ∃ k c l r, t = plug k (node c l x r) := by
  induction t with
  | leaf => cases h
  | node c l y r ihl ihr =>
    rw [toList, mem_append, mem_cons] at h
    obtain hl | rfl | hr := h
    · obtain ⟨k, c', l', r', hk⟩ := ihl hl
      refine ⟨k ++ [⟨.left, c, y, r⟩], c', l', r', ?_⟩
      rw [plug_append, ← hk]
      rfl
    · exact ⟨[], c, l, r, rfl⟩
    · obtain ⟨k, c', l', r', hk⟩ := ihr hr
      refine ⟨k ++ [⟨.right, c, y, l⟩], c', l', r', ?_⟩
      rw [plug_append, ← hk]
      rfl

/-- A red tree may stand at the end of the path. -/
def TakesRed (k : List (Frame α)) : Prop := ∀ f ∈ k.head?, f.color = .black

/-- The path is one into a red-black tree with a black root, to a subtree with `n` black nodes on its
paths. -/
def Fits : List (Frame α) → Nat → Prop
  | [], _ => True
  | f :: k, n =>
    RedBlack f.other n ∧
      match f.color with
      | .red => f.other.color = .black ∧ k ≠ [] ∧ TakesRed k ∧ Fits k n
      | .black => Fits k (n + 1)

/-- A red-black tree at the end of a path that fits. -/
lemma Fits.plug (hk : Fits k n) (ht : RedBlack t n) (hred : t.color = .red → TakesRed k) :
    ∃ m, RedBlack (plug k t) m := by
  induction k generalizing t n with
  | nil => exact ⟨n, ht⟩
  | cons f k ih =>
    obtain ⟨side, c, y, u⟩ := f
    obtain ⟨hu, hk⟩ := hk
    cases c with
    | red =>
      obtain ⟨hblk, -, htks, hk⟩ := hk
      have htb : t.color = .black := by
        by_contra hne
        have hr := hred (Color.eq_red_of_ne hne) ⟨side, .red, y, u⟩ rfl
        cases hr
      exact ih hk (redBlack_fork_red.2 ⟨htb, hblk, ht, hu⟩) fun _ => htks
    | black =>
      exact ih hk (redBlack_fork_black.2 ⟨n, rfl, ht, hu⟩) fun hr => by
        simp [Frame.attach] at hr

/-- A path into a red-black tree with a black root fits. -/
lemma RedBlack.of_plug (h : RedBlack (plug k t) n) (hrt : (ColorTree.plug k t).color = .black) :
    ∃ m, RedBlack t m ∧ Fits k m ∧ (t.color = .red → k ≠ [] ∧ TakesRed k) := by
  induction k generalizing t with
  | nil => exact ⟨n, h, trivial, fun hr => by simp [ColorTree.plug, hr] at hrt⟩
  | cons f k ih =>
    obtain ⟨side, c, y, u⟩ := f
    obtain ⟨m, hm, hft, hred⟩ := ih h hrt
    cases c with
    | red =>
      obtain ⟨htb, hub, ht, hu⟩ := redBlack_fork_red.1 hm
      have hk := hred (by simp [Frame.attach])
      exact ⟨m, ht, ⟨hu, hub, hk.1, hk.2, hft⟩, fun hr => by simp [htb] at hr⟩
    | black =>
      obtain ⟨m, rfl, ht, hu⟩ := redBlack_fork_black.1 hm
      refine ⟨m, ht, ⟨hu, hft⟩, fun _ => ⟨cons_ne_nil _ _, fun f hf => ?_⟩⟩
      obtain rfl : (⟨side, .black, y, u⟩ : Frame α) = f := by simpa using hf
      rfl

/-- The elements do not matter. -/
lemma Fits.relabel (x y : α) (hk : Fits (k ++ ⟨d, c, x, u⟩ :: k') n) : Fits (k ++ ⟨d, c, y, u⟩ :: k') n := by
  induction k generalizing n with
  | nil => exact hk
  | cons f k ih =>
    obtain ⟨hoth, hk⟩ := hk
    refine ⟨hoth, ?_⟩
    cases hc : f.color with
    | red =>
      rw [hc] at hk
      obtain ⟨hblk, -, htks, hk⟩ := hk
      refine ⟨hblk, by simp, ?_, ih hk⟩
      cases k with
      | nil =>
        intro g hg
        obtain rfl : (⟨d, c, y, u⟩ : Frame α) = g := Option.some.inj hg
        exact htks ⟨d, c, x, u⟩ rfl
      | cons g k => exact htks
    | black =>
      rw [hc] at hk
      exact ih hk

/-- Then the root is black. -/
lemma Fits.color (hk : Fits k n) (hne : k ≠ []) (t : ColorTree α) : (ColorTree.plug k t).color = .black := by
  induction k generalizing t n with
  | nil => exact absurd rfl hne
  | cons f k ih =>
    obtain ⟨-, hk⟩ := hk
    cases k with
    | nil =>
      cases hc : f.color with
      | red => simp [hc] at hk
      | black => simp [ColorTree.plug, Frame.attach, hc]
    | cons g k =>
      cases hc : f.color with
      | red =>
        rw [hc] at hk
        exact ih hk.2.2.2 (cons_ne_nil _ _) _
      | black =>
        rw [hc] at hk
        exact ih hk (cons_ne_nil _ _) _

end ColorTree

end OS01.Lib
