import OS01.Lib.RedBlack

/-!
# The red-black tree of the C library

`libc/rbtree/rbtree.c`: nodes with two child pointers, a parent pointer and a colour. The memory is a
map from nodes to their fields, over any type of nodes, and a pointer is an optional node. A function
returns `none` where the code would follow a null pointer or where its fuel does not suffice for a loop.

The code of each function for the left side and the one for the right side mirror each other; they are
one definition with the side as a parameter.
-/

namespace OS01.Libc

open Lib

/-- `rbtree_node_t`. -/
structure RbtreeNode (ν : Type*) where
  left : Option ν
  right : Option ν
  parent : Option ν
  color : Color
deriving DecidableEq

namespace RbtreeNode

variable {ν : Type*}

/-- The child on a side. -/
def child (d : Side) (n : RbtreeNode ν) : Option ν :=
  match d with
  | .left => n.left
  | .right => n.right

def setChild (d : Side) (p : Option ν) (n : RbtreeNode ν) : RbtreeNode ν :=
  match d with
  | .left => { n with left := p }
  | .right => { n with right := p }

end RbtreeNode

/-- `rbtree_root_t`, and the memory that holds the nodes. -/
structure Rbtree (ν : Type*) where
  rbNode : Option ν
  node : ν → RbtreeNode ν

/-- `link` in `rbtree_insert`: the address of the root pointer or of a child pointer. -/
inductive Link (ν : Type*)
  | root
  | child (p : ν) (d : Side)

/-- The result of the descent in `rbtree_insert`. -/
inductive Spot (ν : Type*)
  /-- A node with the same key. -/
  | conflict (p : ν)
  /-- A place for the new node. -/
  | vacant (parent : Option ν) (link : Link ν)

namespace Rbtree

variable {ν : Type*} [DecidableEq ν] (t : Rbtree ν)

/-- Changes the fields of a node. -/
def modify (x : ν) (f : RbtreeNode ν → RbtreeNode ν) : Rbtree ν :=
  { t with node := Function.update t.node x (f (t.node x)) }

/-- Changes the fields of a node, if there is one. -/
def modify? (p : Option ν) (f : RbtreeNode ν → RbtreeNode ν) : Rbtree ν :=
  match p with
  | none => t
  | some x => t.modify x f

def setChild (d : Side) (x : ν) (p : Option ν) : Rbtree ν := t.modify x (·.setChild d p)

def setParent (x : ν) (p : Option ν) : Rbtree ν := t.modify x ({ · with parent := p })

def setParent? (p : Option ν) (q : Option ν) : Rbtree ν := t.modify? p ({ · with parent := q })

def setColor (x : ν) (c : Color) : Rbtree ν := t.modify x ({ · with color := c })

/-- `is_red`. -/
def isRed (p : Option ν) : Bool := p.any fun x => (t.node x).color == .red

/-- `set_black`. -/
def setBlack (p : Option ν) : Rbtree ν := t.modify? p ({ · with color := .black })

/-- `set_red`. -/
def setRed (p : Option ν) : Rbtree ν := t.modify? p ({ · with color := .red })

variable (d : Side)

/-- Makes the pointer that points to `x` point elsewhere: the root pointer or that of the parent, whose
child on side `d` is looked at first. -/
def replaceChild (parent : Option ν) (x : ν) (p : Option ν) : Rbtree ν :=
  match parent with
  | none => { t with rbNode := p }
  | some q =>
    if (t.node q).child d = some x then t.setChild d q p else t.setChild d.flip q p

/-- The rotation towards side `d`. -/
def rotate (x : ν) : Option (Rbtree ν) := do
  let y ← (t.node x).child d.flip
  let parent := (t.node x).parent
  let t := t.setChild d.flip x ((t.node y).child d)
  let t := t.setParent? ((t.node y).child d) (some x)
  let t := t.setParent y parent
  let t := t.replaceChild d parent x (some y)
  let t := t.setChild d y (some x)
  some (t.setParent x (some y))

/-- `rotate_left`. -/
def rotateLeft (x : ν) : Option (Rbtree ν) := t.rotate .left x

/-- `rotate_right`. -/
def rotateRight (x : ν) : Option (Rbtree ν) := t.rotate .right x

/-! ## Insertion -/

/-- `*link`. -/
def deref : Link ν → Option ν
  | .root => t.rbNode
  | .child p d => (t.node p).child d

/-- `*link = p`. -/
def assign (p : Option ν) : Link ν → Rbtree ν
  | .root => { t with rbNode := p }
  | .child q d => t.setChild d q p

/-- The first loop of `rbtree_insert`. -/
def descend (cmp : ν → ν → Int) (x : ν) : Nat → Option ν → Link ν → Option (Spot ν)
  | 0, _, _ => none
  | fuel + 1, parent, link =>
    match t.deref link with
    | none => some (.vacant parent link)
    | some p =>
      let c := cmp x p
      if c < 0 then descend cmp x fuel (some p) (.child p .left)
      else if 0 < c then descend cmp x fuel (some p) (.child p .right)
      else some (.conflict p)

/-- One round of the second loop of `rbtree_insert`, where the parent `p` of `n` is red and on side `d`
of the grandparent `g`. -/
def insertRound (n p g : ν) : Option (Rbtree ν × ν) := do
  let uncle := (t.node g).child d.flip
  if t.isRed uncle then
    some (((t.setBlack (some p)).setBlack uncle).setRed (some g), g)
  else
    let (t, n) ← if (t.node p).child d.flip = some n then (t.rotate d p).map (·, p) else some (t, n)
    let t := t.setBlack (t.node n).parent
    let t := t.setRed (some g)
    (t.rotate d.flip g).map (·, n)

/-- The second loop of `rbtree_insert`. -/
def insertFixup : Nat → Rbtree ν → ν → Option (Rbtree ν)
  | 0, _, _ => none
  | fuel + 1, t, n =>
    match (t.node n).parent with
    | none => some t
    | some p =>
      if (t.node p).color = .red then do
        let g ← (t.node p).parent
        let d := if (t.node g).left = some p then Side.left else Side.right
        let (t, n) ← t.insertRound d n p g
        insertFixup fuel t n
      else some t

/-- `rbtree_insert`. -/
def rbtreeInsert (cmp : ν → ν → Int) (fuel : Nat) (x : ν) : Option (Rbtree ν × Option ν) := do
  match ← t.descend cmp x fuel none .root with
  | .conflict p => some (t, some p)
  | .vacant parent link =>
    let t := t.modify x fun _ => ⟨none, none, parent, .red⟩
    let t := t.assign (some x) link
    let t ← insertFixup fuel t x
    some (t.setBlack t.rbNode, none)

/-! ## Iteration -/

/-- The loop that goes down on side `d` as far as it can. -/
def extreme (d : Side) : Nat → ν → Option ν
  | 0, _ => none
  | fuel + 1, x =>
    match (t.node x).child d with
    | none => some x
    | some y => extreme d fuel y

/-- The loop that goes up as long as it comes from side `d`. -/
def climb (d : Side) : Nat → ν → Option ν → Option (Option ν)
  | 0, _, _ => none
  | fuel + 1, x, p =>
    match p with
    | none => some none
    | some q =>
      if (t.node q).child d = some x then climb d fuel q (t.node q).parent else some (some q)

/-- The first node on side `d`, if any. -/
def outermost (fuel : Nat) : Option (Option ν) :=
  match t.rbNode with
  | none => some none
  | some x => (t.extreme d fuel x).map some

/-- The next node away from side `d`, if any. -/
def neighbour (fuel : Nat) (x : ν) : Option (Option ν) :=
  match (t.node x).child d.flip with
  | some y => (t.extreme d fuel y).map some
  | none => t.climb d.flip fuel x (t.node x).parent

/-- `rbtree_first`. -/
def rbtreeFirst (fuel : Nat) : Option (Option ν) := t.outermost .left fuel

/-- `rbtree_next`. -/
def rbtreeNext (fuel : Nat) (x : ν) : Option (Option ν) := t.neighbour .left fuel x

/-- `rbtree_last`. -/
def rbtreeLast (fuel : Nat) : Option (Option ν) := t.outermost .right fuel

/-- `rbtree_prev`. -/
def rbtreePrev (fuel : Nat) (x : ν) : Option (Option ν) := t.neighbour .right fuel x

/-! ## Removal -/

/-- The end of a round of `rbtree_erase_fixup` that leaves the loop, where `s` is the sibling. -/
def eraseLast (p s : ν) : Option (Rbtree ν) :=
  let t := t.setColor s (t.node p).color
  let t := t.setBlack (some p)
  let t := t.setBlack ((t.node s).child d.flip)
  t.rotate d p

/-- A round of `rbtree_erase_fixup` once the sibling `s` is black. -/
def eraseBlack (p s : ν) : Option (Rbtree ν × Option (ν × Option ν)) :=
  if !t.isRed ((t.node s).child d) && !t.isRed ((t.node s).child d.flip) then
    let t := t.setRed (some s)
    some (t, some (p, (t.node p).parent))
  else do
    let (t, sibling) ←
      if !t.isRed ((t.node s).child d.flip) then
        (((t.setBlack ((t.node s).child d)).setRed (some s)).rotate d.flip s).map fun t =>
          (t, (t.node p).child d.flip)
      else some (t, some s)
    let s ← sibling
    (t.eraseLast d p s).map (·, none)

/-- One round of the loop of `rbtree_erase_fixup`, where `n` is the child of `p` on side `d`: the tree
with the new `n` and `p`, or the tree at the `break`. -/
def eraseRound (p : ν) : Option (Rbtree ν × Option (ν × Option ν)) := do
  let sibling := (t.node p).child d.flip
  let (t, sibling) ←
    if t.isRed sibling then
      (((t.setBlack sibling).setRed (some p)).rotate d p).map fun t => (t, (t.node p).child d.flip)
    else some (t, sibling)
  let s ← sibling
  t.eraseBlack d p s

/-- `rbtree_erase_fixup`. -/
def eraseFixup : Nat → Rbtree ν → Option ν → Option ν → Option (Rbtree ν)
  | 0, _, _, _ => none
  | fuel + 1, t, n, parent =>
    if !t.isRed n && decide (n ≠ t.rbNode) then do
      let p ← parent
      let d := if n = (t.node p).left then Side.left else Side.right
      match ← t.eraseRound d p with
      | (t, some (n, parent)) => eraseFixup fuel t (some n) parent
      | (t, none) => some (t.setBlack t.rbNode)
    else some (t.setBlack n)

/-- `succ` is below a child of `x`: it leaves its place to its right child and gets the children of `x`.
The second component is `parent`. -/
def adoptFar (x l r succ : ν) : Option (Rbtree ν × ν) := do
  let parent ← (t.node succ).parent
  let t :=
    if (t.node parent).left = some succ then t.setChild .left parent (t.node succ).right
    else t.setChild .right parent (t.node succ).right
  let t := t.setParent? (t.node succ).right (some parent)
  let t := t.setChild .left succ (t.node x).left
  let t := t.setParent l (some succ)
  let t := t.setChild .right succ (t.node x).right
  some (t.setParent r (some succ), parent)

/-- `succ` is a child of `x`: it gets the left child of `x`. -/
def adoptNear (x l succ : ν) : Rbtree ν × ν :=
  let t := t.setChild .left succ (t.node x).left
  (t.setParent l (some succ), succ)

/-- `succ` takes the place of `x`. -/
def takeOver (x succ : ν) : Rbtree ν :=
  let t := t.setParent succ (t.node x).parent
  let t := t.setColor succ (t.node x).color
  t.replaceChild .left (t.node x).parent x (some succ)

/-- The first half of `rbtree_erase` for a node with the two children `l` and `r`: its successor takes
its place. The result has the child and the parent of the place that is gone, and its colour. -/
def eraseInner (fuel : Nat) (x l r : ν) : Option (Rbtree ν × Option ν × Option ν × Color) := do
  let succ ← t.extreme .left fuel r
  let child := (t.node succ).right
  let color := (t.node succ).color
  let (t, parent) ←
    if (t.node succ).parent ≠ some x then t.adoptFar x l r succ else some (t.adoptNear x l succ)
  some (t.takeOver x succ, child, some parent, color)

/-- The first half of `rbtree_erase` for a node with at most one child, which takes its place. -/
def eraseOuter (x : ν) (child : Option ν) : Rbtree ν × Option ν × Option ν × Color :=
  let parent := (t.node x).parent
  let color := (t.node x).color
  let t := t.setParent? child parent
  (t.replaceChild .left parent x child, child, parent, color)

/-- `rbtree_erase`. -/
def rbtreeErase (fuel : Nat) (x : ν) : Option (Rbtree ν) := do
  let (t, child, parent, color) ←
    match (t.node x).left, (t.node x).right with
    | some l, some r => t.eraseInner fuel x l r
    | some l, none => some (t.eraseOuter x (some l))
    | none, child => some (t.eraseOuter x child)
  if color = .black then eraseFixup fuel t child parent else some t

end Rbtree

end OS01.Libc
