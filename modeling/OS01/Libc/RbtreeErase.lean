import OS01.Libc.RbtreeInsert

/-!
# Removal from the red-black tree

The first half of `rbtree_erase` takes the node out: one with at most one child is replaced by that
child (`eraseOuter_spec`), and one with two by its successor, which leaves its own place to its right
child (`eraseInner_spec`). If the place that is gone was black, the subtree there is one black node short,
and `rbtree_erase_fixup` moves that defect up the tree until it can be made good (`eraseFixup_spec`).
-/

namespace OS01.Libc

open RbtreeNode Rbtree List Lib Lib.ColorTree HoldsPath Side Color

variable {ν : Type*} {m : Rbtree ν} {k k₁ : List (Frame ν)} {s s₁ s₂ t l r e : ColorTree ν} {c c' : Color}
  {x y p q lp rp : ν} {d : Side} {n fuel : Nat}

/-! ## Trees and paths -/

lemma exists_root_plug (hne : k ≠ []) (t : ColorTree ν) : ∃ y ∈ pathNodes k, (plug k t).root = some y := by
  induction k generalizing t with
  | nil => exact absurd rfl hne
  | cons f k ih =>
    cases k with
    | nil => exact ⟨f.label, mem_pathNodes_cons.2 (.inl rfl), root_fork ..⟩
    | cons g k =>
      obtain ⟨y, hy, hr⟩ := ih (cons_ne_nil _ _) (f.attach t)
      exact ⟨y, mem_pathNodes_cons.2 (.inr (.inr hy)), hr⟩

/-- The root of the tree is above the end of a path. -/
lemma Shape.root_ne_rbNode (hs : Shape m k t) (hne : k ≠ []) : t.root ≠ m.rbNode := by
  have hr : m.rbNode = (plug k t).root := (shape_plug.1 hs).path
  obtain ⟨y, hy, hp⟩ := exists_root_plug hne t
  rw [hr, hp]
  exact fun ht => (nodup_plug_iff.1 hs.nodup).2.2 y (mem_of_root ht) hy

lemma shape_append : Shape m (k₁ ++ k) t ↔ Shape m k (plug k₁ t) := by
  rw [shape_plug, plug_append, ← shape_plug]

/-- The loop that goes down on one side ends at a node without a child there. -/
lemma extreme_spec (d : Side) (fuel : Nat) (hs : Shape m k t) (hx : t.root = some x)
    (hfl : t.toList.length ≤ fuel) : ∃ k₁ c y e, t = plug k₁ (fork d c .leaf y e) ∧ (∀ f ∈ k₁, f.side = d) ∧
      m.extreme d fuel x = some y := by
  induction fuel generalizing k t x with
  | zero =>
    have hmem := length_pos_of_mem (mem_of_root hx)
    omega
  | succ fuel ih =>
    obtain ⟨c, a, b, rfl⟩ : ∃ c a b, t = fork d c a x b := by
      cases t with
      | leaf => cases hx
      | node c l y r =>
        cases hx
        obtain ⟨a, b, hab⟩ := node_eq_fork d c l x r
        exact ⟨c, a, b, hab⟩
    have hch : (m.node x).child d = a.root := by rw [hs.node_fork, child_fork]
    cases ha : a.root with
    | none =>
      obtain rfl := eq_leaf_of_root ha
      refine ⟨[], c, x, b, rfl, fun f hf => (not_mem_nil hf).elim, ?_⟩
      simp only [extreme, hch]
      rfl
    | some y =>
      have hs' := (shape_cons (f := ⟨d, c, x, b⟩)).2 hs
      have hlen : a.toList.length ≤ fuel := by
        cases d <;> simp [join] at hfl <;> omega
      obtain ⟨k₁, c1, y1, e, rfl, hsd, hext⟩ := ih hs' ha hlen
      refine ⟨k₁ ++ [⟨d, c, x, b⟩], c1, y1, e, ?_, fun f hf => ?_, ?_⟩
      · rw [plug_append]
        rfl
      · obtain hf | hf := mem_append.1 hf
        · exact hsd f hf
        · obtain rfl : f = ⟨d, c, x, b⟩ := by simpa using hf
          rfl
      · simp only [extreme, hch, ha]
        exact hext

/-- The nodes when the successor stands in the place of `x`. -/
lemma toList_successor (k : List (Frame ν)) (c c' : Color) (l e : ColorTree ν) (y z : ν)
    (hs : ∀ f ∈ k₁, f.side = .left) : (plug k (node c l z (plug k₁ e))).toList =
      before k ++ l.toList ++ z :: (e.toList ++ after k₁ ++ after k) ∧
    (plug k (node c l z (plug k₁ (node c' .leaf y e)))).toList =
      before k ++ l.toList ++ z :: y :: (e.toList ++ after k₁ ++ after k) := by
  simp [toList_plug, toList, before_of_left hs]

/-- The subtree is one black node short of `n + 1`: it is black and can be made up for only above, or it
can be painted. -/
def Short (t : ColorTree ν) (n : Nat) : Prop :=
  t.color = .black ∧ RedBlack t n ∨ t.color = .red ∧ RedBlack (t.paint .black) (n + 1)

lemma short_of_redBlack (ht : RedBlack t n) : Short t n := by
  by_cases hred : t.color = .red
  · exact .inr ⟨hred, ht.paint_black_of_red hred⟩
  · exact .inl ⟨eq_black_of_ne hred, ht⟩

/-- How many rounds the loop may still take at a node, apart from those for the nodes above: a red one
is painted at the next test. -/
def rounds : Color → Nat
  | .red => 1
  | .black => 2

/-- What a round of the loop leaves: a tree with the nodes `l`, and fuel for `fuel` more rounds is
enough. -/
inductive RoundResult (l : List ν) (fuel : Nat) : Option (Rbtree ν × Option (ν × Option ν)) → Prop
  /-- The defect is one node higher, or the node there can be painted. -/
  | again {m : Rbtree ν} {k : List (Frame ν)} {t : ColorTree ν} {x : ν} {n : Nat}
      (hs : Shape m k t) (hx : t.root = some x) (ht : Short t n) (hk : Fits k (n + 1))
      (hlist : (plug k t).toList = l) (hlen : k.length + rounds t.color ≤ fuel) :
      RoundResult l fuel (some (m, some (x, above k)))
  /-- The defect is gone. -/
  | done {m : Rbtree ν} (h : Restored m l) : RoundResult l fuel (some (m, none))

lemma RoundResult.mono {l : List ν} {fuel' : Nat} {r : Option (Rbtree ν × Option (ν × Option ν))}
    (h : RoundResult l fuel r) (hle : fuel ≤ fuel') : RoundResult l fuel' r := by
  cases h with
  | again hs hx ht hk hl hlen => exact .again hs hx ht hk hl (by omega)
  | done h => exact .done h

/-- Two black trees at the place of a node and its sibling. -/
lemma restored_of_black (hs : Shape m k (fork d c l y r))
    (hl : RedBlack l (n + 1)) (hlc : l.color = .black) (hr : RedBlack r (n + 1))
    (hrc : r.color = .black) (hk : Fits (⟨d, c, p, s⟩ :: k) (n + 1)) :
    Restored m (plug k (fork d c l y r)).toList := by
  obtain ⟨-, hk⟩ := hk
  cases c with
  | red =>
    obtain ⟨-, -, htks, hk⟩ := hk
    exact restored_of_fits hs (redBlack_fork_red.2 ⟨hlc, hrc, hl, hr⟩) hk fun _ => htks
  | black =>
    exact restored_of_fits hs (redBlack_fork_black.2 ⟨n + 1, rfl, hl, hr⟩) hk fun hred => by
      simp at hred

/-! ## The loop -/

variable [DecidableEq ν]

/-- The last step: the sibling goes up and takes the colour of the parent. -/
lemma eraseLast_spec (hs : Shape m k (fork d c t p (fork d c' s₁ q s₂))) : ∃ m', m.eraseLast d p q = some m' ∧
      Shape m' k (fork d c (fork d .black t p s₁) q (s₂.paint .black)) := by
  have hcol : (m.node p).color = c := by rw [hs.node_fork, RbtreeNode.color_fork]
  have hs1 := hs.paint_other c
  rw [root_fork, paint_fork] at hs1
  have hs2 := hs1.paint .black
  rw [root_fork, paint_fork] at hs2
  -- the child of the sibling, seen from the sibling
  have hq := (shape_cons (f := ⟨d.flip, .black, p, t⟩)).2 (by rwa [Frame.attach, fork_flip])
  have hch : (((m.setColor q c).setBlack (some p)).node q).child d.flip = s₂.root := by
    have hn := hq.node_fork
    exact (congrArg (child d.flip) hn).trans child_flip_fork
  have hs3 := shape_cons.1 (hq.paint_other .black)
  rw [Frame.attach, fork_flip] at hs3
  obtain ⟨m', hrot, hs'⟩ := hs3.rotate
  refine ⟨m', ?_, hs'⟩
  simp only [eraseLast, hcol, hch]
  exact hrot

/-- Only the child on the near side is red: it first goes above the sibling. -/
lemma eraseBlack_inner {a b : ColorTree ν}
    (hs : Shape m k (fork d c t p (fork d .black (fork d .red a y b) q s₂)))
    (h₂ : s₂.color = .black) : ∃ m', m.eraseBlack d p q = some (m', none) ∧
      Shape m' k (fork d c (fork d .black t p a) y (fork d .black b q s₂)) := by
  obtain ⟨-, -, hsib⟩ := holds_fork.1 hs.tree
  obtain ⟨hq, hs1, hs2⟩ := holds_fork.1 hsib
  -- the rotation at the sibling
  have hq1 := ((shape_cons (f := ⟨d.flip, c, p, t⟩)).2 (by rwa [Frame.attach, fork_flip])).paint_child .black
  rw [root_fork, paint_fork] at hq1
  have hq2 := hq1.paint .red
  rw [root_fork, paint_fork, ← fork_flip, ← fork_flip d] at hq2
  obtain ⟨m1, hrot, hq3⟩ := hq2.rotate
  have hs3 := shape_cons.1 hq3
  rw [Frame.attach, fork_flip, fork_flip, fork_flip] at hs3
  have hch : (m1.node p).child d.flip = some y := by
    rw [hs3.node_fork, child_flip_fork, root_fork]
  obtain ⟨m', hl, hs'⟩ := eraseLast_spec hs3
  rw [paint_fork] at hs'
  refine ⟨m', ?_, hs'⟩
  have hrot' : ((m.setBlack (some y)).setRed (some q)).rotate d.flip q = some m1 := hrot
  have hred : m.isRed (some y) = true := by simpa using hs1.isRed
  simp [eraseBlack, hq, hred, hs2.isRed, h₂, hrot', hch, hl]

section

variable (hs : Shape m k (fork d c t p (fork d .black s₁ q s₂)))
include hs

/-- The sibling has no red child: it becomes red. -/
lemma eraseBlack_recolour
    (h₁ : s₁.color = .black) (h₂ : s₂.color = .black) :
    ∃ m', m.eraseBlack d p q = some (m', some (p, above k)) ∧
      Shape m' k (fork d c t p (fork d .red s₁ q s₂)) := by
  obtain ⟨-, -, hsib⟩ := holds_fork.1 hs.tree
  obtain ⟨hq, hs1, hs2⟩ := holds_fork.1 hsib
  have hs' := hs.paint_other .red
  rw [root_fork, paint_fork] at hs'
  have hpar : ((m.setRed (some q)).node p).parent = above k := hs'.tree.parent (root_fork ..)
  refine ⟨m.setRed (some q), ?_, hs'⟩
  simp [eraseBlack, hq, hs1.isRed, hs2.isRed, h₁, h₂, hpar]

/-- The child of the sibling on the far side is red. -/
lemma eraseBlack_outer (h₂ : s₂.color = .red) :
    ∃ m', m.eraseBlack d p q = some (m', none) ∧
      Shape m' k (fork d c (fork d .black t p s₁) q (s₂.paint .black)) := by
  obtain ⟨-, -, hsib⟩ := holds_fork.1 hs.tree
  obtain ⟨hq, hs1, hs2⟩ := holds_fork.1 hsib
  obtain ⟨m', hl, hs'⟩ := eraseLast_spec hs
  refine ⟨m', ?_, hs'⟩
  simp [eraseBlack, hq, hs2.isRed, h₂, hl]

/-- A round with a black sibling. -/
lemma eraseBlack_spec (ht : RedBlack t n)
    (h₁ : RedBlack s₁ n) (h₂ : RedBlack s₂ n) (hk : Fits (⟨d, c, p, fork d .black s₁ q s₂⟩ :: k) (n + 1)) :
    RoundResult (plug k (fork d c t p (fork d .black s₁ q s₂))).toList (k.length + rounds c)
      (m.eraseBlack d p q) := by
  by_cases hc2 : s₂.color = .red
  · obtain ⟨m', hrnd, hs'⟩ := eraseBlack_outer hs hc2
    have hl : (plug k (fork d c t p (fork d .black s₁ q s₂))).toList =
        (plug k (fork d c (fork d .black t p s₁) q (s₂.paint .black))).toList := by
      rw [toList_plug, toList_plug]
      cases d <;> simp [join]
    rw [hrnd, hl]
    exact .done (restored_of_black hs' (redBlack_fork_black.2 ⟨n, rfl, ht, h₁⟩) color_fork
      (h₂.paint_black_of_red hc2) color_paint_black hk)
  have hc2' : s₂.color = .black := eq_black_of_ne hc2
  by_cases hc1 : s₁.color = .red
  · obtain ⟨a, y, b, rfl⟩ := exists_fork_of_red hc1 d
    obtain ⟨-, -, ha, hb⟩ := redBlack_fork_red.1 h₁
    obtain ⟨m', hrnd, hs'⟩ := eraseBlack_inner hs hc2'
    have hl : (plug k (fork d c t p (fork d .black (fork d .red a y b) q s₂))).toList =
        (plug k (fork d c (fork d .black t p a) y (fork d .black b q s₂))).toList := by
      rw [toList_plug, toList_plug]
      cases d <;> simp [join]
    rw [hrnd, hl]
    exact .done (restored_of_black hs' (redBlack_fork_black.2 ⟨n, rfl, ht, ha⟩) color_fork
      (redBlack_fork_black.2 ⟨n, rfl, hb, h₂⟩) color_fork hk)
  · have hc1' : s₁.color = .black := eq_black_of_ne hc1
    obtain ⟨m', hrnd, hs'⟩ := eraseBlack_recolour hs hc1' hc2'
    have hblk : RedBlack (fork d .black t p (fork d .red s₁ q s₂)) (n + 1) :=
      redBlack_fork_black.2 ⟨n, rfl, ht, redBlack_fork_red.2 ⟨hc1', hc2', h₁, h₂⟩⟩
    have hl : (plug k (fork d c t p (fork d .red s₁ q s₂))).toList =
        (plug k (fork d c t p (fork d .black s₁ q s₂))).toList := by
      rw [toList_plug, toList_plug]
      simp
    rw [hrnd]
    obtain ⟨-, hk⟩ := hk
    cases c with
    | red =>
      have hsht : Short (fork d .red t p (fork d .red s₁ q s₂)) n := .inr ⟨color_fork, by rwa [paint_fork]⟩
      exact .again hs' (root_fork ..) hsht hk.2.2.2 hl (by simp)
    | black =>
      exact .again hs' (root_fork ..) (.inl ⟨color_fork, hblk⟩) hk hl (by simp)

end

/-- A round. -/
lemma eraseRound_spec (hs : Shape m k (fork d c t p s)) (ht : RedBlack t n)
    (hk : Fits (⟨d, c, p, s⟩ :: k) (n + 1)) :
    RoundResult (plug k (fork d c t p s)).toList (k.length + 2) (m.eraseRound d p) := by
  obtain ⟨cs, s₁, q, s₂, rfl⟩ := hk.1.exists_fork d
  have hsib : (m.node p).child d.flip = some q := by
    rw [hs.node_fork, child_flip_fork, root_fork]
  obtain ⟨-, -, hq⟩ := holds_fork.1 hs.tree
  have hred : m.isRed (some q) = decide (cs = .red) := by simpa using hq.isRed
  cases cs with
  | black =>
    obtain ⟨n', hn', h1, h2⟩ := redBlack_fork_black.1 hk.1
    obtain rfl : n = n' := by omega
    have hrnd : m.eraseRound d p = m.eraseBlack d p q := by
      simp [eraseRound, hsib, hred]
    rw [hrnd]
    have hle : rounds c ≤ 2 := by cases c <;> decide
    exact (eraseBlack_spec hs ht h1 h2 hk).mono (by omega)
  | red =>
    obtain ⟨hc1, hc2, h1, h2⟩ := redBlack_fork_red.1 hk.1
    obtain rfl : c = .black := eq_black_of_ne fun hc => by
      subst hc
      simpa using hk.2.1
    -- the sibling goes above the parent, and its near child is the new sibling
    have hs1 := hs.paint_other .black
    rw [root_fork, paint_fork] at hs1
    have hs2 := hs1.paint .red
    rw [root_fork, paint_fork] at hs2
    obtain ⟨m1, hrot, hs3⟩ := hs2.rotate
    obtain ⟨cs, a, y, b, rfl⟩ := h1.exists_fork d
    obtain rfl : cs = .black := by simpa using hc1
    obtain ⟨n', hn', ha, hb⟩ := redBlack_fork_black.1 h1
    obtain rfl : n = n' := by omega
    have hs4 := (shape_cons (f := ⟨d, .black, q, s₂⟩)).2 hs3
    have hsib1 : (m1.node p).child d.flip = some y := by
      rw [hs4.node_fork, child_flip_fork, root_fork]
    have hrnd : m.eraseRound d p = m1.eraseBlack d p y := by
      have hrot' : ((m.setBlack (some q)).setRed (some p)).rotate d p = some m1 := hrot
      simp [eraseRound, hsib, hred, hrot', hsib1]
    have hft : Fits (⟨d, .red, p, fork d .black a y b⟩ :: ⟨d, .black, q, s₂⟩ :: k) (n + 1) := by
      refine ⟨h1, color_fork, cons_ne_nil _ _, fun f hf => ?_, h2, hk.2⟩
      obtain rfl : (⟨d, .black, q, s₂⟩ : Frame ν) = f := by simpa using hf
      rfl
    have hl : (plug (⟨d, .black, q, s₂⟩ :: k) (fork d .red t p (fork d .black a y b))).toList =
        (plug k (fork d .black t p (fork d .red (fork d .black a y b) q s₂))).toList := by
      rw [plug, Frame.attach, toList_plug, toList_plug]
      cases d <;> simp [join]
    rw [hrnd, ← hl]
    exact eraseBlack_spec hs4 ht ha hb hft

/-- The loop of `rbtree_erase_fixup`, from a subtree that is one black node short. -/
lemma eraseFixup_spec (fuel : Nat) (hs : Shape m k t) (ht : Short t n) (hk : Fits k (n + 1))
    (hf : k.length + rounds t.color ≤ fuel) :
    ∃ m' t', eraseFixup fuel m t.root (above k) = some m' ∧ Shape m' [] t' ∧
      t'.toList = (plug k t).toList ∧ (∃ n', RedBlack t' n') ∧ t'.color = .black := by
  induction fuel generalizing m k t n with
  | zero => cases hc : t.color <;> simp [hc, rounds] at hf
  | succ fuel ih =>
    have hpaint := shape_plug.1 (hs.paint .black)
    have hl : (plug k (t.paint .black)).toList = (plug k t).toList := by
      rw [toList_plug, toList_plug, toList_paint]
    obtain ⟨hc, ht⟩ | ⟨hc, ht⟩ := ht
    · cases k with
      | nil =>
        have hrt : t.root = m.rbNode := hs.path.symm
        refine ⟨m.setBlack t.root, t.paint .black, ?_, hpaint, hl, ht.paint_black, color_paint_black⟩
        simp [eraseFixup, hrt]
      | cons f k =>
        obtain ⟨d, c, p, s⟩ := f
        have hs' : Shape m k (fork d c t p s) := shape_cons.1 hs
        obtain ⟨cs, a, q, b, hfr⟩ := hk.1.exists_fork d
        have hne : t.root ≠ s.root := fun heq => by
          rw [← fork_flip] at hs'
          exact hs'.root_ne (hfr ▸ root_fork ..) heq.symm
        have hsd : (if t.root = (m.node p).left then Side.left else Side.right) = d := by
          have hiff := hs'.left_eq_iff hne
          by_cases hd : d = .left
          · rw [if_pos (hiff.2 hd).symm, hd]
          · rw [if_neg fun h => hd (hiff.1 h.symm)]
            cases d <;> simp_all
        have hcn : (!m.isRed t.root && decide (t.root ≠ m.rbNode)) = true := by
          simp [hs.tree.isRed, hc, hs.root_ne_rbNode (cons_ne_nil _ _)]
        have hrnd := eraseRound_spec hs' ht hk
        generalize hr : m.eraseRound d p = r at hrnd
        cases hrnd with
        | again hs1 hx1 ht1 hk1 hl1 hlen =>
          simp only [length_cons, hc, rounds] at hf
          obtain ⟨m', t', hfix, h'⟩ := ih hs1 ht1 hk1 (by omega)
          rw [hl1] at h'
          refine ⟨m', t', ?_, h'⟩
          rw [hx1] at hfix
          simp only [eraseFixup, hcn, above, head?_cons, Option.map_some,
            Option.bind_eq_bind, Option.bind_some, hsd, hr]
          exact hfix
        | done h =>
          rename_i m'
          obtain ⟨t', n', hs1, hl1, hrb⟩ := h
          refine ⟨m'.setBlack m'.rbNode, t'.paint .black, ?_, ?_, ?_, ⟨n', hrb⟩, color_paint_black⟩
          · simp only [eraseFixup, hcn, if_true, above, head?_cons, Option.map_some,
              Option.bind_eq_bind, Option.bind_some, hsd, hr]
          · have hrt : m'.rbNode = t'.root := hs1.path
            rw [hrt]
            exact hs1.paint .black
          · rw [toList_paint, hl1]
            rfl
    · have hcn : (!m.isRed t.root && decide (t.root ≠ m.rbNode)) = false := by
        simp [hs.tree.isRed, hc]
      refine ⟨m.setBlack t.root, plug k (t.paint .black), ?_, hpaint, hl, hk.plug ht (by simp), ?_⟩
      · simp only [eraseFixup, hcn, Bool.false_eq_true, if_false]
      · cases k with
        | nil => exact color_paint_black
        | cons f k => exact hk.color (cons_ne_nil _ _) _

/-! ## Taking the node out -/

/-- What `rbtree_erase` needs of its first half: the subtree `e` is where a node of colour `c` with `e`
as its only child was. -/
structure TakenOut (m : Rbtree ν) (k : List (Frame ν)) (e : ColorTree ν) (c : Color) : Prop where
  shape : Shape m k e
  fits : ∃ n, Fits k n ∧ ∃ y, RedBlack (fork .left c e y .leaf) n
  red : c = .red → k ≠ []

/-- The second half of `rbtree_erase`. -/
lemma TakenOut.finish (h : TakenOut m k e c) (fuel : Nat) (hf : k.length + 2 ≤ fuel) :
    ∃ m' t', (if c = .black then eraseFixup fuel m e.root (above k) else some m) = some m' ∧
      Shape m' [] t' ∧ t'.toList = (plug k e).toList ∧ (∃ n', RedBlack t' n') ∧ t'.color = .black := by
  obtain ⟨hs, ⟨n, hk, y, hrb⟩, hred⟩ := h
  cases c with
  | black =>
    obtain ⟨n', rfl, he, -⟩ := redBlack_fork_black.1 hrb
    have hle : rounds e.color ≤ 2 := by cases e.color <;> decide
    exact eraseFixup_spec fuel hs (short_of_redBlack he) hk (by omega)
  | red =>
    obtain ⟨hec, -, he, -⟩ := redBlack_fork_red.1 hrb
    exact ⟨m, plug k e, rfl, shape_plug.1 hs, rfl, hk.plug he (by simp [hec]), hk.color (hred rfl) e⟩

/-- A node with at most one child. -/
lemma eraseOuter_spec (hs : Shape m k (fork d c e x .leaf)) :
    Shape (m.eraseOuter x e.root).1 k e ∧ (m.eraseOuter x e.root).2 = (e.root, above k, c) := by
  obtain ⟨hk, ht, hn⟩ := hs
  obtain ⟨hx, he, -⟩ := holds_fork.1 ht
  obtain ⟨hnk, hnt, hd⟩ := nodup_plug_iff.1 hn
  obtain ⟨hne, -, hxe, -⟩ := nodup_fork_iff.1 hnt
  simp only [mem_fork] at hd
  rw [root_fork] at hk
  have hxk : x ∉ pathNodes k := hd x (.inl rfl)
  have hr1 : (m.setParent? e.root (above k)).rbNode = m.rbNode := modify?_rbNode
  have hk1 : HoldsPath (m.setParent? e.root (above k)).node (m.setParent? e.root (above k)).rbNode k
      (some x) := by
    rw [hr1]
    refine congr (fun z hz => ?_) hk
    exact modify?_node_of_ne fun hr => hd z (.inr (.inl (mem_of_root hr))) hz
  have heq := replaceChild_eq hk1 hxk .left e.root
  obtain ⟨hp, hkp⟩ := hk1.assign hnk e.root
  have hpar : (m.node x).parent = above k := by rw [hx, parent_fork]
  have hcol : (m.node x).color = c := by rw [hx, RbtreeNode.color_fork]
  simp only [eraseOuter, hpar, hcol, heq, and_true]
  refine ⟨hp, ?_, nodup_plug_iff.2 ⟨hnk, hne, fun y hy => hd y (.inr (.inl hy))⟩⟩
  exact (he.setParent? hne).congr fun z hz => hkp z (hd z (.inr (.inl hz)))

/-- The node `y` has the children of `x`, which is still in its place. -/
structure Adopted (m : Rbtree ν) (k : List (Frame ν)) (c : Color) (l : ColorTree ν) (x y : ν)
    (r : ColorTree ν) : Prop where
  path : HoldsPath m.node m.rbNode k (some x)
  place : (m.node x).parent = above k ∧ (m.node x).color = c
  children : (m.node y).left = l.root ∧ (m.node y).right = r.root
  left : Holds m.node (some y) l
  right : Holds m.node (some y) r

/-- `y` takes the place of `x`. -/
lemma Adopted.takeOver (h : Adopted m k c l x y r) (hxy : x ≠ y)
    (hxk : x ∉ pathNodes k) (hn : (plug k (node c l y r)).toList.Nodup) :
    Shape (m.takeOver x y) k (node c l y r) := by
  obtain ⟨hk, ⟨hpar, hcol⟩, ⟨hlf, hrt⟩, hl, hr⟩ := h
  obtain ⟨hnk, hnt, hd⟩ := nodup_plug_iff.1 hn
  obtain ⟨-, -, hyl, hyr, -⟩ := (nodup_fork_iff (d := .left) (c := c)).1 hnt
  have hyk : y ∉ pathNodes k := hd y (by simp [toList])
  -- the fields of `y` alone are set
  let m1 := (m.setParent y (above k)).setColor y c
  have hm1 {z : ν} (hz : z ≠ y) : m1.node z = m.node z := (modify_node_of_ne hz).trans (modify_node_of_ne hz)
  have ht : m.takeOver x y = m1.replaceChild .left (above k) x (some y) := by
    have hx1 : (m.setParent y (above k)).node x = m.node x := modify_node_of_ne hxy
    have hx2 : m1.node x = m.node x := hm1 hxy
    simp only [Rbtree.takeOver, hpar, hx1, hcol]
    rw [hx2, hpar]
  have hk1 : HoldsPath m1.node m1.rbNode k (some x) := congr (fun z hz => hm1 fun h => hyk (h ▸ hz)) hk
  obtain ⟨hp, hkp⟩ := hk1.assign hnk (some y)
  rw [ht, replaceChild_eq hk1 hxk]
  refine ⟨hp, ⟨?_, hl.congr fun z hz => ?_, hr.congr fun z hz => ?_⟩, hn⟩
  · rw [hkp y hyk, ← hlf, ← hrt]
    simp [m1, setColor, setParent]
  · rw [hkp z (hd z (by simp [toList, hz])), hm1 fun h => hyl (h ▸ hz)]
  · rw [hkp z (hd z (by simp [toList, hz])), hm1 fun h => hyr (h ▸ hz)]

/-- `y` is the right child of `x`. -/
lemma adoptNear_spec (hs : Shape m k (node c l x (node c' .leaf y e))) (hlp : l.root = some lp) :
    Adopted (m.adoptNear x lp y).1 k c l x y e ∧ (m.adoptNear x lp y).2 = y := by
  obtain ⟨hk, ⟨hx, hl, hy, -, he⟩, hn⟩ := hs
  obtain ⟨hnk, hnt, hd⟩ := nodup_plug_iff.1 hn
  obtain ⟨hnl, hnr, hxl, hxr, hlr⟩ := (nodup_fork_iff (d := .left) (c := c)).1 hnt
  obtain ⟨-, -, -, hye, -⟩ := (nodup_fork_iff (d := .left) (c := c')).1 hnr
  have hyl : y ∉ l.toList := fun h => hlr y h (by simp [toList])
  have hxy : x ≠ y := fun h => hxr (by simp [toList, h])
  have hrt {z : ν} (hz : z ∉ l.toList) : l.root ≠ some z := fun hr => hz (mem_of_root hr)
  let m1 := m.setChild .left y l.root
  let m2 := m1.setParent? l.root (some y)
  have hm1 {z : ν} (hz : z ≠ y) : m1.node z = m.node z := modify_node_of_ne hz
  have hm2 {z : ν} (hz : z ∉ l.toList) : m2.node z = m1.node z := modify?_node_of_ne (hrt hz)
  have hadopt : m.adoptNear x lp y = (m2, y) := by
    simp only [adoptNear, hx, m2, m1, hlp]
    rfl
  rw [hadopt]
  refine ⟨⟨?_, ?_, ?_, ?_, he.congr fun z hz => ?_⟩, rfl⟩
  · have hr2 : m2.rbNode = m.rbNode := modify?_rbNode
    rw [hr2]
    refine congr (fun z hz => ?_) hk
    have hzl : z ∉ l.toList := fun h => hd z (by simp [toList, h]) hz
    have hzy : z ≠ y := fun h => hd y (by simp [toList]) (h ▸ hz)
    rw [hm2 hzl, hm1 hzy]
  · rw [hm2 hxl, hm1 hxy, hx]
    exact ⟨rfl, rfl⟩
  · rw [hm2 hyl, setChild_node_self, hy]
    exact ⟨rfl, rfl⟩
  · have hl1 : Holds m1.node (some x) l := hl.congr fun z hz => hm1 fun h => hyl (h ▸ hz)
    exact hl1.setParent? hnl
  · have hzl : z ∉ l.toList := fun h => hlr z h (by simp [toList, hz])
    have hzy : z ≠ y := fun h => hye (h ▸ hz)
    rw [hm2 hzl, hm1 hzy]

/-- A node leaves its place to its child. -/
lemma Shape.detach (hs : Shape m k (node c .leaf y e)) :
    Shape ((m.assign e.root (linkOf k)).setParent? e.root (above k)) k e ∧
      (m.assign e.root (linkOf k)).node y = m.node y ∧
      ((m.assign e.root (linkOf k)).setParent? e.root (above k)).node y = m.node y := by
  obtain ⟨hk, ⟨hy, -, he⟩, hn⟩ := hs
  obtain ⟨hnk, hnt, hd⟩ := nodup_plug_iff.1 hn
  obtain ⟨-, hne, -, hye, -⟩ := (nodup_fork_iff (d := .left) (c := c)).1 hnt
  have hek {z : ν} (hz : z ∈ e.toList) : z ∉ pathNodes k := hd z (by simp [toList, hz])
  obtain ⟨hp, hkp⟩ := hk.assign hnk e.root
  have hy1 : (m.assign e.root (linkOf k)).node y = m.node y := hkp y (hd y (by simp [toList]))
  refine ⟨⟨?_, ?_, nodup_plug_iff.2 ⟨hnk, hne, fun z hz => hek hz⟩⟩, hy1, ?_⟩
  · have hrt : ((m.assign e.root (linkOf k)).setParent? e.root (above k)).rbNode =
        (m.assign e.root (linkOf k)).rbNode := modify?_rbNode
    rw [hrt]
    exact hp.congr fun z hz => modify?_node_of_ne fun hr => hek (mem_of_root hr) hz
  · have he1 : Holds (m.assign e.root (linkOf k)).node (some y) e := he.congr fun z hz => hkp z (hek hz)
    exact he1.setParent? hne
  · exact (modify?_node_of_ne fun hr => hye (mem_of_root hr)).trans hy1

/-- A node outside the tree gets the children of `x`. -/
lemma Shape.adopt (hs : Shape m k (node c l x r)) (hy : y ∉ (plug k (node c l x r)).toList) :
    Adopted ((((m.setChild .left y l.root).setParent? l.root (some y)).setChild .right y
      r.root).setParent? r.root (some y)) k c l x y r := by
  obtain ⟨hk, ⟨hx, hl, hr⟩, hn⟩ := hs
  obtain ⟨hnk, hnt, hd⟩ := nodup_plug_iff.1 hn
  obtain ⟨hnl, hnr, hxl, hxr, hlr⟩ := (nodup_fork_iff (d := .left) (c := c)).1 hnt
  simp only [toList_plug, toList, mem_append, mem_cons, not_or] at hy
  obtain ⟨⟨hyb, hyl, hyx, hyr⟩, hya⟩ := hy
  have hyk : y ∉ pathNodes k := by simp [pathNodes, hyb, hya]
  have hrt {t : ColorTree ν} {z : ν} (hz : z ∉ t.toList) : t.root ≠ some z := fun h => hz (mem_of_root h)
  let m1 := m.setChild .left y l.root
  let m2 := m1.setParent? l.root (some y)
  let m3 := m2.setChild .right y r.root
  let m4 := m3.setParent? r.root (some y)
  have hm1 {z : ν} (hz : z ≠ y) : m1.node z = m.node z := modify_node_of_ne hz
  have hm2 {z : ν} (hz : z ∉ l.toList) : m2.node z = m1.node z := modify?_node_of_ne (hrt hz)
  have hm3 {z : ν} (hz : z ≠ y) : m3.node z = m2.node z := modify_node_of_ne hz
  have hm4 {z : ν} (hz : z ∉ r.toList) : m4.node z = m3.node z := modify?_node_of_ne (hrt hz)
  have hrs {z : ν} (hzy : z ≠ y) (hzl : z ∉ l.toList) (hzr : z ∉ r.toList) :
      m4.node z = m.node z := by rw [hm4 hzr, hm3 hzy, hm2 hzl, hm1 hzy]
  refine ⟨?_, ?_, ?_, ?_, ?_⟩
  · have hr2 : m2.rbNode = m.rbNode := modify?_rbNode (m := m1)
    have hroot4 : m4.rbNode = m.rbNode := (modify?_rbNode (m := m3)).trans hr2
    rw [hroot4]
    refine congr (fun z hz => hrs (fun h => hyk (h ▸ hz)) ?_ ?_) hk
    all_goals exact fun h => hd z (by simp [toList, h]) hz
  · rw [hrs (Ne.symm hyx) hxl hxr, hx]
    exact ⟨rfl, rfl⟩
  · rw [hm4 hyr, setChild_node_self, hm2 hyl, setChild_node_self]
    exact ⟨rfl, rfl⟩
  · have hl1 : Holds m1.node (some x) l := hl.congr fun z hz => hm1 fun h => hyl (h ▸ hz)
    have hl2 : Holds m2.node (some y) l := hl1.setParent? hnl
    exact hl2.congr fun z hz => by rw [hm4 (hlr z hz), hm3 fun h => hyl (h ▸ hz)]
  · have hr3 : Holds m3.node (some x) r := hr.congr fun z hz => by
      rw [hm3 fun h => hyr (h ▸ hz), hm2 fun h => hlr z h hz, hm1 fun h => hyr (h ▸ hz)]
    exact hr3.setParent? hnr

/-- `y` is further down: its place goes to its child. -/
lemma adoptFar_spec {f : Frame ν}
    (hs : Shape m (f :: k₁ ++ ⟨.right, c, x, l⟩ :: k) (node c' .leaf y e)) (hf : f.side = .left)
    (hlp : l.root = some lp) (hrp : (plug (f :: k₁) e).root = some rp) :
    ∃ m', m.adoptFar x lp rp y = some (m', f.label) ∧ Adopted m' k c l x y (plug (f :: k₁) e) := by
  -- the memory after the first two assignments
  let m1 := m.setChild .left f.label e.root
  let m2 := m1.setParent? e.root (some f.label)
  have hassign : m.assign e.root (linkOf (f :: k₁ ++ ⟨.right, c, x, l⟩ :: k)) = m1 := by
    show m.setChild f.side f.label e.root = m1
    rw [hf]
  obtain ⟨hs2, hy1, -⟩ := hs.detach
  rw [hassign] at hs2 hy1
  have hx2 : Shape m2 k (node c l x (plug (f :: k₁) e)) := shape_cons.1 (shape_append.1 hs2)
  have hy : y ∉ (plug k (node c l x (plug (f :: k₁) e))).toList := by
    obtain ⟨-, hn, hd⟩ := nodup_plug_iff.1 hs.nodup
    obtain ⟨-, -, -, hye, -⟩ := (nodup_fork_iff (d := .left) (c := c')).1 hn
    have hmem : (plug k (node c l x (plug (f :: k₁) e))).toList =
        (plug (f :: k₁ ++ ⟨.right, c, x, l⟩ :: k) e).toList := by
      rw [plug_append]
      rfl
    have hyk := hd y (by simp [toList])
    rw [hmem, toList_plug]
    simp only [pathNodes, mem_append, not_or] at hyk ⊢
    exact ⟨⟨hyk.1, hye⟩, hyk.2⟩
  refine ⟨_, ?_, hx2.adopt hy⟩
  -- what the code reads
  have hnd : m.node y = ⟨none, e.root, some f.label, c'⟩ := hs.tree.1
  have hn1 : (m1.node y).right = e.root := by rw [hy1, hnd]
  have hsd : (m.node f.label).left = some y := by
    have hlab := hs.path.1
    rw [hf] at hlab
    rw [hlab]
    rfl
  have hxnode : m2.node x = ⟨l.root, (plug (f :: k₁) e).root, above k, c⟩ := hx2.tree.1
  have hxnode4 : ((m2.setChild .left y l.root).setParent lp (some y)).node x = m2.node x := by
    obtain ⟨-, hn, -⟩ := nodup_plug_iff.1 hx2.nodup
    obtain ⟨-, -, hxl, -⟩ := (nodup_fork_iff (d := .left) (c := c)).1 hn
    have hxlp : x ≠ lp := fun h => hxl (mem_of_root (h ▸ hlp))
    have hxy : x ≠ y := fun h => hy (by simp [toList_plug, toList, h])
    exact (modify_node_of_ne hxlp).trans (modify_node_of_ne hxy)
  have hfst : m.adoptFar x lp rp y = some (((((m2.setChild .left y (m2.node x).left).setParent lp
      (some y)).setChild .right y (((m2.setChild .left y (m2.node x).left).setParent lp
        (some y)).node x).right).setParent rp (some y)), f.label) := by
    simp only [adoptFar, hnd, hsd, if_true, Option.bind_eq_bind, Option.bind_some]
    rw [show ((m.setChild .left f.label e.root).node y).right = e.root from hn1]
  rw [hfst, hxnode]
  rw [hxnode4, hxnode, hlp, hrp]
  rfl

/-- A node with two children. -/
lemma eraseInner_spec (hs : Shape m k (node c l x r))
    (hlp : l.root = some lp) (hrp : r.root = some rp) (hf : r.toList.length ≤ fuel) :
    ∃ k₁ c' y e m', r = plug k₁ (node c' .leaf y e) ∧ (∀ f ∈ k₁, f.side = .left) ∧
      m.eraseInner fuel x lp rp = some (m', e.root, above (k₁ ++ ⟨.right, c, y, l⟩ :: k), c') ∧
      Shape m' (k₁ ++ ⟨.right, c, y, l⟩ :: k) e := by
  have hs1 : Shape m (⟨.right, c, x, l⟩ :: k) r := shape_cons.2 hs
  obtain ⟨k₁, c', y, e, rfl, hsd, hext⟩ := extreme_spec .left fuel hs1 hrp hf
  change Shape m k (node c l x (plug k₁ (node c' .leaf y e))) at hs
  have hnd : m.node y = ⟨none, e.root, above (k₁ ++ ⟨.right, c, x, l⟩ :: k), c'⟩ :=
    (shape_append.2 hs1).tree.1
  -- the nodes without `x`
  obtain ⟨hnew, -⟩ := toList_successor k c c' l e y y hsd
  obtain ⟨-, hold⟩ := toList_successor k c c' l e y x hsd
  have hn := hs.nodup
  have hn' : (plug k (node c l y (plug k₁ e))).toList.Nodup := by
    rw [hold] at hn
    rw [hnew]
    exact hn.sublist ((sublist_cons_self ..).append_left _)
  have hxk : x ∉ pathNodes k := (nodup_plug_iff.1 hn).2.2 x (by simp [toList])
  have hxy : x ≠ y := by
    rw [hold, nodup_append, nodup_cons] at hn
    exact fun h => hn.2.1.1 (by simp [h])
  have hsh {m1 : Rbtree ν} (had : Adopted m1 k c l x y (plug k₁ e)) :
      Shape (m1.takeOver x y) (k₁ ++ ⟨.right, c, y, l⟩ :: k) e :=
    shape_append.2 (shape_cons.2 (had.takeOver hxy hxk hn'))
  cases k₁ with
  | nil =>
    obtain ⟨had, hpar⟩ := adoptNear_spec hs hlp
    refine ⟨[], c', y, e, (m.adoptNear x lp y).1.takeOver x y, rfl, hsd, ?_, hsh had⟩
    simp [eraseInner, hext, hnd, above, hpar]
  | cons f k₁ =>
    have hfx : f.label ≠ x := by
      rintro rfl
      obtain ⟨-, -, -, hxr, -⟩ := (nodup_fork_iff (d := .left) (c := c)).1 (nodup_plug_iff.1 hn).2.1
      have hmem : f.label ∈ pathNodes (f :: k₁) := mem_pathNodes_cons.2 (.inl rfl)
      refine hxr ?_
      rw [toList_plug, mem_append, mem_append]
      rw [pathNodes, mem_append] at hmem
      exact hmem.imp_left .inl
    obtain ⟨m1, hfar, had⟩ := adoptFar_spec (shape_append.2 hs1) (hsd f (mem_cons_self ..))
      hlp ((root_plug_cons ..).trans hrp)
    refine ⟨f :: k₁, c', y, e, m1.takeOver x y, rfl, hsd, ?_, hsh had⟩
    simp [eraseInner, hext, hnd, above, hfx, hfar]

/-- The first half of `rbtree_erase`, whatever the children of the node. -/
lemma rbtreeErase_eq (h : Shape m [] t) (hrb : RedBlack t n)
    (hblk : t.color = .black) (hx : x ∈ t.toList) (hf : t.toList.length ≤ fuel) :
    ∃ m' k e c l₁ l₂, m.rbtreeErase fuel x =
        (if c = .black then eraseFixup fuel m' e.root (above k) else some m') ∧
      TakenOut m' k e c ∧ t.toList = l₁ ++ x :: l₂ ∧ (plug k e).toList = l₁ ++ l₂ := by
  obtain ⟨k, c, l, r, rfl⟩ := exists_plug hx
  obtain ⟨n', hrb', hk, hred⟩ := hrb.of_plug hblk
  have hs : Shape m k (node c l x r) := shape_plug.2 h
  have hn : m.node x = ⟨l.root, r.root, above k, c⟩ := hs.tree.1
  cases hl : l.root with
  | none =>
    obtain rfl := eq_leaf_of_root hl
    obtain ⟨hs', hrs⟩ := eraseOuter_spec (d := .right) hs
    refine ⟨(m.eraseOuter x r.root).1, k, r, c, before k, r.toList ++ after k, ?_,
      ⟨hs', ⟨n', hk, x, redBlack_fork_congr (d := .right) hrb'⟩, fun hc => (hred hc).1⟩, ?_, ?_⟩
    · simp [rbtreeErase, hn, hl, hrs]
    · simp [toList_plug, toList]
    · simp [toList_plug]
  | some lp =>
    cases hr : r.root with
    | none =>
      obtain rfl := eq_leaf_of_root hr
      obtain ⟨hs', hrs⟩ := eraseOuter_spec (d := .left) hs
      refine ⟨(m.eraseOuter x l.root).1, k, l, c, before k ++ l.toList, after k, ?_,
        ⟨hs', ⟨n', hk, x, hrb'⟩, fun hc => (hred hc).1⟩, ?_, ?_⟩
      · simp only [rbtreeErase, hn, hl, hr]
        simp [← hl, hrs]
      · simp [toList_plug, toList]
      · simp [toList_plug]
    | some rp =>
      have hlen : r.toList.length ≤ fuel := by
        simp only [toList_plug, toList, length_append, length_cons] at hf
        omega
      obtain ⟨k₁, c', y, e, m', rfl, hsd, hinner, hs'⟩ := eraseInner_spec hs hl hr hlen
      have hp : plug (k₁ ++ ⟨.right, c, x, l⟩ :: k) (node c' .leaf y e) =
          plug k (node c l x (plug k₁ (node c' .leaf y e))) := by
        rw [plug_append]
        rfl
      have hp' : plug (k₁ ++ ⟨.right, c, y, l⟩ :: k) e = plug k (node c l y (plug k₁ e)) := by
        rw [plug_append]
        rfl
      rw [← hp] at hrb hblk
      obtain ⟨n1, hrb1, hk1, -⟩ := hrb.of_plug hblk
      refine ⟨m', k₁ ++ ⟨.right, c, y, l⟩ :: k, e, c', before k ++ l.toList,
        y :: (e.toList ++ after k₁ ++ after k), ?_,
        ⟨hs', ⟨n1, hk1.relabel x y, y, redBlack_fork_congr (d := .right) hrb1⟩, by simp⟩,
        (toList_successor k c c' l e y x hsd).2, ?_⟩
      · simp [rbtreeErase, hn, hl, hr, Option.bind_some, hinner]
      · rw [hp']
        exact (toList_successor k c c' l e y y hsd).1

/-- `rbtree_erase` of a node of the tree takes that node out of it. -/
lemma Valid.erase {κ : Type*} [LinearOrder κ] {key : ν → κ} (h : Valid key m t) (hx : x ∈ t.toList)
    (hf : t.toList.length < fuel) : ∃ m' t', m.rbtreeErase fuel x = some m' ∧ Valid key m' t' ∧
      ∀ z, z ∈ t'.toList ↔ z ≠ x ∧ z ∈ t.toList := by
  obtain ⟨n, hrb⟩ := h.redBlack
  obtain ⟨m1, k, e, c, l1, l2, heq, htkn, hold, hnew⟩ :=
    rbtreeErase_eq h.shape hrb h.black hx (Nat.le_of_lt hf)
  have hlen := length_le_toList_plug k e
  rw [hnew] at hlen
  rw [hold] at hf
  simp only [length_append, length_cons] at hlen hf
  obtain ⟨m', t', hfix, hs', hl, hrb', hblk'⟩ := htkn.finish fuel (by omega)
  have hn : (l1 ++ x :: l2).Nodup := hold ▸ h.shape.nodup
  have hsrt : (l1 ++ x :: l2).Pairwise (key · < key ·) := hold ▸ h.sorted
  refine ⟨m', t', heq.trans hfix, ⟨hs', hrb', hblk', ?_⟩, fun z => ?_⟩
  · rw [hl, hnew]
    exact hsrt.sublist ((sublist_cons_self ..).append_left _)
  rw [hl, hnew, hold]
  simp only [nodup_append, nodup_cons, mem_append, mem_cons] at hn ⊢
  constructor
  · rintro (hz | hz)
    · exact ⟨hn.2.2 z hz x (.inl rfl), .inl hz⟩
    · exact ⟨fun hzx => hn.2.1.1 (hzx ▸ hz), .inr (.inr hz)⟩
  · rintro ⟨hzx, hz | hz | hz⟩
    · exact .inl hz
    · exact absurd hz hzx
    · exact .inr hz

end OS01.Libc
