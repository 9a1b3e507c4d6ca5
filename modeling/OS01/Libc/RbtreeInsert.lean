import OS01.Libc.RbtreeShape

/-!
# Insertion into the red-black tree

The descent of `rbtree_insert` ends at a node with the key of the new one or at the vacant place for it
(`descend_spec`), which is where the keys below and above it meet. The loop that follows keeps the order
of the nodes and moves the one violation, a red node with a red parent, up the tree
(`insertFixup_spec`).
-/

namespace OS01.Libc

open Rbtree Lib Lib.ColorTree RbtreeNode

variable {ν κ : Type*} [LinearOrder κ] {key : ν → κ} {cmp : ν → ν → Int} {m : Rbtree ν} {k : List (Frame ν)}
  {l r s t u : ColorTree ν} {c : Color} {x p g : ν} {d d' : Side} {n : Nat}

/-! ## The descent -/

/-- The key belongs at the end of the path. -/
def Between (key : ν → κ) (x : ν) (k : List (Frame ν)) : Prop :=
  (∀ y ∈ before k, key y < key x) ∧ ∀ y ∈ after k, key x < key y

section

variable (hsrt : (plug k (node c l p r)).toList.Pairwise (key · < key ·))
include hsrt

/-- In a sorted tree a key less than that of a node belongs to its left. -/
lemma Between.left
    (hk : Between key x k) (hlt : key x < key p) : Between key x (⟨.left, c, p, r⟩ :: k) := by
  rw [toList_plug, toList, List.pairwise_append, List.pairwise_append, List.pairwise_append,
    List.pairwise_cons] at hsrt
  refine ⟨hk.1, fun y hy => ?_⟩
  simp only [after, List.cons_append, List.mem_cons, List.mem_append] at hy
  obtain rfl | hy | hy := hy
  · exact hlt
  · exact hlt.trans (hsrt.1.2.1.2.1.1 y hy)
  · exact hk.2 y hy

lemma Between.right
    (hk : Between key x k) (hlt : key p < key x) : Between key x (⟨.right, c, p, l⟩ :: k) := by
  rw [toList_plug, toList, List.pairwise_append, List.pairwise_append, List.pairwise_append] at hsrt
  refine ⟨fun y hy => ?_, hk.2⟩
  simp only [before, List.mem_append, List.mem_singleton] at hy
  obtain (hy | hy) | rfl := hy
  · exact hk.1 y hy
  · exact (hsrt.1.2.1.2.2 y hy p (List.mem_cons_self ..)).trans hlt
  · exact hlt

end

/-- The descent ends at a node with the same key or at the vacant place where the key belongs. -/
lemma descend_spec (hcmp : Compares cmp key) (fuel : Nat) (hs : Shape m k t)
    (hsrt : (plug k t).toList.Pairwise (key · < key ·)) (hk : Between key x k)
    (hf : t.toList.length < fuel) : (∃ y ∈ t.toList, key y = key x ∧
      m.descend cmp x fuel (above k) (linkOf k) = some (.conflict y)) ∨
    ∃ k', plug k' .leaf = plug k t ∧ Between key x k' ∧
      m.descend cmp x fuel (above k) (linkOf k) = some (.vacant (above k') (linkOf k')) := by
  induction t generalizing k fuel with
  | leaf =>
    obtain ⟨fuel, rfl⟩ : ∃ n, fuel = n + 1 := ⟨fuel - 1, by omega⟩
    refine .inr ⟨k, rfl, hk, ?_⟩
    simp only [descend, hs.path.deref]
    rfl
  | node c l p r ihl ihr =>
    obtain ⟨fuel, rfl⟩ : ∃ n, fuel = n + 1 := ⟨fuel - 1, by omega⟩
    simp only [toList, List.length_append, List.length_cons] at hf
    have hderef : m.deref (linkOf k) = some p := hs.path.deref
    have hunfold : m.descend cmp x (fuel + 1) (above k) (linkOf k) =
        if cmp x p < 0 then m.descend cmp x fuel (some p) (.child p .left)
        else if 0 < cmp x p then m.descend cmp x fuel (some p) (.child p .right)
        else some (.conflict p) := by simp [descend, hderef]
    obtain ⟨hneg, hpos⟩ := hcmp x p
    obtain hlt | heq | hgt := lt_trichotomy (key x) (key p)
    · have hl := ihl fuel (k := ⟨.left, c, p, r⟩ :: k) (shape_cons.2 hs) hsrt (hk.left hsrt hlt) (by omega)
      rw [hunfold, if_pos (hneg.2 hlt)]
      obtain ⟨y, hy, hkey, hd⟩ | hvacant := hl
      · exact .inl ⟨y, by simp [toList, hy], hkey, hd⟩
      · exact .inr hvacant
    · refine .inl ⟨p, by simp [toList], heq.symm, ?_⟩
      rw [hunfold, if_neg (fun h => (hneg.1 h).ne heq), if_neg (fun h => (hpos.1 h).ne' heq)]
    have hr := ihr fuel (k := ⟨.right, c, p, l⟩ :: k) (shape_cons.2 hs) hsrt (hk.right hsrt hgt) (by omega)
    rw [hunfold, if_neg (fun h => (hneg.1 h).not_gt hgt), if_pos (hpos.2 hgt)]
    obtain ⟨y, hy, hkey, hd⟩ | hvacant := hr
    · exact .inl ⟨y, by simp [toList, hy], hkey, hd⟩
    · exact .inr hvacant

/-- A new element in its place keeps the order. -/
lemma pairwise_insert (hsrt : (plug k .leaf).toList.Pairwise (key · < key ·))
    (hk : Between key x k) : (plug k (node .red .leaf x .leaf)).toList.Pairwise (key · < key ·) := by
  simp only [toList_plug, toList, List.nil_append, List.append_assoc,
    List.singleton_append, List.pairwise_append, List.pairwise_cons, List.mem_cons] at hsrt ⊢
  obtain ⟨hbef, haft, hacross⟩ := hsrt
  refine ⟨hbef, ⟨hk.2, haft⟩, fun y hy z hz => ?_⟩
  obtain rfl | hz := hz
  · exact hk.1 y hy
  · exact hacross y hy z hz

/-! ## The loop after the insertion -/

/-- What the loop leaves: a tree with the same nodes in the same order that is red-black once its root
is black. -/
def Restored (m : Rbtree ν) (l : List ν) : Prop :=
  ∃ t n, Shape m [] t ∧ t.toList = l ∧ RedBlack (t.paint .black) n

lemma restored_of_fits (hs : Shape m k t) (ht : RedBlack t n) (hk : Fits k n)
    (hred : t.color = .red → TakesRed k) : Restored m (plug k t).toList := by
  obtain ⟨n', hp⟩ := hk.plug ht hred
  obtain ⟨n'', hblk⟩ := hp.paint_black
  exact ⟨plug k t, n'', shape_plug.1 hs, rfl, hblk⟩

variable [DecidableEq ν]

/-- The last rotation: the parent goes up and becomes black, the grandparent red. -/
lemma insertRound_tail {q : ν} (hs : Shape m k (fork d .black (fork d .red t q s) g u)) :
    ∃ m', ((m.setBlack (some q)).setRed (some g)).rotate d.flip g = some m' ∧
      Shape m' k (fork d .black t q (fork d .red s g u)) := by
  have hq := hs.paint_child .black
  rw [root_fork, paint_fork] at hq
  have hg := hq.paint .red
  rw [root_fork, paint_fork, ← fork_flip, ← fork_flip d] at hg
  obtain ⟨m', hrot, hs'⟩ := hg.rotate
  rw [fork_flip, fork_flip] at hs'
  exact ⟨m', hrot, hs'⟩

/-- A round with a black uncle and the node on the outer side. -/
lemma insertRound_outer (hs : Shape m k (fork d .black (fork d .red t p s) g u))
    (hx : t.root = some x) (hu : u.color = .black) : ∃ m', m.insertRound d x p g = some (m', x) ∧
      Shape m' k (fork d .black t p (fork d .red s g u)) := by
  obtain ⟨hg, hp, hu'⟩ := holds_fork.1 hs.tree
  obtain ⟨hp, ht, -⟩ := holds_fork.1 hp
  obtain ⟨-, hn, -⟩ := nodup_plug_iff.1 hs.nodup
  obtain ⟨-, -, -, -, hd⟩ := nodup_fork_iff.1 (nodup_fork_iff.1 hn).1
  have huncle : (m.node g).child d.flip = u.root := by rw [hg, child_flip_fork]
  have hblk : m.isRed u.root = false := by rw [hu'.isRed]; simp [hu]
  have hsd : (m.node p).child d.flip ≠ some x := by
    rw [hp, child_flip_fork]
    exact fun hr => hd x (mem_of_root hx) (mem_of_root hr)
  have hpar : (m.node x).parent = some p := ht.parent hx
  obtain ⟨m', hrot, hs'⟩ := insertRound_tail hs
  refine ⟨m', ?_, hs'⟩
  simp [insertRound, huncle, hblk, hsd, hpar, hrot]

/-- A round with a black uncle and the node on the inner side, which first goes above its parent. -/
lemma insertRound_inner {a b : ColorTree ν}
    (hs : Shape m k (fork d .black (fork d .red s p (fork d .red a x b)) g u))
    (hu : u.color = .black) : ∃ m', m.insertRound d x p g = some (m', p) ∧
      Shape m' k (fork d .black (fork d .red s p a) x (fork d .red b g u)) := by
  obtain ⟨hg, hp, hu'⟩ := holds_fork.1 hs.tree
  obtain ⟨hp, -, -⟩ := holds_fork.1 hp
  have huncle : (m.node g).child d.flip = u.root := by rw [hg, child_flip_fork]
  have hblk : m.isRed u.root = false := by rw [hu'.isRed]; simp [hu]
  have hsd : (m.node p).child d.flip = some x := by rw [hp, child_flip_fork, root_fork]
  obtain ⟨m1, hrot1, hs1⟩ := ((shape_cons (f := ⟨d, .black, g, u⟩)).2 hs).rotate
  obtain ⟨-, hp1, -⟩ := holds_fork.1 hs1.tree
  have hpar : (m1.node p).parent = some x := hp1.parent (root_fork ..)
  obtain ⟨m', hrot, hs'⟩ := insertRound_tail (shape_cons.1 hs1)
  refine ⟨m', ?_, hs'⟩
  simp [insertRound, huncle, hblk, hsd, hrot1, hpar, hrot]

section

variable (hs : Shape m k (fork d .black (fork d' .red t p s) g u))
include hs

/-- A round with a red uncle: the grandparent becomes red in place of the two below it. -/
lemma insertRound_red (hu : u.color = .red) :
    ∃ m', m.insertRound d x p g = some (m', g) ∧
      Shape m' k (fork d .red (fork d' .black t p s) g (u.paint .black)) := by
  obtain ⟨hg, hp, hu'⟩ := holds_fork.1 hs.tree
  have huncle : (m.node g).child d.flip = u.root := by rw [hg, child_flip_fork]
  have hred : m.isRed u.root = true := by rw [hu'.isRed]; simpa using hu
  refine ⟨((m.setBlack (some p)).setBlack u.root).setRed (some g), ?_, ?_⟩
  · simp [insertRound, huncle, hred]
  · have hp' := hs.paint_child .black
    rw [root_fork, paint_fork] at hp'
    have hg' := (hp'.paint_other .black).paint .red
    rw [root_fork, paint_fork] at hg'
    exact hg'

/-- A round where the parent of a red node is red: the violation goes up, or it is gone. -/
lemma insertRound_spec
    (hx : t.root = some x) (hred : t.color = .red) (ht : RedBlack t n) (hsn : RedBlack s n)
    (hsc : s.color = .black) (hun : RedBlack u n) (hk : Fits k (n + 1)) :
    ∃ m₁ x₁ k₁ t₁ n₁, m.insertRound d x p g = some (m₁, x₁) ∧ Shape m₁ k₁ t₁ ∧ t₁.root = some x₁ ∧
      t₁.color = .red ∧ RedBlack t₁ n₁ ∧ Fits k₁ n₁ ∧ k₁.length ≤ k.length + 1 ∧
      (plug k₁ t₁).toList = (plug k (fork d .black (fork d' .red t p s) g u)).toList := by
  by_cases hu : u.color = .red
  · obtain ⟨m₁, hrnd, hs1⟩ := insertRound_red (x := x) hs hu
    refine ⟨m₁, g, k, _, n + 1, hrnd, hs1, root_fork .., color_fork, ?_, hk, by omega, ?_⟩
    · obtain ⟨a, y, b, rfl⟩ := exists_fork_of_red hu .left
      exact redBlack_fork_red.2 ⟨color_fork, by simp, redBlack_fork_black.2 ⟨n, rfl, ht, hsn⟩,
        hun.paint_black_of_red hu⟩
    · rw [toList_plug, toList_plug]
      simp
  have hu' : u.color = .black := Color.eq_black_of_ne hu
  obtain rfl | rfl := Side.eq_or_eq_flip d' d
  · obtain ⟨m₁, hrnd, hs1⟩ := insertRound_outer hs hx hu'
    refine ⟨m₁, x, ⟨d', .black, p, fork d' .red s g u⟩ :: k, t, n, hrnd, shape_cons.2 hs1, hx,
      hred, ht, ⟨redBlack_fork_red.2 ⟨hsc, hu', hsn, hun⟩, hk⟩, Nat.le_refl _, ?_⟩
    show (plug k (fork d' .black t p (fork d' .red s g u))).toList = _
    rw [toList_plug, toList_plug]
    cases d' <;> simp [Side.join]
  obtain ⟨a, y, b, rfl⟩ := exists_fork_of_red hred d
  obtain rfl : y = x := by simpa using hx
  obtain ⟨hac, hbc, han, hbn⟩ := redBlack_fork_red.1 ht
  rw [fork_flip] at hs ⊢
  obtain ⟨m₁, hrnd, hs1⟩ := insertRound_inner hs hu'
  refine ⟨m₁, p, ⟨d, .black, y, fork d .red b g u⟩ :: k, fork d .red s p a, n, hrnd,
    shape_cons.2 hs1, root_fork .., color_fork, redBlack_fork_red.2 ⟨hsc, hac, hsn, han⟩,
    ⟨redBlack_fork_red.2 ⟨hbc, hu', hbn, hun⟩, hk⟩, Nat.le_refl _, ?_⟩
  show (plug k (fork d .black (fork d .red s p a) y (fork d .red b g u))).toList = _
  rw [toList_plug, toList_plug]
  cases d <;> simp [Side.join]

end

/-- The loop, from a red node whose parent may be red. -/
lemma insertFixup_spec (fuel : Nat) (hs : Shape m k t) (hx : t.root = some x) (hred : t.color = .red)
    (ht : RedBlack t n) (hk : Fits k n) (hfl : k.length < fuel) :
    ∃ m', insertFixup fuel m x = some m' ∧ Restored m' (plug k t).toList := by
  induction fuel generalizing m k t x n with
  | zero => omega
  | succ fuel ih =>
    have hpar : (m.node x).parent = above k := hs.tree.parent hx
    cases k with
    | nil =>
      refine ⟨m, ?_, restored_of_fits hs ht hk fun _ => by simp [TakesRed]⟩
      simp only [insertFixup, hpar]
      rfl
    | cons f k =>
      obtain ⟨d', c, p, s⟩ := f
      have hp : m.node p = .fork d' t.root s.root (above k) c := hs.path.1
      cases c with
      | black =>
        refine ⟨m, ?_, restored_of_fits hs ht hk fun _ f hf => ?_⟩
        · have hcol : (m.node p).color ≠ .red := by simp [hp]
          simp [insertFixup, hpar, above, hcol]
        · obtain rfl : (⟨d', .black, p, s⟩ : Frame ν) = f := by simpa using hf
          rfl
      | red =>
        obtain ⟨hsb, hsc, hne, htks, hk⟩ := hk
        cases k with
        | nil => exact absurd rfl hne
        | cons f k =>
          obtain ⟨d, c, g, u⟩ := f
          obtain rfl : c = .black := htks _ rfl
          obtain ⟨hub, hk⟩ := hk
          have hs' : Shape m k (fork d .black (fork d' .red t p s) g u) := shape_cons.1 (shape_cons.1 hs)
          have hsd : (if (m.node g).left = some p then Side.left else Side.right) = d := by
            have hiff := hs'.left_eq_iff (hs'.root_ne (root_fork ..))
            rw [root_fork] at hiff
            by_cases hd : d = .left
            · rw [if_pos (hiff.2 hd), hd]
            · rw [if_neg (mt hiff.1 hd)]
              cases d <;> simp_all
          obtain ⟨m1, x1, k1, t1, n1, hrnd, hs1, hx1, hred1, ht1, hk1, hlen, hl⟩ :=
            insertRound_spec hs' hx hred ht hsb hsc hub hk
          have hlp : insertFixup (fuel + 1) m x = insertFixup fuel m1 x1 := by
            have hcol : (m.node p).color = .red := by simp [hp]
            have hgp : (m.node p).parent = some g := by simp [hp, above]
            simp [insertFixup, hpar, above, hcol, hgp, hsd, hrnd]
          simp only [List.length_cons] at hfl
          obtain ⟨m', hm', hrst⟩ := ih hs1 hx1 hred1 ht1 hk1 (by omega)
          rw [hl] at hrst
          exact ⟨m', hlp.trans hm', hrst⟩

/-! ## The insertion -/

/-- The new node in its place. -/
lemma Shape.insert (hs : Shape m k .leaf) (hx : x ∉ pathNodes k) :
    Shape ((m.modify x fun _ => ⟨none, none, above k, .red⟩).assign (some x) (linkOf k)) k
      (node .red .leaf x .leaf) := by
  obtain ⟨hk, -, hn⟩ := hs
  obtain ⟨hnk, -, -⟩ := nodup_plug_iff.1 hn
  have hk1 : HoldsPath (m.modify x fun _ => ⟨none, none, above k, .red⟩).node m.rbNode k none := by
    refine HoldsPath.congr (fun z hz => ?_) hk
    have hzx : z ≠ x := fun h => hx (h ▸ hz)
    exact modify_node_of_ne hzx
  obtain ⟨hp, hkp⟩ := HoldsPath.assign (m := m.modify x fun _ => ⟨none, none, above k, .red⟩) hk1 hnk (some x)
  refine ⟨hp, ⟨?_, trivial, trivial⟩, nodup_plug_iff.2 ⟨hnk, by simp [toList], fun y hy => ?_⟩⟩
  · rw [hkp x hx, modify_node_self]
    rfl
  · obtain rfl : y = x := by simpa [toList] using hy
    exact hx

/-- `rbtree_insert` of a new node: it returns a node with the same key and changes nothing, or there is
none and the new node is in the tree. -/
lemma Valid.insert (hcmp : Compares cmp key) (h : Valid key m t) (hx : x ∉ t.toList) {fuel : Nat}
    (hfl : t.toList.length < fuel) :
    (∃ y ∈ t.toList, key y = key x ∧ m.rbtreeInsert cmp fuel x = some (m, some y)) ∨
    (∀ y ∈ t.toList, key y ≠ key x) ∧ ∃ m' t', m.rbtreeInsert cmp fuel x = some (m', none) ∧
      Valid key m' t' ∧ ∀ z, z ∈ t'.toList ↔ z = x ∨ z ∈ t.toList := by
  have hst : Between key x ([] : List (Frame ν)) :=
    ⟨fun y hy => (List.not_mem_nil hy).elim, fun y hy => (List.not_mem_nil hy).elim⟩
  rcases descend_spec (k := []) hcmp fuel h.shape h.sorted hst hfl with ⟨y, hy, hkey, hd⟩ | ⟨k, hp, hbtw, hd⟩
  · refine .inl ⟨y, hy, hkey, ?_⟩
    have hd' : m.descend cmp x fuel none .root = some (.conflict y) := hd
    simp [rbtreeInsert, hd']
  subst hp
  have hl : (plug k (.leaf : ColorTree ν)).toList = pathNodes k := by
    rw [toList_plug, toList, List.append_nil, pathNodes]
  have hd' : m.descend cmp x fuel none .root = some (.vacant (above k) (linkOf k)) := hd
  obtain ⟨n, hrb⟩ := h.redBlack
  obtain ⟨n1, hlf, hf, -⟩ := hrb.of_plug h.black
  obtain rfl : n1 = 0 := by
    cases hlf
    rfl
  have hs := Shape.insert (shape_plug.2 h.shape) (hl ▸ hx)
  have hlen := length_le_toList_plug k (.leaf : ColorTree ν)
  obtain ⟨m', hfix, t', n', hs', hl', hrb'⟩ := insertFixup_spec fuel hs rfl rfl
    (.red rfl rfl .leaf .leaf) hf (by omega)
  refine .inr ⟨fun y hy => ?_, m'.setBlack m'.rbNode, t'.paint .black, ?_, ⟨?_, ⟨n', hrb'⟩, ?_, ?_⟩,
    fun z => ?_⟩
  · rw [hl, pathNodes, List.mem_append] at hy
    exact hy.elim (fun hb => (hbtw.1 y hb).ne) fun ha => (hbtw.2 y ha).ne'
  · simp [rbtreeInsert, hd', hfix]
  · have hr : m'.rbNode = t'.root := hs'.path
    rw [hr]
    exact hs'.paint .black
  · cases t' <;> rfl
  · rw [toList_paint, hl']
    exact pairwise_insert h.sorted hbtw
  · rw [toList_paint, hl', hl, toList_plug]
    simp only [toList, pathNodes, List.mem_append, List.mem_singleton]
    tauto

end OS01.Libc
