import Mathlib.Algebra.Order.Ring.Nat

/-!
# Blocks that tile a range

`Tiles addr size lo bs hi`: the blocks `bs`, each with an address and a size, follow each other without gaps from `lo`
to `hi`. Two of them are the same or do not overlap (`apart`), some of them can be replaced by others that tile their
place (`replace`), and the number of blocks is bounded by the room (`length_mul_le`).

Nothing here mentions a particular program.
-/

namespace OS01.Lib

open List

variable {α : Type*}

/-- The blocks tile `[lo, hi)`. -/
def Tiles (addr size : α → Nat) : Nat → List α → Nat → Prop
  | lo, [], hi => lo = hi
  | lo, b :: bs, hi => addr b = lo ∧ 0 < size b ∧ Tiles addr size (lo + size b) bs hi

namespace Tiles

variable {addr size : α → Nat} {lo hi : Nat} {bs xs ys : List α} {b c : α}

/-- Two runs of blocks tile a range if they meet somewhere in it. -/
lemma append_iff : Tiles addr size lo (xs ++ ys) hi ↔ ∃ mid, Tiles addr size lo xs mid ∧ Tiles addr size mid ys hi := by
  induction xs generalizing lo with
  | nil =>
    constructor
    · intro h
      exact ⟨lo, rfl, h⟩
    · rintro ⟨mid, rfl, h⟩
      exact h
  | cons x xs ih =>
    simp only [cons_append, Tiles, ih]
    constructor
    · rintro ⟨ha, hpos, mid, hxs, hys⟩
      exact ⟨mid, ⟨ha, hpos, hxs⟩, hys⟩
    · rintro ⟨mid, ⟨ha, hpos, hxs⟩, hys⟩
      exact ⟨ha, hpos, mid, hxs, hys⟩

section

variable (h : Tiles addr size lo bs hi)
include h

/-- The range is one. -/
lemma le : lo ≤ hi := by
  induction bs generalizing lo with
  | nil => exact h.le
  | cons b bs ih =>
    have := ih h.2.2
    omega

/-- A block lies in the range. -/
lemma bounds (hb : b ∈ bs) : lo ≤ addr b ∧ addr b + size b ≤ hi := by
  induction bs generalizing lo with
  | nil => cases hb
  | cons x bs ih =>
    obtain ⟨ha, hpos, hr⟩ := h
    obtain rfl | hb := mem_cons.1 hb
    · have := hr.le
      omega
    · have := ih hr hb
      omega

/-- Two blocks are the same or do not overlap. -/
lemma apart (hb : b ∈ bs) (hc : c ∈ bs) : b = c ∨ addr b + size b ≤ addr c ∨ addr c + size c ≤ addr b := by
  induction bs generalizing lo with
  | nil => cases hb
  | cons x bs ih =>
    obtain ⟨ha, hpos, hr⟩ := h
    obtain rfl | hb' := mem_cons.1 hb
    · obtain rfl | hc' := mem_cons.1 hc
      · exact .inl rfl
      · have := hr.bounds hc'
        exact .inr (.inl (by omega))
    · obtain rfl | hc' := mem_cons.1 hc
      · have := hr.bounds hb'
        exact .inr (.inr (by omega))
      · exact ih hr hb' hc'

/-- No block is empty. -/
lemma pos (hb : b ∈ bs) : 0 < size b := by
  induction bs generalizing lo with
  | nil => cases hb
  | cons x bs ih =>
    obtain rfl | hb := mem_cons.1 hb
    · exact h.2.1
    · exact ih h.2.2 hb

/-- A block is found by its address. -/
lemma eq_of_addr (hb : b ∈ bs) (hc : c ∈ bs) (heq : addr b = addr c) : b = c := by
  have hp := h.pos hb
  have hps := h.pos hc
  obtain h | h | h := h.apart hb hc
  · exact h
  all_goals omega

end

/-- Blocks on the left lie below those on the right. -/
lemma ordered (h : Tiles addr size lo (xs ++ ys) hi) (hb : b ∈ xs) (hc : c ∈ ys) : addr b + size b ≤ addr c := by
  obtain ⟨mid, hxs, hys⟩ := append_iff.1 h
  exact (hxs.bounds hb).2.trans (hys.bounds hc).1

/-- Blocks of aligned sizes from an aligned address are aligned. -/
lemma dvd_addr {k : Nat} (h : Tiles addr size lo bs hi) (hlo : k ∣ lo) (hk : ∀ b ∈ bs, k ∣ size b) (hb : b ∈ bs) :
    k ∣ addr b := by
  induction bs generalizing lo with
  | nil => cases hb
  | cons x bs ih =>
    obtain rfl | hb := mem_cons.1 hb
    · exact h.1 ▸ hlo
    · refine ih h.2.2 ?_ (fun c hc => hk c (mem_cons_of_mem _ hc)) hb
      exact (Nat.dvd_add_right hlo).2 (hk x mem_cons_self)

/-- Blocks that tile the place of some neighbours take their place. -/
lemma replace {mid new : List α} (h : Tiles addr size lo (xs ++ mid ++ ys) hi)
    (hnew : ∀ p q, Tiles addr size p mid q → Tiles addr size p new q) : Tiles addr size lo (xs ++ new ++ ys) hi := by
  obtain ⟨q, hl, hys⟩ := append_iff.1 h
  obtain ⟨p, hxs, hmid⟩ := append_iff.1 hl
  exact append_iff.2 ⟨q, append_iff.2 ⟨p, hxs, hnew p q hmid⟩, hys⟩

/-- The block behind another one begins where that one ends. -/
lemma behind (h : Tiles addr size lo (xs ++ b :: ys) hi) (hlt : addr b + size b < hi) :
    ∃ c zs, ys = c :: zs ∧ addr c = addr b + size b := by
  obtain ⟨mid, -, rfl, -, hys⟩ := append_iff.1 h
  cases ys with
  | nil =>
    have hend : addr b + size b = hi := hys
    omega
  | cons c zs => exact ⟨c, zs, rfl, hys.1⟩

/-- The blocks, at their least size, fit into the range. -/
lemma length_mul_le (h : Tiles addr size lo bs hi) {k : Nat} (hk : ∀ b ∈ bs, k ≤ size b) :
    lo + bs.length * k ≤ hi := by
  induction bs generalizing lo with
  | nil => simpa using h.le
  | cons b bs ih =>
    have hr := ih h.2.2 fun c hc => hk c (mem_cons_of_mem _ hc)
    have hb := hk b mem_cons_self
    rw [length_cons, Nat.add_mul]
    omega

end Tiles

end OS01.Lib
