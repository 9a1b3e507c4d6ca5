import Mathlib.Data.Finset.Card
import Mathlib.Algebra.Order.BigOperators.Group.List
import Mathlib.Algebra.Order.Ring.Nat

/-!
# Counting the holders of a resource

A table is a function from slots to entries, and a resource is held by the entries that satisfy a
predicate. `countOn s p g` is the number of slots in `s` whose entry does. When one entry of a table
is replaced, the count moves by at most one, in the direction the two entries say
(`countOn_update`).
-/

namespace OS01.Lib

open Function Finset

variable {ι β : Type*}

/-- The number of slots of `s` whose entry satisfies `p`. -/
def countOn (s : Finset ι) (p : β → Bool) (g : ι → β) : Nat := (s.filter fun i => p (g i)).card

variable {s : Finset ι} {p : β → Bool} {g : ι → β}

/-- There are no holders. -/
lemma countOn_eq_zero : countOn s p g = 0 ↔ ∀ i ∈ s, p (g i) = false := by
  simp [countOn]

/-- There is a holder. -/
lemma countOn_pos {i : ι} (hi : i ∈ s) (hp : p (g i) = true) : 0 < countOn s p g :=
  card_pos.2 ⟨i, mem_filter.2 ⟨hi, hp⟩⟩

/-- A table whose holders are holders of another one has no more of them. -/
lemma countOn_le {γ : Type*} {p' : γ → Bool} {g' : ι → γ}
    (h : ∀ i ∈ s, p (g i) = true → p' (g' i) = true) : countOn s p g ≤ countOn s p' g' :=
  card_le_card fun i hi => by
    obtain ⟨hs, hp⟩ := mem_filter.1 hi
    exact mem_filter.2 ⟨hs, h i hs hp⟩

/-- Tables with the same holders have the same number of them. -/
lemma countOn_congr {γ : Type*} {p' : γ → Bool} {g' : ι → γ} (h : ∀ i ∈ s, p (g i) = p' (g' i)) :
    countOn s p g = countOn s p' g' := congrArg card (filter_congr fun i hi => by rw [h i hi])

/-- One more slot at the end. -/
lemma countOn_range_succ {g : Nat → β} (n : Nat) :
    countOn (range (n + 1)) p g = countOn (range n) p g + (p (g n)).toNat := by
  rw [countOn, countOn, range_add_one, filter_insert]
  cases p (g n) <;> simp

/-- **Replacing one entry.** The count changes by what the old and the new entry say. -/
lemma countOn_update [DecidableEq ι] {i : ι} (hi : i ∈ s) (b : β) :
    countOn s p (update g i b) + (p (g i)).toNat = countOn s p g + (p b).toNat := by
  have hspl (g' : ι → β) : countOn s p g' = countOn (s.erase i) p g' + (p (g' i)).toNat := by
    rw [countOn, countOn, ← insert_erase hi, filter_insert]
    cases p (g' i) <;> simp
  have hr : countOn (s.erase i) p (update g i b) = countOn (s.erase i) p g := by
    rw [countOn]
    congr 1
    refine filter_congr fun j hj => ?_
    rw [update_of_ne (ne_of_mem_erase hj)]
  rw [hspl, hspl g, update_self]
  omega

end OS01.Lib
