import Mathlib.Data.List.Perm.Basic

/-!
# Removal from an unordered array

`swapRemove l i` takes the element at `i` out of an array whose order does not matter: the last
element moves to its place and the array gets one shorter. What is left, together with the element,
is a permutation of what there was.

Nothing here mentions a particular program.
-/

namespace OS01.Lib

open List List.Perm

variable {α : Type*}

/-- Move the last element to index `i` and drop the last slot. -/
def swapRemove (l : List α) (i : Nat) : List α :=
  match l.getLast? with
  | none => []
  | some a => (l.set i a).dropLast

variable {a : α} {i : Nat} {l : List α}

variable (h : l[i]? = some a)
include h

/-- **What is removed and what is left.** -/
lemma swapRemove_perm : l.Perm (a :: swapRemove l i) := by
  obtain ⟨front, last, rfl⟩ : ∃ front last, l = front ++ [last] := by
    refine ⟨l.dropLast, l.getLast ?_, (dropLast_append_getLast _).symm⟩
    rintro rfl
    simp at h
  unfold swapRemove
  rw [getLast?_concat]
  dsimp only
  obtain ⟨hi, ha⟩ := List.getElem?_eq_some_iff.1 h
  rw [length_append, length_singleton] at hi
  by_cases hl : i = front.length
  · subst hl
    rw [getElem_concat_length (by simp)] at ha
    rw [set_append_right _ _ (Nat.le_refl _), Nat.sub_self, set_cons_zero, dropLast_concat, ← ha]
    exact perm_append_singleton ..
  have hlt : i < front.length := by omega
  rw [getElem_append_left hlt] at ha
  rw [set_append_left _ _ hlt, dropLast_concat]
  refine (perm_append_singleton last front).trans ?_
  rw [set_eq_take_append_cons_drop, if_pos hlt]
  have hfront : front = front.take i ++ a :: front.drop (i + 1) := by
    rw [← ha, getElem_cons_drop, take_append_drop]
  calc last :: front = last :: (front.take i ++ a :: front.drop (i + 1)) := by rw [← hfront]
    _ |>.Perm (last :: a :: (front.take i ++ front.drop (i + 1))) := cons _ perm_middle
    _ |>.Perm (a :: last :: (front.take i ++ front.drop (i + 1))) := swap ..
    _ |>.Perm (a :: (front.take i ++ last :: front.drop (i + 1))) := cons _ perm_middle.symm

/-- The other elements are left. -/
lemma mem_swapRemove {b : α} (hnd : l.Nodup) : b ∈ swapRemove l i ↔ b ≠ a ∧ b ∈ l := by
  have hp := swapRemove_perm h
  have hnot := (nodup_cons.1 (hp.nodup_iff.1 hnd)).1
  rw [hp.mem_iff, mem_cons]
  constructor
  · intro hb
    exact ⟨fun hba => hnot (hba ▸ hb), .inr hb⟩
  · rintro ⟨hne, hb⟩
    exact hb.resolve_left hne

/-- What is left has no repetition. -/
lemma nodup_swapRemove (hnd : l.Nodup) : (swapRemove l i).Nodup :=
  (nodup_cons.1 ((swapRemove_perm h).nodup_iff.1 hnd)).2

/-- The array gets one shorter. -/
lemma length_swapRemove : (swapRemove l i).length + 1 = l.length := by
  rw [(swapRemove_perm h).length_eq, length_cons]

end OS01.Lib
