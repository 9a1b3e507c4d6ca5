import Mathlib.Order.Lattice
import Mathlib.Data.List.Lex

/-!
# Bubble sort

`bubbleSort after l` is the usual pair of loops over an array: pass `i` compares the neighbours of the first
`length - i` elements from left to right and swaps those that are `after` each other. If `after` compares keys in a
linear order, the result is a sorted permutation.

Nothing here mentions a particular program.
-/

namespace OS01.Lib

open List

variable {α β : Type*}

/-- One pass of `n` comparisons. -/
def bubble (after : α → α → Bool) : Nat → List α → List α
  | n + 1, a :: b :: l => if after a b then b :: bubble after n (a :: l) else a :: bubble after n (b :: l)
  | _, l => l

/-- The passes, each with one comparison less. -/
def bubbleSort (after : α → α → Bool) (l : List α) : List α :=
  (List.range (l.length - 1)).foldl (fun xs i => bubble after (l.length - 1 - i) xs) l

variable [LinearOrder β] {key : α → β} {after : α → α → Bool}

variable (hafter : ∀ a b, after a b = true ↔ key b < key a)
include hafter

/-- A pass over the elements `xs` moves one with the largest key to their end, and leaves what follows them. -/
lemma bubble_spec (ys : List α) {n : Nat} {xs : List α} (hlen : xs.length = n + 1) :
    ∃ zs m, bubble after n (xs ++ ys) = zs ++ m :: ys ∧ (zs ++ [m]).Perm xs ∧ ∀ z ∈ zs, key z ≤ key m := by
  induction n generalizing xs with
  | zero =>
    obtain ⟨x, rfl⟩ := length_eq_one_iff.1 hlen
    exact ⟨[], x, by cases ys <;> rfl, .refl _, by simp⟩
  | succ n ih =>
    obtain ⟨a, b, l, rfl⟩ : ∃ a b l, xs = a :: b :: l := by
      match xs, hlen with
      | a :: b :: l, _ => exact ⟨a, b, l, rfl⟩
    -- the smaller one of `a` and `b` stays, and the pass goes on with the other
    obtain ⟨x, y, heq, hpr, hle⟩ : ∃ x y, bubble after (n + 1) (a :: b :: l ++ ys) = x :: bubble after n (y :: l ++ ys) ∧
        (x :: y :: l).Perm (a :: b :: l) ∧ key x ≤ key y := by
      by_cases hab : after a b = true
      · exact ⟨b, a, if_pos hab, .swap a b l, le_of_lt ((hafter a b).1 hab)⟩
      · exact ⟨a, b, if_neg hab, .refl _, not_lt.1 ((hafter a b).not.1 hab)⟩
    have hr : (y :: l).length = n + 1 := by simpa using hlen
    obtain ⟨zs, m, hp, hzs, hmax⟩ := ih hr
    refine ⟨x :: zs, m, by rw [heq, hp]; rfl, (hzs.cons x).trans hpr, ?_⟩
    have hy : key y ≤ key m := by
      obtain hmem | hmem := mem_append.1 (hzs.mem_iff.2 mem_cons_self)
      · exact hmax y hmem
      · rw [mem_singleton.1 hmem]
    intro z hz
    obtain rfl | hz := mem_cons.1 hz
    · exact hle.trans hy
    · exact hmax z hz

/-- After `i` passes the last `i` elements are in order, behind all others. -/
lemma bubble_passes (l : List α) {i : Nat} (hi : i < l.length) :
    ∃ xs ys, (range i).foldl (fun xs i => bubble after (l.length - 1 - i) xs) l = xs ++ ys ∧ (xs ++ ys).Perm l ∧
      ys.length = i ∧ ys.Pairwise (fun a b => key a ≤ key b) ∧ ∀ x ∈ xs, ∀ y ∈ ys, key x ≤ key y := by
  induction i with
  | zero => exact ⟨l, [], by simp, by simp, rfl, .nil, by simp⟩
  | succ i ih =>
    obtain ⟨xs, ys, heq, hp, hlen, hsrt, hle⟩ := ih (by omega)
    have hxs : xs.length = l.length - 1 - i + 1 := by
      have := hp.length_eq
      rw [length_append] at this
      omega
    obtain ⟨zs, m, hps, hzs, hmax⟩ := bubble_spec hafter ys hxs
    refine ⟨zs, m :: ys, ?_, ?_, by simp [hlen], ?_, ?_⟩
    · rw [range_succ, foldl_append, foldl_cons, foldl_nil, heq, hps]
    · rw [append_cons]
      exact (hzs.append_right ys).trans hp
    · exact pairwise_cons.2 ⟨hle m (hzs.mem_iff.1 (by simp)), hsrt⟩
    · intro z hz y hy
      obtain rfl | hy := mem_cons.1 hy
      · exact hmax z hz
      · exact hle z (hzs.mem_iff.1 (mem_append_left _ hz)) y hy

/-- **Bubble sort** sorts. -/
theorem bubbleSort_spec (l : List α) :
    (bubbleSort after l).Perm l ∧ (bubbleSort after l).Pairwise fun a b => key a ≤ key b := by
  cases l with
  | nil => exact ⟨.refl _, .nil⟩
  | cons a l =>
    obtain ⟨xs, ys, heq, hp, hlen, hsrt, hle⟩ := bubble_passes hafter (a :: l) (i := l.length) (by simp)
    obtain ⟨x, rfl⟩ : ∃ x, xs = [x] := by
      have := hp.length_eq
      rw [length_append, length_cons] at this
      exact length_eq_one_iff.1 (by omega)
    have hs : bubbleSort after (a :: l) = [x] ++ ys := heq
    rw [hs]
    exact ⟨hp, pairwise_cons.2 ⟨hle x mem_cons_self, hsrt⟩⟩

end OS01.Lib
