import Mathlib.Data.List.Basic

/-!
# Linked lists

`IsList next p l`: following `next` from `p` until 0 passes the nodes `l`. A list only depends on the links of its
nodes (`congr`), and what hangs behind some of its nodes can be exchanged by one link (`relink`): the link of the last
of these nodes, or the head if there is none.

Nothing here mentions a particular program.
-/

namespace OS01.Lib

open List

/-- The list from `p`, which ends in 0, has these nodes. -/
def IsList (next : Nat → Nat) : Nat → List Nat → Prop
  | p, [] => p = 0
  | p, a :: l => (p = a ∧ a ≠ 0) ∧ IsList next (next a) l

/-- The last of some nodes; 0 stands for the head of the list. -/
def lastNode (l : List Nat) : Nat := l.getLast?.getD 0

/-- Without nodes it is the head. -/
@[simp] lemma lastNode_nil : lastNode [] = 0 := rfl

/-- The last node is the one at the end. -/
@[simp] lemma lastNode_concat (l : List Nat) (a : Nat) : lastNode (l ++ [a]) = a := by
  simp [lastNode]

/-- The last of some nodes is one of them. -/
lemma lastNode_mem {l : List Nat} (h : l ≠ []) : lastNode l ∈ l := by
  rw [lastNode, getLast?_eq_getLast_of_ne_nil h]
  exact getLast_mem h

namespace IsList

variable {next next' : Nat → Nat} {p a x : Nat} {l pre rest rest' : List Nat}

/-- A list depends on the links of its nodes only. -/
lemma congr (h : IsList next p l) (hs : ∀ a ∈ l, next' a = next a) : IsList next' p l := by
  induction l generalizing p with
  | nil => exact h
  | cons a l ih =>
    refine ⟨h.1, ?_⟩
    rw [hs a mem_cons_self]
    exact ih h.2 fun b hb => hs b (mem_cons_of_mem _ hb)

/-- No node is 0. -/
lemma ne_zero (h : IsList next p l) (ha : a ∈ l) : a ≠ 0 := by
  induction l generalizing p with
  | nil => cases ha
  | cons b l ih =>
    obtain rfl | ha := mem_cons.1 ha
    · exact h.1.2
    · exact ih h.2 ha

/-- What hangs behind a node. -/
lemma behind (h : IsList next p (pre ++ a :: rest)) : IsList next (next a) rest := by
  induction pre generalizing p with
  | nil => exact h.2
  | cons b pre ih => exact ih h.2

/-- **One link** exchanges what hangs behind some of the nodes. -/
lemma relink (h : IsList next p (pre ++ rest)) (hnd : pre.Nodup) (hr : IsList next' x rest')
    (hs : ∀ a ∈ pre, a ≠ lastNode pre → next' a = next a) (hl : pre ≠ [] → next' (lastNode pre) = x) :
    IsList next' (if lastNode pre = 0 then x else p) (pre ++ rest') := by
  induction pre generalizing p with
  | nil => simpa using hr
  | cons a pre ih =>
    obtain ⟨hnot, hnd⟩ := nodup_cons.1 hnd
    have hne : lastNode (a :: pre) ≠ 0 := h.ne_zero (mem_append_left _ (lastNode_mem (cons_ne_nil a pre)))
    rw [if_neg hne]
    refine ⟨h.1, ?_⟩
    by_cases hpre : pre = []
    · subst hpre
      have hln : next' a = x := hl (by simp)
      rw [hln]
      exact hr
    have hl' : lastNode (a :: pre) = lastNode pre := by
      simp [lastNode, getLast?_cons, getLast?_eq_getLast_of_ne_nil hpre]
    have hmem := lastNode_mem hpre
    have hrec := ih h.2 hnd (fun b hb hb' => hs b (mem_cons_of_mem _ hb) (hl' ▸ hb'))
      (fun _ => hl' ▸ hl (by simp))
    rw [if_neg (hl' ▸ hne)] at hrec
    rw [hs a mem_cons_self fun heq => hnot (heq.trans hl' ▸ hmem)]
    exact hrec

end IsList

end OS01.Lib
