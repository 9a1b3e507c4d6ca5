import Mathlib.Order.Lattice
import Mathlib.Tactic.Common

/-!
# Chains of half-open intervals

A list of records, each with a lower end `lo` and an upper end `hi` in a linear order, is *chained*
when every record ends at or before the beginning of every later one. A chained list is sorted by
`lo` and its intervals are pairwise disjoint; the converse fails only for empty intervals, and it is
the chained form that list surgery keeps: inserting an interval that meets none of the list's,
narrowing or removing an interval, or splitting one in two.

Nothing here mentions a particular program.
-/

namespace OS01.Lib

open List

variable {α β : Type*} [LinearOrder β] {lo hi : α → β} {l : List α}

/-- Every record is proper and ends before every later one begins. -/
structure Chained (lo hi : α → β) (l : List α) : Prop where
  ordered : l.Pairwise fun a b => hi a ≤ lo b
  proper : ∀ a ∈ l, lo a ≤ hi a

/-- Insert a record before the first one that begins after it. -/
def insertByLo (lo : α → β) (x : α) : List α → List α
  | [] => [x]
  | a :: l => if lo x < lo a then x :: a :: l else a :: insertByLo lo x l

/-- Insertion adds exactly the inserted record. -/
@[simp] lemma mem_insertByLo {x a : α} : a ∈ insertByLo lo x l ↔ a = x ∨ a ∈ l := by
  induction l with
  | nil => simp [insertByLo]
  | cons b l ih =>
    rw [insertByLo]
    split
    · simp
    · rw [mem_cons, mem_cons]
      tauto

lemma insertByLo_perm (x : α) (l : List α) : (insertByLo lo x l).Perm (x :: l) := by
  induction l with
  | nil => exact .refl _
  | cons b l ih =>
    rw [insertByLo]
    split
    · exact .refl _
    · exact (ih.cons b).trans (.swap x b l)

/-- Insertion keeps a list sorted. -/
lemma sorted_insertByLo {x : α} (h : l.Pairwise fun a b => lo a ≤ lo b) :
    (insertByLo lo x l).Pairwise fun a b => lo a ≤ lo b := by
  induction l with
  | nil => exact pairwise_singleton _ _
  | cons b l ih =>
    obtain ⟨hb, hl⟩ := pairwise_cons.1 h
    rw [insertByLo]
    split
    · next hlt =>
        refine pairwise_cons.2 ⟨fun a ha => ?_, h⟩
        obtain rfl | ha := mem_cons.1 ha
        · exact hlt.le
        · exact hlt.le.trans (hb a ha)
    · next hge =>
        refine pairwise_cons.2 ⟨fun a ha => ?_, ih hl⟩
        obtain rfl | ha := mem_insertByLo.1 ha
        · exact not_lt.1 hge
        · exact hb a ha

namespace Chained

variable {l l₁ l₂ : List α} {v w x : α}

lemma nil : Chained lo hi ([] : List α) := ⟨List.Pairwise.nil, by simp⟩

/-- A chained list is sorted by its lower ends. -/
lemma sorted (h : Chained lo hi l) : l.Pairwise fun a b => lo a ≤ lo b :=
  h.ordered.imp_of_mem fun ha _ hab => (h.proper _ ha).trans hab

/-- The intervals of a chained list are pairwise disjoint. -/
lemma disjoint (h : Chained lo hi l) :
    l.Pairwise fun a b => ∀ y, ¬ ((lo a ≤ y ∧ y < hi a) ∧ (lo b ≤ y ∧ y < hi b)) := by
  refine h.ordered.imp ?_
  rintro a b hab y ⟨⟨-, hya⟩, hyb, -⟩
  exact absurd (hya.trans_le hab) (not_lt.2 hyb)

/-- Dropping records keeps a list chained. -/
lemma sublist (h : Chained lo hi l₂) (hs : l₁.Sublist l₂) : Chained lo hi l₁ :=
  ⟨h.ordered.sublist hs, fun a ha => h.proper a (hs.subset ha)⟩

/-- Two chained lists that follow each other. -/
lemma append_iff : Chained lo hi (l₁ ++ l₂) ↔
    Chained lo hi l₁ ∧ Chained lo hi l₂ ∧ ∀ a ∈ l₁, ∀ b ∈ l₂, hi a ≤ lo b := by
  constructor
  · intro h
    have hp := pairwise_append.1 h.ordered
    exact ⟨h.sublist (sublist_append_left _ _), h.sublist (sublist_append_right _ _), hp.2.2⟩
  · rintro ⟨h1, h2, h⟩
    refine ⟨pairwise_append.2 ⟨h1.ordered, h2.ordered, h⟩, fun a ha => ?_⟩
    obtain ha | ha := mem_append.1 ha
    · exact h1.proper a ha
    · exact h2.proper a ha

/-- A record in front of a chained list. -/
lemma cons_iff : Chained lo hi (v :: l) ↔ lo v ≤ hi v ∧ (∀ a ∈ l, hi v ≤ lo a) ∧ Chained lo hi l := by
  constructor
  · intro h
    have hp := pairwise_cons.1 h.ordered
    exact ⟨h.proper v mem_cons_self, hp.1, h.sublist (sublist_cons_self v l)⟩
  · rintro ⟨hv, hl, h⟩
    refine ⟨pairwise_cons.2 ⟨hl, h.ordered⟩, fun a ha => ?_⟩
    obtain rfl | ha := mem_cons.1 ha
    · exact hv
    · exact h.proper a ha

/-- Only the two ends of each record count. -/
lemma of_map_eq {l' : List α} (h : Chained lo hi l)
    (heq : l'.map (fun a => (lo a, hi a)) = l.map (fun a => (lo a, hi a))) : Chained lo hi l' := by
  have hp : ∀ m : List α, m.Pairwise (fun a b => hi a ≤ lo b) ↔
      (m.map fun a => (lo a, hi a)).Pairwise fun p q => p.2 ≤ q.1 := fun m => by
    rw [pairwise_map]
  have hall : ∀ m : List α, (∀ a ∈ m, lo a ≤ hi a) ↔
      ∀ p ∈ m.map (fun a => (lo a, hi a)), p.1 ≤ p.2 := fun m => by
    simp
  refine ⟨(hp l').2 ?_, (hall l').2 ?_⟩
  · rw [heq]
    exact (hp l).1 h.ordered
  · rw [heq]
    exact (hall l).1 h.proper

section

variable (h : Chained lo hi (l₁ ++ v :: l₂)) {m : List α}
include h

/-- What stands around a record of a chained list. -/
lemma around : (∀ a ∈ l₁, hi a ≤ lo v) ∧ (∀ a ∈ l₂, hi v ≤ lo a) := by
  obtain ⟨-, h2, h12⟩ := append_iff.1 h
  exact ⟨fun a ha => h12 a ha v mem_cons_self, (cons_iff.1 h2).2.1⟩

/-- Putting a chained list in the place of one record, inside the room between its neighbours. -/
lemma replace (hm : Chained lo hi m)
    (hlo : ∀ a ∈ l₁, ∀ b ∈ m, hi a ≤ lo b) (hhi : ∀ b ∈ m, ∀ a ∈ l₂, hi b ≤ lo a) :
    Chained lo hi (l₁ ++ (m ++ l₂)) := by
  obtain ⟨h1, h2, h12⟩ := append_iff.1 h
  have h2' := (cons_iff.1 h2).2.2
  refine append_iff.2 ⟨h1, append_iff.2 ⟨hm, h2', hhi⟩, fun a ha b hb => ?_⟩
  obtain hb | hb := mem_append.1 hb
  · exact hlo a ha b hb
  · exact h12 a ha b (mem_cons_of_mem _ hb)

/-- Narrowing a record to parts of itself that follow each other. -/
lemma narrow (hm : Chained lo hi m) (hlo : ∀ b ∈ m, lo v ≤ lo b) (hhi : ∀ b ∈ m, hi b ≤ hi v) :
    Chained lo hi (l₁ ++ (m ++ l₂)) := by
  obtain ⟨hbef, haft⟩ := h.around
  exact h.replace hm (fun a ha b hb => (hbef a ha).trans (hlo b hb))
    (fun b hb a ha => (hhi b hb).trans (haft a ha))

end

/-- Inserting an interval that meets none of the list's. -/
lemma insert (h : Chained lo hi l) (hx : lo x < hi x)
    (hf : ∀ a ∈ l, hi a ≤ lo x ∨ hi x ≤ lo a) : Chained lo hi (insertByLo lo x l) := by
  induction l with
  | nil => exact cons_iff.2 ⟨hx.le, by simp, nil⟩
  | cons a l ih =>
    obtain ⟨ha, hal, hl⟩ := cons_iff.1 h
    rw [insertByLo]
    split
    · next hlt =>
        -- the new interval goes in front: every record of the list begins after it
        refine cons_iff.2 ⟨hx.le, fun b hb => ?_, h⟩
        have hab : lo a ≤ lo b := by
          obtain rfl | hb := mem_cons.1 hb
          · exact le_rfl
          · exact ha.trans (hal b hb)
        obtain hbx | hxb := hf b hb
        · have hb' := h.proper b hb
          exact absurd (hlt.trans_le (hab.trans hb')) (not_lt.2 hbx)
        · exact hxb
    · next hge =>
        refine cons_iff.2 ⟨ha, fun b hb => ?_, ih hl fun b hb =>
          hf b (mem_cons_of_mem _ hb)⟩
        obtain rfl | hb := mem_insertByLo.1 hb
        · obtain hab | hba := hf a mem_cons_self
          · exact hab
          · exact absurd (hx.trans_le hba) hge
        · exact hal b hb

end Chained

end OS01.Lib
