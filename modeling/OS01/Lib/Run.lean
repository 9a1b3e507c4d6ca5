import Mathlib.Tactic.Common

/-!
# Runs of a labelled transition system

A system is given by its step relation `step : σ → ε → σ → Prop`: in state `s` the event `e` may
lead to `t`. `Run step s es t` is a finite run through the events `es`. A safety property is
proved from one step lemma by `Run.invariant`, and refinement by another system from one by
`Run.simulates`.
-/

namespace OS01.Lib

open List

variable {σ ε : Type*}

/-- A finite run of `step` from one state to another through a list of events. -/
inductive Run (step : σ → ε → σ → Prop) : σ → List ε → σ → Prop
  | nil (s : σ) : Run step s [] s
  | cons {s t u : σ} {e : ε} {es : List ε} :
      step s e t → Run step t es u → Run step s (e :: es) u

/-- The steps of a system taken where a side condition on the state and the event holds. -/
def guarded (step : σ → ε → σ → Prop) (ok : σ → ε → Prop) (s : σ) (e : ε) (t : σ) : Prop :=
  ok s e ∧ step s e t

/-- The step relation of a deterministic system given by its transition function. -/
def ofFun (next : σ → ε → σ) (s : σ) (e : ε) (t : σ) : Prop := next s e = t

namespace Run

variable {step : σ → ε → σ → Prop}

/-- A run of one step. -/
lemma single {s t : σ} {e : ε} (h : step s e t) : Run step s [e] t := .cons h (.nil t)

/-- Runs compose. -/
lemma append {s t u : σ} {es fs : List ε} (h : Run step s es t) (h' : Run step t fs u) :
    Run step s (es ++ fs) u := by
  induction h with
  | nil s => exact h'
  | cons hs _ ih => exact .cons hs (ih h')

/-- **The invariant rule.** What one step preserves, every run preserves. -/
theorem invariant {I : σ → Prop} (hstep : ∀ s e t, I s → step s e t → I t) {s t : σ}
    {es : List ε} (h : Run step s es t) (hs : I s) : I t := by
  induction h with
  | nil s => exact hs
  | cons hst _ ih => exact ih (hstep _ _ _ hs hst)

/-- **Forward simulation.** If each step of one system can be matched by a step of another under the
same event, then so can each run. -/
theorem simulates {τ : Type*} {spec : τ → ε → τ → Prop} {R : σ → τ → Prop}
    (hstep : ∀ s e s' t, R s t → step s e s' → ∃ t', spec t e t' ∧ R s' t') {s s' : σ} {t : τ}
    {es : List ε} (h : Run step s es s') (hR : R s t) : ∃ t', Run spec t es t' ∧ R s' t' := by
  induction h generalizing t with
  | nil s => exact ⟨t, .nil t, hR⟩
  | cons hst _ ih =>
    obtain ⟨t1, hs, hR1⟩ := hstep _ _ _ _ hR hst
    obtain ⟨t', hrun, hR'⟩ := ih hR1
    exact ⟨t', .cons hs hrun, hR'⟩

/-- A run of the guarded system is a run of the system. -/
lemma of_guarded {ok : σ → ε → Prop} {s t : σ} {es : List ε}
    (h : Run (guarded step ok) s es t) : Run step s es t := by
  induction h with
  | nil s => exact .nil s
  | cons hst _ ih => exact .cons hst.2 ih

/-- A run through events that meet the side condition in every state is a run of the guarded system. -/
lemma guard {ok : σ → ε → Prop} {s t : σ} {es : List ε} (h : Run step s es t)
    (hok : ∀ e ∈ es, ∀ s, ok s e) : Run (guarded step ok) s es t := by
  induction h with
  | nil s => exact .nil s
  | cons hst _ ih =>
    exact .cons ⟨hok _ mem_cons_self _, hst⟩ (ih fun e he => hok e (mem_cons_of_mem _ he))

/-- The left fold of a transition function is a run. -/
lemma foldl (next : σ → ε → σ) (s : σ) (es : List ε) : Run (ofFun next) s es (es.foldl next s) := by
  induction es generalizing s with
  | nil => exact .nil s
  | cons e es ih => exact .cons rfl (ih (next s e))

/-- A partial transition function that can be applied throughout gives a run. -/
lemma of_foldlM {next : σ → ε → Option σ} {s t : σ} {es : List ε}
    (h : es.foldlM next s = some t) : Run (fun s e t => next s e = some t) s es t := by
  induction es generalizing s with
  | nil =>
    obtain rfl : s = t := by simpa using h
    exact .nil s
  | cons e es ih =>
    obtain ⟨u, hu, hr⟩ := Option.bind_eq_some_iff.1 h
    exact .cons hu (ih hr)

/-- A partial transition function that does not fail while an invariant holds, and keeps it, goes through a whole list. -/
lemma exists_foldlM {next : σ → ε → Option σ} {I : σ → Prop} {es : List ε}
    (hst : ∀ s, ∀ e ∈ es, I s → ∃ t, next s e = some t ∧ I t) {s : σ} (hs : I s) :
    ∃ t, es.foldlM next s = some t ∧ I t := by
  induction es generalizing s with
  | nil => exact ⟨s, rfl, hs⟩
  | cons e es ih =>
    obtain ⟨u, hu, hI⟩ := hst s e mem_cons_self hs
    obtain ⟨t, ht, hIt⟩ := ih (fun s e he => hst s e (mem_cons_of_mem _ he)) hI
    exact ⟨t, by rw [foldlM_cons, hu]; exact ht, hIt⟩

end Run

end OS01.Lib
