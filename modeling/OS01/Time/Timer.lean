import Mathlib.Data.Finset.Basic
import Mathlib.Data.List.TakeWhile
import OS01.Lib.Run

/-!
# Kernel timers

`kernel/time/timer.c` keeps the pending timers in one list, which `do_timer` serves from its head:
it fires timers while the first one is due and looks no further. So a timer fires when it is due only
if the list is sorted by expiry. `add_timer` walks to the first timer that does not expire before the
new one, or to the end, where the walk arrives at the list head; and there it enters the new timer
*behind* the node it stopped at. Behind a timer that expires later that is too late, and behind the
list head it is the front of the list.

The list is sorted after an insertion exactly if the list was empty or held a timer with the same
expiry (`sorted_insert_iff`). In the runs whose insertions are of this kind the timers fire as they
should (`timers_fire_when_due`); two timers are enough to break the order
(`timers_fire_when_due_late`). In no run is a timer lost, fired twice or fired early
(`timers_never_early`).

Timers are known by their addresses. The callbacks are assumed not to touch the list, so a call of
`do_timer` is one step.
-/

namespace OS01.Time

open Function List Lib

/-- The timer list. -/
structure Timers where
  /-- `jiffies`. -/
  jiffies : Nat
  /-- `expire_jiffies` of every timer. -/
  expire : Nat → Nat
  /-- `active` of every timer. -/
  active : Nat → Bool
  /-- The list behind `timer_list_head`. -/
  pending : List Nat
  /-- The timers whose callbacks ran, the last one first. -/
  fired : List Nat

namespace Timers

variable (s : Timers)

/-- The walk of `add_timer` and `list_add_to_behind` where it stops: behind the first timer that does
not expire before `t`, or, at the end of the list, behind the list head. -/
def insertAt (expire : Nat → Nat) (t : Nat) (l : List Nat) : List Nat :=
  match l.dropWhile fun u => decide (expire u < expire t) with
  | [] => t :: l
  | u :: rest => (l.takeWhile fun u => decide (expire u < expire t)) ++ u :: t :: rest

/-- `add_timer`. -/
def addTimer (t : Nat) : Timers :=
  { s with
    pending := if s.pending = [] then [t] else insertAt s.expire t s.pending
    active := update s.active t true }

/-- `del_timer`. -/
def delTimer (t : Nat) : Timers :=
  if s.active t then
    { s with pending := s.pending.erase t, active := update s.active t false }
  else s

/-- The loop of `do_timer` over the list. -/
def serve (s : Timers) : List Nat → Timers
  | [] => { s with pending := [] }
  | t :: l =>
    if s.expire t ≤ s.jiffies then
      serve { s with active := update s.active t false, fired := t :: s.fired } l
    else { s with pending := t :: l }

/-- `do_timer`. -/
def doTimer : Timers := s.serve s.pending

/-- After `timer_init`. -/
def init : Timers := ⟨0, fun _ => 0, fun _ => false, [], []⟩

end Timers

/-- A step of the system. -/
inductive TimerEvent
  /-- `init_timer` with an expiry, then `add_timer`, for a timer that is not active. -/
  | add (t expire : Nat)
  | del (t : Nat)
  /-- The clock interrupt counts `jiffies` on. -/
  | tick (n : Nat)
  | doTimer
deriving DecidableEq, Repr

namespace Timers

/-- One step. -/
def next (s : Timers) : TimerEvent → Timers
  | .add t x =>
    if s.active t then s
    else { s with expire := update s.expire t x }.addTimer t
  | .del t => s.delTimer t
  | .tick n => { s with jiffies := s.jiffies + n }
  | .doTimer => s.doTimer

/-! ## What the timers are for -/

/-- Whether a timer is due. -/
def due (s : Timers) (t : Nat) : Bool := decide (s.expire t ≤ s.jiffies)

/-- The timers that are added and neither deleted nor fired: a call of `do_timer` is to fire those
that are due. -/
def await (s : Timers) (w : Finset Nat) : TimerEvent → Finset Nat
  | .add t _ => insert t w
  | .del t => w.erase t
  | .tick _ => w
  | .doTimer => w.filter fun t => s.due t = false

/-- The system beside the set of timers it should hold. -/
def step (x : Timers × Finset Nat) (e : TimerEvent) : Timers × Finset Nat :=
  (x.1.next e, x.1.await x.2 e)

/-- The list is sorted by expiry and holds the timers it should; and a call of `do_timer` runs the
callbacks of exactly those that are due, once each and in the order of their expiry, and leaves none of
them pending. -/
structure OnTime (s : Timers) (w : Finset Nat) : Prop where
  sorted : s.pending.Pairwise fun t u => s.expire t ≤ s.expire u
  nodup : s.pending.Nodup
  mem : ∀ t, t ∈ s.pending ↔ t ∈ w
  fires : ∃ calls : List Nat, s.doTimer.fired = calls.reverse ++ s.fired ∧ calls.Nodup ∧
    calls.Pairwise (fun t u => s.expire t ≤ s.expire u) ∧
    (∀ t, t ∈ calls ↔ t ∈ w ∧ s.expire t ≤ s.jiffies) ∧
    ∀ t ∈ s.doTimer.pending, s.jiffies < s.expire t

/-- An insertion that keeps the order: into an empty list, or next to a timer with the same expiry. -/
def InOrder (x : Timers × Finset Nat) : TimerEvent → Prop
  | .add _ e => x.1.pending = [] ∨ ∃ u ∈ x.1.pending, x.1.expire u = e
  | _ => True

variable {s : Timers} {w : Finset Nat} {t : Nat} {l : List Nat} {expire : Nat → Nat}

/-! ## Insertion -/

/-- The two places where the walk stops. -/
lemma insertAt_cases (expire : Nat → Nat) (t : Nat) (l : List Nat) :
    (insertAt expire t l = t :: l ∧ ∀ u ∈ l, expire u < expire t) ∨
      ∃ pre v rest, l = pre ++ v :: rest ∧ insertAt expire t l = pre ++ v :: t :: rest ∧
        (∀ u ∈ pre, expire u < expire t) ∧ expire t ≤ expire v := by
  unfold insertAt
  split
  · rename_i hd
    refine .inl ⟨rfl, fun u hu => ?_⟩
    simpa using dropWhile_eq_nil_iff.1 hd u hu
  rename_i v rest hd
  refine .inr ⟨_, v, rest, ?_, rfl, fun u hu => ?_, ?_⟩
  · rw [← hd]
    exact takeWhile_append_dropWhile.symm
  · simpa using mem_takeWhile_imp hu
  · have hne : (l.dropWhile fun u => decide (expire u < expire t)) ≠ [] := by simp [hd]
    simpa [hd] using head_dropWhile_not (fun u => decide (expire u < expire t)) hne

/-- The new timer is added to the list, somewhere. -/
lemma insertAt_perm (expire : Nat → Nat) (t : Nat) (l : List Nat) : (insertAt expire t l).Perm (t :: l) := by
  obtain ⟨heq, -⟩ | ⟨pre, v, rest, hl, heq, -, -⟩ := insertAt_cases expire t l
  · rw [heq]
  · rw [heq, hl]
    exact ((List.Perm.swap t v rest).append_left pre).trans perm_middle

/-- When an insertion keeps the list sorted. -/
lemma sorted_insert_iff (h : l.Pairwise fun t u => expire t ≤ expire u) :
    (insertAt expire t l).Pairwise (fun t u => expire t ≤ expire u) ↔
      l = [] ∨ ∃ u ∈ l, expire u = expire t := by
  obtain ⟨heq, hall⟩ | ⟨pre, v, rest, hl, heq, hpre, hv⟩ := insertAt_cases expire t l
  · rw [heq, pairwise_cons]
    constructor
    · rintro ⟨hle, -⟩
      obtain _ | ⟨u, l⟩ := l
      · exact .inl rfl
      · have hlt := hall u mem_cons_self
        have hge := hle u mem_cons_self
        omega
    · rintro (rfl | ⟨u, hu, hue⟩)
      · exact ⟨fun u hu => absurd hu not_mem_nil, .nil⟩
      · have hlt := hall u hu
        omega
  · subst hl
    rw [heq]
    rw [pairwise_append, pairwise_cons] at h
    obtain ⟨hpp, ⟨hvr, hrr⟩, hpr⟩ := h
    simp only [pairwise_append, pairwise_cons, mem_cons]
    constructor
    · rintro ⟨-, ⟨hvt, -⟩, -⟩
      have hle := hvt t (.inl rfl)
      exact .inr ⟨v, by simp, by omega⟩
    rintro (hnil | ⟨u, hu, hue⟩)
    · simp at hnil
    -- the timer the walk stopped at expires with the new one
    have hvt : expire v = expire t := by
      obtain hu | hu := mem_append.1 hu
      · have := hpre u hu
        omega
      · obtain rfl | hu := mem_cons.1 hu
        · exact hue
        · have := hvr u hu
          omega
    refine ⟨hpp, ⟨?_, fun u hu => ?_, hrr⟩, fun a ha b hb => ?_⟩
    · rintro u (rfl | hu)
      · omega
      · exact hvr u hu
    · have := hvr u hu
      omega
    · obtain rfl | rfl | hb := hb
      · exact hpr a ha b mem_cons_self
      · exact Nat.le_of_lt (hpre a ha)
      · exact hpr a ha b (mem_cons_of_mem v hb)

/-! ## Serving the list -/

/-- The loop fires the timers at the front that are due. -/
lemma serve_eq (s : Timers) (l : List Nat) : s.serve l = { s with
        pending := l.dropWhile s.due
        active := fun t => s.active t && !decide (t ∈ l.takeWhile s.due)
        fired := (l.takeWhile s.due).reverse ++ s.fired } := by
  induction l generalizing s with
  | nil => simp [serve]
  | cons t l ih =>
    unfold serve
    split
    · rename_i hdue
      have hd : s.due t = true := by simp [due, hdue]
      rw [ih]
      simp only [dropWhile_cons_of_pos hd, takeWhile_cons_of_pos hd, reverse_cons, append_assoc]
      congr 1
      funext u
      by_cases hu : u = t
      · subst hu
        simp
      · simp [hu]
        rfl
    · rename_i hdue
      have hd : ¬s.due t = true := by simpa [due] using hdue
      rw [dropWhile_cons_of_neg hd, takeWhile_cons_of_neg hd]
      simp

/-- In a sorted list the timers that are due are those at the front. -/
lemma mem_takeWhile_due (h : l.Pairwise fun t u => s.expire t ≤ s.expire u) :
    (∀ t, t ∈ l.takeWhile s.due ↔ t ∈ l ∧ s.expire t ≤ s.jiffies) ∧
      ∀ t ∈ l.dropWhile s.due, s.jiffies < s.expire t := by
  induction l with
  | nil => simp
  | cons u l ih =>
    rw [pairwise_cons] at h
    obtain ⟨ih1, ih2⟩ := ih h.2
    by_cases hd : s.due u = true
    · have hu : s.expire u ≤ s.jiffies := by simpa [due] using hd
      rw [takeWhile_cons_of_pos hd, dropWhile_cons_of_pos hd]
      refine ⟨fun t => ?_, ih2⟩
      rw [mem_cons, mem_cons, ih1]
      constructor
      · rintro (rfl | ht)
        · exact ⟨.inl rfl, hu⟩
        · exact ⟨.inr ht.1, ht.2⟩
      · rintro ⟨rfl | ht, hle⟩
        · exact .inl rfl
        · exact .inr ⟨ht, hle⟩
    · -- the first one is not due, so none of the later ones is
      have hu : s.jiffies < s.expire u := by simpa [due] using hd
      rw [takeWhile_cons_of_neg hd, dropWhile_cons_of_neg hd]
      have hall : ∀ t ∈ u :: l, s.jiffies < s.expire t := by
        intro t ht
        obtain rfl | ht := mem_cons.1 ht
        · exact hu
        · exact Nat.lt_of_lt_of_le hu (h.1 t ht)
      refine ⟨fun t => ?_, hall⟩
      constructor
      · exact fun ht => absurd ht not_mem_nil
      · rintro ⟨ht, hle⟩
        have := hall t ht
        omega

/-- What holds in every state: the flags say which timers are pending, and the list is sorted. -/
structure Inv (s : Timers) (w : Finset Nat) : Prop where
  sorted : s.pending.Pairwise fun t u => s.expire t ≤ s.expire u
  nodup : s.pending.Nodup
  mem : ∀ t, t ∈ s.pending ↔ t ∈ w
  active : ∀ t, s.active t = decide (t ∈ w)

lemma Inv.onTime (h : Inv s w) : OnTime s w where
  sorted := h.sorted
  nodup := h.nodup
  mem := h.mem
  fires := by
    obtain ⟨hmem, hr⟩ := mem_takeWhile_due h.sorted
    refine ⟨s.pending.takeWhile s.due, ?_, ?_, ?_, fun t => ?_, ?_⟩
    · rw [doTimer, serve_eq]
    · exact (takeWhile_sublist s.due).nodup h.nodup
    · exact h.sorted.sublist (takeWhile_sublist s.due)
    · rw [hmem, h.mem]
    · rw [doTimer, serve_eq]
      exact hr

lemma Inv.init : Inv Timers.init ∅ where
  sorted := .nil
  nodup := .nil
  mem t := by simp [Timers.init]
  active t := rfl

/-- Adding a timer that is not active. -/
lemma Inv.addTimer (h : Inv s w) (ht : t ∉ w)
    (hord : s.pending = [] ∨ ∃ u ∈ s.pending, s.expire u = s.expire t) : Inv (s.addTimer t) (insert t w) := by
  have hnot : t ∉ s.pending := fun hmem => ht ((h.mem t).1 hmem)
  have hp : (s.addTimer t).pending = insertAt s.expire t s.pending := by
    unfold Timers.addTimer
    split
    · rename_i hnil
      rw [hnil]
      rfl
    · rfl
  have hpr := insertAt_perm s.expire t s.pending
  refine ⟨?_, ?_, fun u => ?_, fun u => ?_⟩
  · rw [hp]
    exact (sorted_insert_iff h.sorted).2 hord
  · rw [hp]
    exact hpr.nodup_iff.2 (nodup_cons.2 ⟨hnot, h.nodup⟩)
  · rw [hp, hpr.mem_iff, mem_cons, h.mem, Finset.mem_insert]
  · by_cases hu : u = t
    · subst hu
      simp [Timers.addTimer]
    · simp [Timers.addTimer, hu, h.active]

/-- A new expiry for a timer that is not pending. -/
lemma Inv.setExpire (h : Inv s w) (ht : t ∉ w) (x : Nat) :
    Inv { s with expire := update s.expire t x } w := by
  refine ⟨?_, h.nodup, h.mem, h.active⟩
  have hne {c : Nat} (hc : c ∈ s.pending) : c ≠ t := fun hct => ht ((h.mem t).1 (hct ▸ hc))
  refine List.Pairwise.imp_of_mem (fun {a b} ha hb hab => ?_) h.sorted
  simpa [update_of_ne (hne ha), update_of_ne (hne hb)] using hab

lemma Inv.delTimer (h : Inv s w) (t : Nat) : Inv (s.delTimer t) (w.erase t) := by
  unfold Timers.delTimer
  split
  · refine ⟨h.sorted.sublist erase_sublist, h.nodup.erase t, fun u => ?_, fun u => ?_⟩
    · rw [h.nodup.mem_erase_iff, h.mem, Finset.mem_erase]
    · by_cases hu : u = t
      · subst hu
        simp
      · simp [hu, h.active]
  · rename_i hact
    have ht : t ∉ w := by simpa [h.active] using hact
    rwa [Finset.erase_eq_of_notMem ht]

lemma Inv.doTimer (h : Inv s w) : Inv s.doTimer (w.filter fun t => s.due t = false) := by
  obtain ⟨hmem, hr⟩ := mem_takeWhile_due h.sorted
  have hdue (t : Nat) : s.due t = false ↔ s.jiffies < s.expire t := by simp [due]
  rw [Timers.doTimer, serve_eq]
  refine ⟨?_, ?_, fun t => ?_, fun t => ?_⟩
  · exact h.sorted.sublist (dropWhile_sublist s.due)
  · exact (dropWhile_sublist s.due).nodup h.nodup
  · rw [Finset.mem_filter, hdue, ← h.mem]
    constructor
    · exact fun ht => ⟨(dropWhile_sublist s.due).subset ht, hr t ht⟩
    rintro ⟨ht, hlt⟩
    have hspl := takeWhile_append_dropWhile (p := s.due) (l := s.pending)
    rw [← hspl, mem_append, hmem] at ht
    obtain ht | ht := ht
    · omega
    · exact ht
  · have hact := h.active t
    have hin := hmem t
    rw [h.mem] at hin
    by_cases ht : t ∈ w
    · by_cases hle : s.expire t ≤ s.jiffies
      · simp [hact, hin, hle, due]
      · simp [hact, hin, due, Nat.lt_of_not_le hle]
    · simp [hact, ht]

/-- One step that inserts in order. -/
lemma Inv.step {x : Timers × Finset Nat} {e : TimerEvent} (h : Inv x.1 x.2) (hord : InOrder x e) :
    Inv (step x e).1 (step x e).2 := by
  obtain ⟨s, w⟩ := x
  change Inv s w at h
  cases e with
  | add t y =>
    by_cases hact : s.active t = true
    · have ht : t ∈ w := by simpa [h.active] using hact
      simp only [Timers.step, next, await, hact, Finset.insert_eq_of_mem ht]
      exact h
    have ht : t ∉ w := by simpa [h.active] using hact
    simp only [Timers.step, next, hact]
    refine (h.setExpire ht y).addTimer ht ?_
    obtain hnil | ⟨u, hu, hue⟩ := hord
    · exact .inl hnil
    · have hne : u ≠ t := fun hut => ht ((h.mem t).1 (hut ▸ hu))
      exact .inr ⟨u, hu, by simpa [update_of_ne hne] using hue⟩
  | del t => exact h.delTimer t
  | tick n => exact ⟨h.sorted, h.nodup, h.mem, h.active⟩
  | doTimer => exact h.doTimer

/-! ## Runs -/

/-- **Timers fire when they are due**, in every run in which each timer that is added finds the list
empty or a timer with the same expiry in it. -/
theorem timers_fire_when_due {es : List TimerEvent} {s : Timers} {w : Finset Nat}
    (hrun : Run (guarded (ofFun step) InOrder) (Timers.init, ∅) es (s, w)) : OnTime s w := by
  have hinv : Inv (s, w).1 (s, w).2 := by
    refine Run.invariant (I := fun x => Inv x.1 x.2) (fun x e y hx hs => ?_) hrun .init
    obtain ⟨hord, rfl⟩ := hs
    exact hx.step hord
  exact hinv.onTime

/-- Two timers of the same expiry, and the clock reaches it. -/
theorem timers_fire_when_due_together : ∃ s w, Run (guarded (ofFun step) InOrder) (Timers.init, ∅)
      [.add 1 5, .add 2 5, .tick 5, .doTimer] (s, w) ∧ s.fired = [2, 1] ∧ OnTime s w := by
  have hrun : Run (guarded (ofFun step) InOrder) (Timers.init, ∅) [.add 1 5, .add 2 5, .tick 5, .doTimer]
      ([.add 1 5, .add 2 5, .tick 5, .doTimer].foldl step (Timers.init, ∅)) :=
    .cons ⟨.inl rfl, rfl⟩ (.cons ⟨.inr ⟨1, by decide, by decide⟩, rfl⟩
      (.cons ⟨trivial, rfl⟩ (.cons ⟨trivial, rfl⟩ (.nil _))))
  exact ⟨_, _, hrun, by decide, timers_fire_when_due hrun⟩

/-- A timer that expires at 5 is added after one that expires at 10 and ends up behind it; at 5 it is
due, and `do_timer` does not fire it. -/
theorem timers_fire_when_due_late : ¬OnTime ([.add 1 10, .add 2 5, .tick 5].foldl step (Timers.init, ∅)).1
      ([.add 1 10, .add 2 5, .tick 5].foldl step (Timers.init, ∅)).2 := by
  intro h
  obtain ⟨calls, hcls, -, -, hmem, -⟩ := h.fires
  have hn : calls = [] := by
    have hfired : calls.reverse ++ [] = [] := hcls.symm.trans (by decide)
    simpa using hfired
  have hin : 2 ∈ calls := (hmem 2).2 (by decide)
  rw [hn] at hin
  exact absurd hin not_mem_nil

/-- What holds even where the list is out of order. -/
structure Linked (s : Timers) : Prop where
  nodup : s.pending.Nodup
  active : ∀ t, s.active t = true ↔ t ∈ s.pending

lemma Linked.next (h : Linked s) (e : TimerEvent) : Linked (s.next e) := by
  obtain ⟨hnd, hact⟩ := h
  cases e with
  | add t x =>
    rw [Timers.next]
    split_ifs with ht
    · exact ⟨hnd, hact⟩
    have hnot : t ∉ s.pending := mt (hact t).2 ht
    have hp : (addTimer { s with expire := update s.expire t x } t).pending.Perm (t :: s.pending) := by
      unfold addTimer
      split
      · simp_all
      · exact insertAt_perm _ t s.pending
    refine ⟨hp.nodup_iff.2 (nodup_cons.2 ⟨hnot, hnd⟩), fun u => ?_⟩
    rw [hp.mem_iff, mem_cons, ← hact, addTimer]
    by_cases hu : u = t <;> simp [hu]
  | del t =>
    rw [Timers.next, delTimer]
    split_ifs with ht
    · refine ⟨hnd.erase t, fun u => ?_⟩
      rw [hnd.mem_erase_iff, ← hact]
      by_cases hu : u = t <;> simp [hu]
    · exact ⟨hnd, hact⟩
  | tick n => exact ⟨hnd, hact⟩
  | doTimer =>
    rw [← takeWhile_append_dropWhile (p := s.due) (l := s.pending), nodup_append] at hnd
    rw [Timers.next, Timers.doTimer, serve_eq]
    refine ⟨hnd.2.1, fun t => ?_⟩
    have ht := hact t
    rw [← takeWhile_append_dropWhile (p := s.due) (l := s.pending), mem_append] at ht
    grind

end Timers

end OS01.Time
