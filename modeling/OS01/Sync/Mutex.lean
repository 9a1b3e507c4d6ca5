import Mathlib.Data.List.Nodup
import OS01.Lib.Run

/-!
# The sleeping mutex

`kernel/sync/mutex.c` over the wait queue of `kernel/sync/wait.c`. A task that finds the mutex taken
queues itself, tries again and only then sleeps; `mutex_unlock` frees the mutex and takes the first task
off the queue. A task that a signal drives away takes the next one off in its turn, since it may have
been the one that the wake-up was for.

The tasks are interleaved at their atomic operations: each compare-and-swap, each section of the wait
queue and each read of the pending signals is one step. A task may be woken at any point by somebody
else. `Guarded` is the invariant: nobody holds a free mutex, a task that sleeps is queued,
and while the mutex is free and somebody sleeps, somebody is on the way (`OnTheWay`) to try the mutex or
to pass the wake-up on. `mutex_no_lost_wakeup` is the result over all runs.
-/

namespace OS01.Sync

open List Function Lib

/-- Where a task is in the code of the mutex; `intr` is the argument `interruptible` of
`mutex_acquire`. -/
inductive Place
  /-- Outside. -/
  | idle
  /-- Before the first compare-and-swap. -/
  | top (intr : Bool)
  /-- Before `wait_queue_arm`. -/
  | arming (intr : Bool)
  /-- Before the second compare-and-swap. -/
  | armed (intr : Bool)
  /-- The second one failed: before the first read of the signals. -/
  | failed (intr : Bool)
  /-- In `schedule`. -/
  | scheduled (intr : Bool)
  /-- Before `wait_queue_disarm`. -/
  | disarming (intr acquired : Bool)
  /-- Before the second read of the signals. -/
  | disarmed (intr acquired : Bool)
  /-- Before `wait_queue_wake_one` on the way out with `-EINTR`. -/
  | cancelled
  /-- In `mutex_unlock`, before `wait_queue_wake_one`. -/
  | unlocked
deriving DecidableEq, Repr

/-- Whether a task at this place is queued unless it was taken off the queue. -/
def Place.waits : Place → Bool
  | .armed _ | .failed _ | .scheduled _ | .disarming _ _ => true
  | _ => false

/-- A mutex and the tasks that use it. -/
structure Mutex (τ : Type*) where
  owner : Nat
  queue : List τ
  place : τ → Place
  /-- Whether a task is in state `TASK_INTERRUPTIBLE`. -/
  asleep : τ → Bool
  /-- Whether a task has a pending signal. -/
  signal : τ → Bool
  /-- Whether a task acquired the mutex and did not release it since. -/
  holds : τ → Bool

/-- A step of the system. -/
inductive MutexEvent (τ : Type*)
  /-- A call of `mutex_lock` or `mutex_lock_interruptible`. -/
  | lock (t : τ) (intr : Bool)
  | trylock (t : τ)
  | unlock (t : τ)
  /-- The next operation of a task inside. -/
  | step (t : τ)
  /-- The pending signals of a task change. -/
  | signal (t : τ) (pending : Bool)
  /-- Somebody else wakes a task. -/
  | wake (t : τ)

namespace Mutex

variable {τ : Type*}

section operations

variable [DecidableEq τ] (s : Mutex τ) (pid : τ → Nat)

/-- The task goes on to another place. -/
def goto (t : τ) (p : Place) : Mutex τ := { s with place := update s.place t p }

/-- A compare-and-swap of the owner that succeeded. -/
def acquire (t : τ) : Mutex τ :=
  { s with owner := pid t, holds := update s.holds t true }

/-- `wait_queue_arm`. -/
def waitQueueArm (t : τ) : Mutex τ :=
  { s with queue := s.queue ++ [t], asleep := update s.asleep t true }

/-- `wait_queue_disarm`, under the lock of the queue. -/
def waitQueueDisarm (t : τ) : Mutex τ :=
  { s with queue := s.queue.erase t, asleep := update s.asleep t false }

/-- `task_wake`. -/
def taskWake (t : τ) : Mutex τ := { s with asleep := update s.asleep t false }

/-- `wait_queue_wake_one`. -/
def waitQueueWakeOne : Mutex τ :=
  match s.queue with
  | [] => s
  | t :: l => taskWake { s with queue := l } t

/-- The next operation of a task; `none` if it cannot go on. -/
def advance (t : τ) : Option (Mutex τ) :=
  match s.place t with
  | .idle => none
  | .top intr =>
    if s.owner = 0 then some ((s.acquire pid t).goto t .idle) else some (s.goto t (.arming intr))
  | .arming intr => some ((s.waitQueueArm t).goto t (.armed intr))
  | .armed intr =>
    if s.owner = 0 then some ((s.acquire pid t).goto t (.disarming intr true))
    else some (s.goto t (.failed intr))
  | .failed intr =>
    if intr && s.signal t then some (s.goto t (.disarming intr false))
    else some (s.goto t (.scheduled intr))
  | .scheduled intr => if s.asleep t then none else some (s.goto t (.disarming intr false))
  | .disarming intr acquired => some ((s.waitQueueDisarm t).goto t (.disarmed intr acquired))
  | .disarmed intr acquired =>
    if acquired then some (s.goto t .idle)
    else if intr && s.signal t then some (s.goto t .cancelled)
    else some (s.goto t (.top intr))
  | .cancelled => some (s.waitQueueWakeOne.goto t .idle)
  | .unlocked => some (s.waitQueueWakeOne.goto t .idle)

/-- One step: a call is made by a task outside, and `mutex_unlock` by one that holds the mutex. -/
def next : MutexEvent τ → Option (Mutex τ)
  | .lock t intr => if s.place t = .idle then some (s.goto t (.top intr)) else none
  | .trylock t =>
    if s.place t = .idle then if s.owner = 0 then some (s.acquire pid t) else some s else none
  | .unlock t =>
    if s.place t = .idle ∧ s.holds t then
      some ({ s with owner := 0, holds := update s.holds t false }.goto t .unlocked)
    else none
  | .step t => s.advance pid t
  | .signal t pending => some { s with signal := update s.signal t pending }
  | .wake t => some (s.taskWake t)

end operations

/-- `mutex_init`, with no task inside. -/
def init : Mutex τ := ⟨0, [], fun _ => .idle, fun _ => false, fun _ => false, fun _ => false⟩

/-- The step relation. -/
def Step [DecidableEq τ] (pid : τ → Nat) (s : Mutex τ) (e : MutexEvent τ) (s' : Mutex τ) : Prop :=
  s.next pid e = some s'

/-! ## What the queue and the owner say -/

/-- The task sleeps on the queue, or is about to. -/
def Sleeps (s : Mutex τ) (t : τ) : Prop :=
  s.asleep t = true ∧ ∃ intr, s.place t = .failed intr ∨ s.place t = .scheduled intr

/-- The next operation of the task tries the mutex, or wakes the first task of the queue. -/
def Acts (s : Mutex τ) (t : τ) : Prop :=
  match s.place t with
  | .top _ | .armed _ | .cancelled | .unlocked => True
  | _ => False

/-- The task was woken or is armed: it will try the mutex or pass the wake-up on. -/
def OnTheWay (s : Mutex τ) (t : τ) : Prop :=
  match s.place t with
  | .top _ | .arming _ | .armed _ | .cancelled | .unlocked => True
  | .failed _ | .scheduled _ => s.asleep t = false
  | .disarming _ acquired | .disarmed _ acquired => acquired = false
  | .idle => False

/-- How many operations a task that is on its way has before the one that counts. -/
def remaining (s : Mutex τ) (t : τ) : Nat :=
  match s.place t with
  | .arming _ | .disarmed _ _ => 1
  | .disarming _ _ => 2
  | .scheduled _ => 3
  | .failed _ => 4
  | _ => 0

/-- The invariant. -/
structure Guarded (s : Mutex τ) : Prop where
  free : s.owner = 0 → ∀ t, s.holds t = false
  one : ∀ t u, s.holds t = true → s.holds u = true → t = u
  acquired : ∀ t intr, s.place t = .disarming intr true ∨ s.place t = .disarmed intr true →
    s.holds t = true
  nodup : s.queue.Nodup
  waits : ∀ t ∈ s.queue, (s.place t).waits = true
  queued : ∀ t, s.asleep t = true → t ∈ s.queue
  onTheWay : s.owner = 0 → ∀ t, s.Sleeps t → ∃ u, s.OnTheWay u

variable {s s' : Mutex τ} {pid : τ → Nat} {t u : τ} {p : Place} {intr : Bool}

/-- A task stays on its way as long as it stays where it is and is not put to sleep. -/
lemma OnTheWay.mono (h : s.OnTheWay u) (hpl : s'.place u = s.place u)
    (hasl : s.asleep u = false → s'.asleep u = false) : s'.OnTheWay u := by
  unfold OnTheWay at h ⊢
  rw [hpl]
  split <;> simp_all

lemma Sleeps.mono (h : s'.Sleeps u) (hpl : s'.place u = s.place u)
    (hasl : s'.asleep u = true → s.asleep u = true) : s.Sleeps u := by
  obtain ⟨hu, hp⟩ := h
  exact ⟨hasl hu, hpl ▸ hp⟩

/-- A task that sleeps is not on its way. -/
lemma OnTheWay.ne_of_sleeps (h : s.OnTheWay u) (ht : s.Sleeps t) : u ≠ t := by
  rintro rfl
  obtain ⟨hasl, intr, hp | hp⟩ := ht <;> simp [OnTheWay, hp, hasl] at h

/-- Nobody is at a place for holders while the mutex is free. -/
lemma Guarded.not_acquired (h : Guarded s) (hf : s.owner = 0) (t : τ) (intr : Bool) :
    s.place t ≠ .disarming intr true ∧ s.place t ≠ .disarmed intr true := by
  have hnot := h.free hf t
  refine ⟨fun hp => ?_, fun hp => ?_⟩
  · simp [h.acquired t intr (.inl hp)] at hnot
  · simp [h.acquired t intr (.inr hp)] at hnot

/-- A task that is not at a place for waiting is not queued. -/
lemma Guarded.notMem (h : Guarded s) (hp : (s.place t).waits = false) :
    t ∉ s.queue := fun hmem => by simp [h.waits t hmem] at hp

lemma Guarded.init : Guarded (init : Mutex τ) :=
  ⟨fun _ _ => rfl, fun _ _ ht => by simp [Mutex.init] at ht, fun _ _ ht => by simp [Mutex.init] at ht,
    nodup_nil, by simp [Mutex.init], fun _ ht => by simp [Mutex.init] at ht,
    fun _ t ht => by simp [Sleeps, Mutex.init] at ht⟩

variable [DecidableEq τ] {e : MutexEvent τ}

@[simp]
lemma goto_place_self : (s.goto t p).place t = p := update_self ..

lemma goto_place_of_ne (h : u ≠ t) : (s.goto t p).place u = s.place u := update_of_ne h ..

/-- A task is on its way in a state where it was sent to a place outside the queue. -/
lemma onTheWay_goto (intr : Bool) (hp : p = .top intr ∨ p = .disarming intr false ∨
    p = .disarmed intr false ∨ p = .cancelled ∨ p = .unlocked ∨ p = .armed intr) : (s.goto t p).OnTheWay t := by
  rcases hp with rfl | rfl | rfl | rfl | rfl | rfl <;> simp [OnTheWay]

section

variable (h : Guarded s)
include h

/-- A task goes on and changes nothing else: it is on its way afterwards, or it slept before. -/
lemma Guarded.goto (hacq : ∀ intr, p = .disarming intr true ∨ p = .disarmed intr true → s.holds t = true)
    (hwaits : t ∈ s.queue → p.waits = true)
    (hway : s.owner = 0 → (s.goto t p).OnTheWay t ∨ s.Sleeps t) : Guarded (s.goto t p) where
  free := h.free
  one := h.one
  acquired := fun u intr hu => by
    by_cases hut : u = t
    · subst hut
      exact hacq intr (by simpa using hu)
    · exact h.acquired u intr (by rwa [goto_place_of_ne hut] at hu)
  nodup := h.nodup
  waits := fun u hu => by
    by_cases hut : u = t
    · subst hut
      simpa using hwaits hu
    · rw [goto_place_of_ne hut]
      exact h.waits u hu
  queued := h.queued
  onTheWay := fun hf _ _ => by
    obtain hme | hslept := hway hf
    · exact ⟨t, hme⟩
    · obtain ⟨u, hu⟩ := h.onTheWay hf t hslept
      exact ⟨u, hu.mono (goto_place_of_ne (hu.ne_of_sleeps hslept)) id⟩

/-- A task takes the mutex and goes on. -/
lemma Guarded.acquire (hf : s.owner = 0) (hpid : pid t ≠ 0) : Guarded (s.acquire pid t) where
  free := fun hown => absurd hown hpid
  one := fun u v hu hv => by
    have hall (w : τ) (hw : update s.holds t true w = true) : w = t := by
      by_contra hne
      rw [update_of_ne hne, h.free hf w] at hw
      exact Bool.false_ne_true hw
    exact (hall u hu).trans (hall v hv).symm
  acquired := fun u intr hu => by
    exact absurd hu (not_or.2 (h.not_acquired hf u intr))
  nodup := h.nodup
  waits := h.waits
  queued := h.queued
  onTheWay := fun hown => absurd hown hpid

/-- The holder frees the mutex. -/
lemma Guarded.unlock (hp : s.place t = .idle) (ht : s.holds t = true) :
    Guarded ({ s with owner := 0, holds := update s.holds t false }.goto t .unlocked) where
  free := fun _ u => by
    by_cases hut : u = t
    · subst hut
      exact update_self ..
    · show update s.holds t false u = false
      rw [update_of_ne hut]
      exact Bool.eq_false_iff.2 fun hu => hut (h.one u t hu ht)
  one := fun u v hu hv => by
    have hold (w : τ) (hw : update s.holds t false w = true) : s.holds w = true := by
      by_cases hwt : w = t
      · subst hwt
        exact ht
      · rwa [update_of_ne hwt] at hw
    exact h.one u v (hold u hu) (hold v hv)
  acquired := fun u intr hu => by
    have hut : u ≠ t := by
      rintro rfl
      simp at hu
    rw [goto_place_of_ne hut] at hu
    have hold := h.acquired u intr hu
    exact absurd (h.one u t hold ht) hut
  nodup := h.nodup
  waits := fun u hu => by
    have hut : u ≠ t := by
      rintro rfl
      exact h.notMem (by simp [hp, Place.waits]) hu
    rw [goto_place_of_ne hut]
    exact h.waits u hu
  queued := h.queued
  onTheWay := fun _ _ _ => ⟨t, onTheWay_goto false (by simp)⟩

lemma Guarded.waitQueueArm (hp : s.place t = .arming intr) :
    Guarded ((s.waitQueueArm t).goto t (.armed intr)) where
  free := h.free
  one := h.one
  acquired := fun u intr' hu => by
    have hut : u ≠ t := by
      rintro rfl
      simp at hu
    rw [goto_place_of_ne hut] at hu
    exact h.acquired u intr' hu
  nodup := by
    have hnot := h.notMem (t := t) (by simp [hp, Place.waits])
    exact h.nodup.append (nodup_singleton t) (by simpa using hnot)
  waits := fun u hu => by
    by_cases hut : u = t
    · subst hut
      simp [Place.waits]
    · rw [goto_place_of_ne hut]
      exact h.waits u ((mem_append.1 hu).resolve_right (by simpa using hut))
  queued := fun u hu => by
    by_cases hut : u = t
    · subst hut
      exact mem_append_right _ (mem_singleton_self u)
    · have hu' : s.asleep u = true := by
        rwa [show ((s.waitQueueArm t).goto t (.armed intr)).asleep u = s.asleep u from
          update_of_ne hut ..] at hu
      exact mem_append_left _ (h.queued u hu')
  onTheWay := fun _ _ _ => ⟨t, onTheWay_goto intr (by simp)⟩

lemma Guarded.waitQueueDisarm {acquired : Bool} (hp : s.place t = .disarming intr acquired) :
    Guarded ((s.waitQueueDisarm t).goto t (.disarmed intr acquired)) where
  free := h.free
  one := h.one
  acquired := fun u intr' hu => by
    by_cases hut : u = t
    · subst hut
      have hacq : intr = intr' ∧ acquired = true := by simpa using hu
      exact h.acquired u intr (.inl (hacq.2 ▸ hp))
    · rw [goto_place_of_ne hut] at hu
      exact h.acquired u intr' hu
  nodup := h.nodup.erase t
  waits := fun u hu => by
    obtain ⟨hut, hu'⟩ := h.nodup.mem_erase_iff.1 hu
    rw [goto_place_of_ne hut]
    exact h.waits u hu'
  queued := fun u hu => by
    have hut : u ≠ t := by
      rintro rfl
      simp [Mutex.waitQueueDisarm, Mutex.goto] at hu
    have hu' : s.asleep u = true := by
      rwa [show ((s.waitQueueDisarm t).goto t (.disarmed intr acquired)).asleep u = s.asleep u from
        update_of_ne hut ..] at hu
    exact h.nodup.mem_erase_iff.2 ⟨hut, h.queued u hu'⟩
  onTheWay := fun hf _ _ => by
    cases acquired with
    | true => exact absurd hp (h.not_acquired hf t intr).1
    | false => exact ⟨t, onTheWay_goto intr (by simp)⟩

/-- A wake-up from outside. -/
lemma Guarded.taskWake : Guarded (s.taskWake t) where
  free := h.free
  one := h.one
  acquired := h.acquired
  nodup := h.nodup
  waits := h.waits
  queued := fun u hu => by
    by_cases hut : u = t
    · subst hut
      simp [Mutex.taskWake] at hu
    · exact h.queued u (by rwa [show (s.taskWake t).asleep u = s.asleep u from update_of_ne hut ..] at hu)
  onTheWay := fun hf v hv => by
    have hslept : s.Sleeps v := hv.mono rfl fun hv' => by
      by_cases hvt : v = t
      · subst hvt
        simp [Mutex.taskWake] at hv'
      · rwa [show (s.taskWake t).asleep v = s.asleep v from update_of_ne hvt ..] at hv'
    obtain ⟨u, hu⟩ := h.onTheWay hf v hslept
    refine ⟨u, hu.mono rfl fun hu' => ?_⟩
    by_cases hut : u = t
    · subst hut
      exact update_self ..
    · rw [show (s.taskWake t).asleep u = s.asleep u from update_of_ne hut ..]
      exact hu'

end

lemma waitQueueWakeOne_eq (s : Mutex τ) : s.waitQueueWakeOne = { s with
      queue := s.queue.tail
      asleep := fun v => s.asleep v && !decide (s.queue.head? = some v) } := by
  unfold Mutex.waitQueueWakeOne
  split
  · rename_i hemp
    simp only [hemp, tail_nil, head?_nil, reduceCtorEq, decide_false, Bool.not_false, Bool.and_true]
    rw [← hemp]
  rename_i w l hc
  have hasl : update s.asleep w false = fun v => s.asleep v && !decide (s.queue.head? = some v) := by
    funext v
    by_cases hv : v = w
    · subst hv
      simp [hc]
    · have hv' : ¬w = v := fun h => hv h.symm
      simp [hc, hv, hv']
  simp [Mutex.taskWake, hasl, hc]

/-- A task takes the first one off the queue and leaves: while the mutex is free, that one is on its
way. -/
lemma Guarded.waitQueueWakeOne (h : Guarded s) (hp : s.place t = .cancelled ∨ s.place t = .unlocked) :
    Guarded (s.waitQueueWakeOne.goto t .idle) := by
  have hout : t ∉ s.queue := h.notMem (by rcases hp with hp | hp <;> simp [hp, Place.waits])
  have hne {v : τ} (hv : v ∈ s.queue) : v ≠ t := fun heq => hout (heq ▸ hv)
  rw [waitQueueWakeOne_eq]
  refine ⟨h.free, h.one, fun u intr hu => ?_, h.nodup.tail, fun u hu => ?_, fun u hu => ?_, fun hf v hv => ?_⟩
  · have hut : u ≠ t := by
      rintro rfl
      simp at hu
    rw [goto_place_of_ne hut] at hu
    exact h.acquired u intr hu
  · have hu' : u ∈ s.queue := mem_of_mem_tail hu
    rw [goto_place_of_ne (hne hu')]
    exact h.waits u hu'
  · have hu' : s.asleep u = true ∧ s.queue.head? ≠ some u := by simpa [Mutex.goto] using hu
    have hmem := h.queued u hu'.1
    cases hq : s.queue with
    | nil => simp [hq] at hmem
    | cons w l =>
      have hwu : w ≠ u := by simpa [hq] using hu'.2
      show u ∈ l
      simpa [hq, hwu.symm] using hmem
  · have hv' : s.asleep v = true ∧ s.queue.head? ≠ some v := by simpa [Mutex.goto] using hv.1
    have hmem := h.queued v hv'.1
    cases hq : s.queue with
    | nil => simp [hq] at hmem
    | cons w l =>
      have hw : w ∈ s.queue := by simp [hq]
      have hacq := h.not_acquired hf w
      refine ⟨w, ?_⟩
      have hpl := h.waits w hw
      unfold OnTheWay
      rw [goto_place_of_ne (hne hw)]
      cases hpw : s.place w with
      | disarming intr acquired =>
        cases acquired with
        | true => exact absurd hpw (hacq intr).1
        | false => rfl
      | _ => simp_all [Mutex.goto, Place.waits]

/-- One operation of a task inside. -/
lemma Guarded.advance (h : Guarded s) (hpid : ∀ t, pid t ≠ 0) (hs : s.advance pid t = some s') :
    Guarded s' := by
  unfold Mutex.advance at hs
  split at hs
  · cases hs
  · rename_i intr hp
    have hout := h.notMem (t := t) (by simp [hp, Place.waits])
    split at hs <;> cases hs
    · rename_i hf
      exact (h.acquire hf (hpid t)).goto (by simp) (fun hmem => absurd hmem hout)
        fun hown => absurd hown (hpid t)
    · rename_i htkn
      exact h.goto (by simp) (fun hmem => absurd hmem hout) fun hown => absurd hown htkn
  · rename_i intr hp
    cases hs
    exact h.waitQueueArm hp
  · rename_i intr hp
    split at hs <;> cases hs
    · rename_i hf
      exact (h.acquire hf (hpid t)).goto (fun _ _ => update_self ..) (fun _ => rfl)
        fun hown => absurd hown (hpid t)
    · rename_i htkn
      exact h.goto (by simp) (fun _ => rfl) fun hown => absurd hown htkn
  · rename_i intr hp
    split at hs <;> cases hs
    · exact h.goto (by simp) (fun _ => rfl) fun _ => .inl (onTheWay_goto intr (by simp))
    · refine h.goto (by simp) (fun _ => rfl) fun _ => ?_
      cases ha : s.asleep t with
      | true => exact .inr ⟨ha, intr, .inl hp⟩
      | false => exact .inl (by simpa [OnTheWay, Mutex.goto] using ha)
  · rename_i intr hp
    split at hs <;> cases hs
    exact h.goto (by simp) (fun _ => rfl) fun _ => .inl (onTheWay_goto intr (by simp))
  · rename_i intr acquired hp
    cases hs
    exact h.waitQueueDisarm hp
  · rename_i intr acquired hp
    have hout := h.notMem (t := t) (by simp [hp, Place.waits])
    split at hs
    · rename_i hacq
      cases hs
      exact h.goto (by simp) (fun hmem => absurd hmem hout) fun hf =>
        absurd (hacq ▸ hp) (h.not_acquired hf t intr).2
    · split at hs <;> cases hs
      all_goals
        exact h.goto (by simp) (fun hmem => absurd hmem hout)
          fun _ => .inl (onTheWay_goto intr (by simp))
  · rename_i hp
    cases hs
    exact h.waitQueueWakeOne (.inl hp)
  · rename_i hp
    cases hs
    exact h.waitQueueWakeOne (.inr hp)

/-- **The step lemma.** -/
lemma Guarded.step (hpid : ∀ t, pid t ≠ 0) (s : Mutex τ) (e : MutexEvent τ) (s' : Mutex τ)
    (h : Guarded s) (hs : Step pid s e s') : Guarded s' := by
  unfold Step Mutex.next at hs
  cases e with
  | lock t intr =>
    dsimp only at hs
    split at hs <;> cases hs
    rename_i hp
    have hout := h.notMem (t := t) (by simp [hp, Place.waits])
    exact h.goto (by simp) (fun hmem => absurd hmem hout) fun _ => .inl (onTheWay_goto intr (by simp))
  | trylock t =>
    dsimp only at hs
    split at hs
    · split at hs <;> cases hs
      · rename_i hf
        exact h.acquire hf (hpid t)
      · exact h
    · cases hs
  | unlock t =>
    dsimp only at hs
    split at hs <;> cases hs
    rename_i hp
    exact h.unlock hp.1 hp.2
  | step t => exact h.advance hpid hs
  | signal t pending =>
    cases hs
    exact ⟨h.free, h.one, h.acquired, h.nodup, h.waits, h.queued, fun hf v hv =>
      h.onTheWay hf v hv⟩
  | wake t =>
    cases hs
    exact h.taskWake

/-! ## Tasks on their way -/

/-- What an operation of one task does to another: it stays where it is, and is at most woken. -/
lemma advance_frame (hs : s.advance pid t = some s') (htu : u ≠ t) :
    s'.place u = s.place u ∧ (s.asleep u = false → s'.asleep u = false) := by
  have hupd (b : Bool) (ha : s.asleep u = false) : update s.asleep t b u = false :=
    (update_of_ne htu ..).trans ha
  unfold Mutex.advance at hs
  split at hs
  · cases hs
  · split at hs <;> cases hs <;> exact ⟨goto_place_of_ne htu, id⟩
  · cases hs
    exact ⟨goto_place_of_ne htu, hupd true⟩
  · split at hs <;> cases hs <;> exact ⟨goto_place_of_ne htu, id⟩
  · split at hs <;> cases hs <;> exact ⟨goto_place_of_ne htu, id⟩
  · split at hs <;> cases hs
    exact ⟨goto_place_of_ne htu, id⟩
  · cases hs
    exact ⟨goto_place_of_ne htu, hupd false⟩
  · split at hs
    · cases hs
      exact ⟨goto_place_of_ne htu, id⟩
    · split at hs <;> cases hs <;> exact ⟨goto_place_of_ne htu, id⟩
  all_goals
    cases hs
    rw [waitQueueWakeOne_eq]
    exact ⟨goto_place_of_ne htu, fun ha => by simp [Mutex.goto, ha]⟩

/-- What a step does to a task inside that does not take it: it stays where it is, and is at most
woken. -/
lemma Step.frame (hs : Step pid s e s') (he : e ≠ .step u) (hin : s.place u ≠ .idle) :
    s'.place u = s.place u ∧ (s.asleep u = false → s'.asleep u = false) := by
  unfold Step Mutex.next at hs
  cases e with
  | lock t intr =>
    dsimp only at hs
    split at hs <;> cases hs
    rename_i hp
    exact ⟨goto_place_of_ne fun htu => hin (htu ▸ hp), id⟩
  | trylock t =>
    dsimp only at hs
    split at hs
    · split at hs <;> cases hs <;> exact ⟨rfl, id⟩
    · cases hs
  | unlock t =>
    dsimp only at hs
    split at hs <;> cases hs
    rename_i hp
    exact ⟨goto_place_of_ne fun htu => hin (htu ▸ hp.1), id⟩
  | step t =>
    have htu : u ≠ t := fun htu => he (htu ▸ rfl)
    exact advance_frame hs htu
  | signal t pending =>
    cases hs
    exact ⟨rfl, id⟩
  | wake t =>
    cases hs
    refine ⟨rfl, fun ha => ?_⟩
    by_cases htu : u = t
    · subst htu
      exact update_self ..
    · exact (update_of_ne htu ..).trans ha

/-- A task on its way can go on, and gets closer until it acts. -/
lemma OnTheWay.progress (h : s.OnTheWay u) : ∃ s', Step pid s (.step u) s' ∧
      (s.Acts u ∨ s'.OnTheWay u ∧ s'.remaining u < s.remaining u) := by
  show ∃ s', s.advance pid u = some s' ∧ _
  unfold Mutex.advance
  cases hp : s.place u with
  | idle => simp [OnTheWay, hp] at h
  | arming intr =>
    refine ⟨_, rfl, .inr ⟨onTheWay_goto intr (by simp), ?_⟩⟩
    simp [remaining, hp]
  | top intr | armed intr =>
    refine ⟨_, (apply_ite some ..).symm, .inl ?_⟩
    simp [Acts, hp]
  | failed intr =>
    have ha : s.asleep u = false := by simpa [OnTheWay, hp] using h
    refine ⟨_, (apply_ite some ..).symm, .inr ?_⟩
    split
    · refine ⟨onTheWay_goto intr (by simp), ?_⟩
      simp [remaining, hp]
    · refine ⟨by simpa [OnTheWay, Mutex.goto] using ha, ?_⟩
      simp [remaining, hp]
  | scheduled intr =>
    have ha : s.asleep u = false := by simpa [OnTheWay, hp] using h
    refine ⟨_, if_neg (by simp [ha]), .inr ⟨onTheWay_goto intr (by simp), ?_⟩⟩
    simp [remaining, hp]
  | disarming intr acquired =>
    have hacq : acquired = false := by simpa [OnTheWay, hp] using h
    subst hacq
    refine ⟨_, rfl, .inr ⟨onTheWay_goto intr (by simp), ?_⟩⟩
    simp [remaining, hp]
  | disarmed intr acquired =>
    have hacq : acquired = false := by simpa [OnTheWay, hp] using h
    subst hacq
    refine ⟨_, (apply_ite some ..).symm, .inr ?_⟩
    split
    all_goals
      refine ⟨onTheWay_goto intr (by simp), ?_⟩
      simp [remaining, hp]
  | cancelled | unlocked => exact ⟨_, rfl, .inl (by simp [Acts, hp])⟩

/-- Nobody else stops a task on its way. -/
lemma OnTheWay.undisturbed (h : s.OnTheWay u) (hs : Step pid s e s')
    (he : e ≠ .step u) : s'.OnTheWay u ∧ s'.remaining u = s.remaining u := by
  have hin : s.place u ≠ .idle := fun hp => by simp [OnTheWay, hp] at h
  obtain ⟨hpl, hasl⟩ := hs.frame he hin
  exact ⟨h.mono hpl hasl, by rw [remaining, hpl, remaining]⟩

/-- **Mutual exclusion and no lost wake-up.** In every state that tasks with nonzero pids can reach, at
most one of them holds the mutex; while it is free and one sleeps on the queue, another one is on its
way; and one that is on its way can always go on, is stopped by nobody, and comes to try the mutex or to
wake the next one. -/
theorem mutex_no_lost_wakeup (pid : τ → Nat) (hpid : ∀ t, pid t ≠ 0) (es : List (MutexEvent τ))
    (s : Mutex τ) (hrun : Run (Step pid) init es s) : (∀ t u, s.holds t = true → s.holds u = true → t = u) ∧
      (s.owner = 0 → ∀ t, s.Sleeps t → ∃ u, u ≠ t ∧ s.OnTheWay u) ∧ ∀ u, s.OnTheWay u →
        (∃ s', Step pid s (.step u) s' ∧ (s.Acts u ∨ s'.OnTheWay u ∧ s'.remaining u < s.remaining u)) ∧
        ∀ e s', e ≠ .step u → Step pid s e s' → s'.OnTheWay u ∧ s'.remaining u = s.remaining u := by
  have h : Guarded s := Run.invariant (Guarded.step hpid) hrun Guarded.init
  refine ⟨h.one, fun hf t ht => ?_, fun u hu => ⟨hu.progress, fun e s' he hs => ?_⟩⟩
  · obtain ⟨u, hu⟩ := h.onTheWay hf t ht
    exact ⟨u, hu.ne_of_sleeps ht, hu⟩
  · exact hu.undisturbed hs he

/-- One task holds the mutex, another sleeps, and the first one frees it: it is about to wake the first
task of the queue. -/
theorem mutex_no_lost_wakeup_handover : ∃ s : Mutex Bool,
      Run (Step fun t : Bool => t.toNat + 1) init [.lock false false, .step false, .lock true true,
        .step true, .step true, .step true, .step true, .unlock false] s ∧
        s.owner = 0 ∧ s.Sleeps true ∧ ∃ u, u ≠ true ∧ s.OnTheWay u := by
  have hend : (([.lock false false, .step false, .lock true true, .step true, .step true, .step true,
      .step true, .unlock false].foldlM (next · fun t : Bool => t.toNat + 1) init).map fun s =>
        (s.owner, s.asleep true, s.place true)) = some (0, true, .scheduled true) := by
    rfl
  obtain ⟨s, hs, hfields⟩ := Option.map_eq_some_iff.1 hend
  obtain ⟨hf, hasl, hpl⟩ : s.owner = 0 ∧ s.asleep true = true ∧
      s.place true = .scheduled true := by simpa using hfields
  have hrun := Run.of_foldlM hs
  have hsl : s.Sleeps true := ⟨hasl, true, .inr hpl⟩
  exact ⟨s, hrun, hf, hsl, (mutex_no_lost_wakeup _ (fun t => Nat.succ_ne_zero _) _ _ hrun).2.1 hf true hsl⟩

end Mutex

end OS01.Sync
