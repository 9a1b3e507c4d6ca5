import OS01.Lib.Run
import OS01.Sched.RunQueue

/-!
# Run queues exclude one another

In every state the scheduler reaches, a task is in at most one run queue, a task that runs on a
processor or is being handed over to it or from it belongs to that processor alone, and no runnable
task is lost.

The invariant has three parts. The queues agree with the fields of the tasks (`QueuesOk`). Each
processor holds its current task and at most one more, which it has picked or not yet released, and
what it holds is marked with `on_cpu` and its number (`CpuOk`). Each task that is marked is held by
some processor, and one that can run and is not marked is queued (`TaskOk`). A step touches tasks
that its processor holds, or that no processor holds, so that the other processors keep their part
(`CpuOk.frame`).
-/

namespace OS01.Sched

open Function Lib

variable {τ : Type*} {cfg : Config τ} {s s' : System τ}

/-! ## Reading an updated state -/

@[simp] lemma task_setTask [DecidableEq τ] (s : System τ) (t : τ) (x : Task) : (s.setTask t x).task = update s.task t x := rfl

@[simp] lemma percpu_setTask [DecidableEq τ] (s : System τ) (t : τ) (x : Task) : (s.setTask t x).percpu = s.percpu := rfl

@[simp] lemma task_setCpu (s : System τ) (c : Nat) (p : Percpu τ) : (s.setCpu c p).task = s.task := rfl

@[simp] lemma percpu_setCpu (s : System τ) (c : Nat) (p : Percpu τ) :
    (s.setCpu c p).percpu = update s.percpu c p := rfl

/-- Insertion adds the task and keeps the others. -/
lemma rbtreeInsert_perm (cmp : τ → τ → Int) (t : τ) (l : List τ) : (rbtreeInsert cmp t l).Perm (t :: l) := by
  induction l with
  | nil => exact .refl _
  | cons u us ih =>
    unfold rbtreeInsert
    split_ifs
    · exact .refl _
    · exact (ih.cons u).trans (.swap t u us)

/-! ## Queues -/

/-- The idle task of some processor. -/
def Config.IsIdle (cfg : Config τ) (t : τ) : Prop := ∃ c, t = cfg.idle c

/-- The queues agree with the fields of the tasks. -/
structure QueuesOk (cfg : Config τ) (s : System τ) : Prop where
  nodup : ∀ c, (s.percpu c).runQueue.Nodup
  count : ∀ c, (s.percpu c).nrRunning = (s.percpu c).runQueue.length
  mem : ∀ t c, t ∈ (s.percpu c).runQueue ↔ (s.task t).onRq = true ∧ (s.task t).cpu = c
  queued_running : ∀ t, (s.task t).onRq = true → (s.task t).state = .running
  idle_off : ∀ c, (s.task (cfg.idle c)).onRq = false
  idle_cpu : ∀ c, (s.task (cfg.idle c)).cpu = c
  allowed : ∀ t, ¬ cfg.IsIdle t → refused cfg (s.task t) (s.task t).cpu = false

/-- Two records that the queues cannot tell apart. -/
def Task.SameQueueing (x' x : Task) : Prop :=
  x'.state = x.state ∧ x'.onRq = x.onRq ∧ x'.cpu = x.cpu ∧ x'.allowedCpus = x.allowedCpus

namespace QueuesOk

/-- A change of fields the queues do not depend on. -/
lemma congr (h : QueuesOk cfg s) (ht : ∀ t, (s'.task t).SameQueueing (s.task t))
    (hc : ∀ c, (s'.percpu c).runQueue = (s.percpu c).runQueue ∧
      (s'.percpu c).nrRunning = (s.percpu c).nrRunning) : QueuesOk cfg s' := by
  refine ⟨fun c => ?_, fun c => ?_, fun t c => ?_, fun t hon => ?_, fun c => ?_, fun c => ?_, fun t hi => ?_⟩
  · rw [(hc c).1]
    exact h.nodup c
  · rw [(hc c).1, (hc c).2]
    exact h.count c
  · rw [(hc c).1, (ht t).2.1, (ht t).2.2.1]
    exact h.mem t c
  · rw [(ht t).2.1] at hon
    rw [(ht t).1]
    exact h.queued_running t hon
  · rw [(ht _).2.1]
    exact h.idle_off c
  · rw [(ht _).2.2.1]
    exact h.idle_cpu c
  · rw [refused, (ht t).2.2.1, (ht t).2.2.2]
    exact h.allowed t hi

variable {t : τ} {x : Task}

variable (h : QueuesOk cfg s)
include h

/-- A change of one task that the queues do not see. -/
lemma setSame [DecidableEq τ] (hx : x.SameQueueing (s.task t)) : QueuesOk cfg (s.setTask t x) := by
  refine h.congr (fun u => ?_) fun c => ⟨rfl, rfl⟩
  by_cases hu : u = t
  · subst hu
    simpa using hx
  · simp [update_of_ne hu, Task.SameQueueing]

/-- A change of a processor that keeps its queue. -/
lemma setCpu {c : Nat} {p : Percpu τ}
    (hq : p.runQueue = (s.percpu c).runQueue) (hn : p.nrRunning = (s.percpu c).nrRunning) :
    QueuesOk cfg (s.setCpu c p) := by
  refine h.congr (fun u => ⟨rfl, rfl, rfl, rfl⟩) fun d => ?_
  by_cases hd : d = c
  · subst hd
    simp [hq, hn]
  · simp [update_of_ne hd]

/-- A change of a task that is in no queue, before and after. -/
lemma setOff [DecidableEq τ] (hoff : (s.task t).onRq = false)
    (hoff' : x.onRq = false) (hcpu : cfg.IsIdle t → x.cpu = (s.task t).cpu)
    (hallow : ¬ cfg.IsIdle t → refused cfg x x.cpu = false) : QueuesOk cfg (s.setTask t x) := by
  refine ⟨h.nodup, h.count, fun u c => ?_, fun u hon => ?_, fun c => ?_, fun c => ?_, fun u hi => ?_⟩
  all_goals simp only [task_setTask] at *
  · by_cases hu : u = t
    · subst hu
      have hnot : u ∉ (s.percpu c).runQueue := by
        rw [h.mem, hoff]
        simp
      simp [hnot, hoff']
    · rw [update_of_ne hu]
      exact h.mem u c
  · by_cases hu : u = t
    · subst hu
      simp [hoff'] at hon
    · rw [update_of_ne hu] at hon ⊢
      exact h.queued_running u hon
  · by_cases hu : cfg.idle c = t
    · rw [hu, update_self]
      exact hoff'
    · rw [update_of_ne hu]
      exact h.idle_off c
  · by_cases hu : cfg.idle c = t
    · rw [hu, update_self, hcpu ⟨c, hu.symm⟩, ← hu]
      exact h.idle_cpu c
    · rw [update_of_ne hu]
      exact h.idle_cpu c
  · by_cases hu : u = t
    · subst hu
      rw [update_self]
      exact hallow hi
    · rw [update_of_ne hu]
      exact h.allowed u hi

/-- A queued task is not an idle one. -/
lemma not_idle (hon : (s.task t).onRq = true) : ¬ cfg.IsIdle t := by
  rintro ⟨c, rfl⟩
  rw [h.idle_off c] at hon
  cases hon

end QueuesOk

/-! ## Putting on a queue and taking off -/

variable [DecidableEq τ] {c : Nat} {t : τ}

/-- What `enqueue_task` does when the mask admits the queue. -/
lemma enqueueTask_admitted (h : refused cfg (s.task t) c = false) :
    (∀ u, u ≠ t → (enqueueTask cfg s t c).task u = s.task u) ∧
    ((enqueueTask cfg s t c).task t = { s.task t with
      deadline := u64 ((s.task t).vruntime + EEVDF_MIN_SLICE), onRq := true }) ∧
    (∀ d, ((enqueueTask cfg s t c).percpu d).current = (s.percpu d).current ∧
      ((enqueueTask cfg s t c).percpu d).phase = (s.percpu d).phase) ∧
    (∀ d, d ≠ c → (enqueueTask cfg s t c).percpu d = s.percpu d) ∧
    ((enqueueTask cfg s t c).percpu c).runQueue.Perm (t :: (s.percpu c).runQueue) ∧
    ((enqueueTask cfg s t c).percpu c).nrRunning = (s.percpu c).nrRunning + 1 := by
  unfold enqueueTask
  rw [h]
  refine ⟨fun u hu => ?_, ?_, fun d => ?_, fun d hd => ?_, ?_, ?_⟩
  · simp [update_of_ne hu]
  · simp
  · by_cases hd : d = c
    · subst hd
      simp
    · simp [update_of_ne hd]
  · simp [update_of_ne hd]
  · simpa using rbtreeInsert_perm _ t _
  · simp

/-- Putting a task on the queue of its processor or taking it off. -/
lemma QueuesOk.requeue (h : QueuesOk cfg s) (hi : ¬ cfg.IsIdle t)
    (hcpu : (s.task t).cpu = c) (hoth : ∀ u, u ≠ t → s'.task u = s.task u)
    (hs : (s'.task t).cpu = c ∧ (s'.task t).allowedCpus = (s.task t).allowedCpus ∧
      (s'.task t).state = .running)
    (hrq : ∀ d, d ≠ c → s'.percpu d = s.percpu d) (hnd : (s'.percpu c).runQueue.Nodup)
    (hcnt : (s'.percpu c).nrRunning = (s'.percpu c).runQueue.length) (hmem : ∀ u, u ∈ (s'.percpu c).runQueue ↔
      if u = t then (s'.task t).onRq = true else u ∈ (s.percpu c).runQueue) : QueuesOk cfg s' := by
  have hi' : ∀ d, s'.task (cfg.idle d) = s.task (cfg.idle d) := fun d =>
    hoth _ fun he => hi ⟨d, he.symm⟩
  refine ⟨fun d => ?_, fun d => ?_, fun u d => ?_, fun u hon => ?_, fun d => ?_, fun d => ?_, fun u hu => ?_⟩
  · by_cases hd : d = c
    · exact hd ▸ hnd
    · rw [hrq d hd]
      exact h.nodup d
  · by_cases hd : d = c
    · exact hd ▸ hcnt
    · rw [hrq d hd]
      exact h.count d
  · by_cases hu : u = t
    · subst hu
      by_cases hd : d = c
      · rw [hd, hmem, hs.1]
        simp
      · rw [hrq d hd, h.mem, hcpu, hs.1]
        simp [Ne.symm hd]
    · rw [hoth u hu, ← h.mem]
      by_cases hd : d = c
      · rw [hd, hmem, if_neg hu]
      · rw [hrq d hd]
  · by_cases hu : u = t
    · rw [hu]
      exact hs.2.2
    · rw [hoth u hu] at hon ⊢
      exact h.queued_running u hon
  · rw [hi' d]
    exact h.idle_off d
  · rw [hi' d]
    exact h.idle_cpu d
  · by_cases hut : u = t
    · subst hut
      rw [refused, hs.1, hs.2.1, ← hcpu]
      exact h.allowed u hu
    · rw [hoth u hut]
      exact h.allowed u hu

/-- Putting a runnable task that is in no queue on the queue of its processor. -/
lemma QueuesOk.enqueue (h : QueuesOk cfg s) (hi : ¬ cfg.IsIdle t)
    (hoff : (s.task t).onRq = false) (hrun : (s.task t).state = .running)
    (hcpu : (s.task t).cpu = c) : QueuesOk cfg (enqueueTask cfg s t c) := by
  have hadm : refused cfg (s.task t) c = false := hcpu ▸ h.allowed t hi
  obtain ⟨hoth, hs, -, hrq, hp, hcnt⟩ := enqueueTask_admitted hadm
  have hnew : t ∉ (s.percpu c).runQueue := by
    rw [h.mem, hoff]
    simp
  refine h.requeue hi hcpu hoth ?_ hrq ?_ ?_ fun u => ?_
  · rw [hs]
    exact ⟨hcpu, rfl, hrun⟩
  · exact hp.nodup_iff.2 (List.nodup_cons.2 ⟨hnew, h.nodup c⟩)
  · rw [hcnt, hp.length_eq, List.length_cons, h.count c]
  · rw [hp.mem_iff, hs]
    by_cases hu : u = t <;> simp [hu]

/-- What `dequeue_task` does. -/
lemma dequeueTask_spec (s : System τ) (t : τ) (c : Nat) : (∀ u, u ≠ t → (dequeueTask s t c).task u = s.task u) ∧
    (dequeueTask s t c).task t = { s.task t with onRq := false } ∧
    (∀ d, ((dequeueTask s t c).percpu d).current = (s.percpu d).current ∧
      ((dequeueTask s t c).percpu d).phase = (s.percpu d).phase) ∧
    (∀ d, d ≠ c → (dequeueTask s t c).percpu d = s.percpu d) ∧
    ((dequeueTask s t c).percpu c).runQueue = (s.percpu c).runQueue.erase t ∧
    ((dequeueTask s t c).percpu c).nrRunning = (s.percpu c).nrRunning - 1 := by
  unfold dequeueTask
  refine ⟨fun u hu => ?_, ?_, fun d => ?_, fun d hd => ?_, ?_, ?_⟩
  · simp [update_of_ne hu]
  · simp
  · by_cases hd : d = c
    · subst hd
      simp
    · simp [update_of_ne hd]
  · simp [update_of_ne hd]
  all_goals simp

/-- Taking a task off the queue it is in. -/
lemma QueuesOk.dequeue (h : QueuesOk cfg s) (hon : (s.task t).onRq = true)
    (hcpu : (s.task t).cpu = c) : QueuesOk cfg (dequeueTask s t c) := by
  obtain ⟨hoth, hs, -, hrq, hers, hcnt⟩ := dequeueTask_spec s t c
  have hmem : t ∈ (s.percpu c).runQueue := (h.mem t c).2 ⟨hon, hcpu⟩
  refine h.requeue (h.not_idle hon) hcpu hoth ?_ hrq ?_ ?_ fun u => ?_
  · rw [hs]
    exact ⟨hcpu, rfl, h.queued_running t hon⟩
  · rw [hers]
    exact (h.nodup c).erase t
  · rw [hcnt, hers, List.length_erase_of_mem hmem, h.count c]
  · rw [hers, (h.nodup c).mem_erase_iff, hs]
    by_cases hu : u = t <;> simp [hu]

/-! ## Holding tasks -/

/-- The task a processor is handing over: chosen and not yet run, or left and not yet released. -/
def Phase.handOver : Phase τ → Option τ
  | .running | .entered | .requeued => none
  | .picked next => some next
  | .switched prev => some prev
  | .finishing prev _ => some prev

/-- Processor `c` runs task `t` or is handing it over. -/
def Holds (s : System τ) (c : Nat) (t : τ) : Prop :=
  (s.percpu c).current = t ∨ (s.percpu c).phase.handOver = some t

/-- What holds at each place in `schedule`. -/
def PhaseOk (cfg : Config τ) (s : System τ) (c : Nat) : Prop :=
  match (s.percpu c).phase with
  | .running | .entered => (s.task (s.percpu c).current).onRq = false
  | .requeued => True
  | .picked next => (s.task next).onRq = false ∧
      (next ≠ cfg.idle c → (s.task next).state = .running)
  | .switched prev => (s.task (s.percpu c).current).onRq = false ∧ prev ≠ (s.percpu c).current
  | .finishing prev q => (s.task (s.percpu c).current).onRq = false ∧
      prev ≠ (s.percpu c).current ∧ q = (s.task prev).cpu

/-- The part of processor `c`. -/
structure CpuOk (cfg : Config τ) (s : System τ) (c : Nat) : Prop where
  held : ∀ t, Holds s c t → ¬ cfg.IsIdle t → (s.task t).onCpu = true ∧ (s.task t).cpu = c
  idle : ∀ t, Holds s c t → cfg.IsIdle t → t = cfg.idle c
  phase : PhaseOk cfg s c

/-- The part of task `t`. -/
structure TaskOk (s : System τ) (t : τ) : Prop where
  holder : (s.task t).onCpu = true → ∃ c, Holds s c t
  awake : (s.task t).state = .running → (s.task t).onCpu = false → (s.task t).onRq = true

/-- The invariant. -/
structure Inv (cfg : Config τ) (s : System τ) : Prop where
  queues : QueuesOk cfg s
  cpu : ∀ c, CpuOk cfg s c
  task : ∀ t, ¬ cfg.IsIdle t → TaskOk s t

omit [DecidableEq τ]

/-- A processor keeps its part when its place and the tasks it holds stay; a task may have been
woken. -/
lemma CpuOk.frame (h : CpuOk cfg s c)
    (hp : (s'.percpu c).current = (s.percpu c).current ∧ (s'.percpu c).phase = (s.percpu c).phase)
    (ht : ∀ t, Holds s c t → (s'.task t).onRq = (s.task t).onRq ∧
      (s'.task t).onCpu = (s.task t).onCpu ∧ (s'.task t).cpu = (s.task t).cpu ∧
      ((s'.task t).state = (s.task t).state ∨ (s'.task t).state = .running)) : CpuOk cfg s' c := by
  have hhd : ∀ t, Holds s' c t ↔ Holds s c t := by
    intro t
    unfold Holds
    rw [hp.1, hp.2]
  refine ⟨fun t hh hi => ?_, fun t hh hi => h.idle t ((hhd t).1 hh) hi, ?_⟩
  · have hh' := (hhd t).1 hh
    rw [(ht t hh').2.1, (ht t hh').2.2.1]
    exact h.held t hh' hi
  have hphase := h.phase
  have hcur := ht _ (Or.inl rfl : Holds s c (s.percpu c).current)
  have hhn : ∀ t, (s.percpu c).phase.handOver = some t → Holds s c t := fun t => Or.inr
  unfold PhaseOk at hphase ⊢
  rw [hp.1, hp.2]
  cases hph : (s.percpu c).phase with
  | requeued => trivial
  | picked next =>
    have hn := ht next (hhn next (by rw [hph]; rfl))
    rw [hph] at hphase
    refine ⟨hn.1.trans hphase.1, fun hne => ?_⟩
    obtain hs | hrun := hn.2.2.2
    · rw [hs]
      exact hphase.2 hne
    · exact hrun
  | finishing prev q =>
    have hpr := ht prev (hhn prev (by rw [hph]; rfl))
    simpa [hph, hcur.1, hpr.2.2.1] using hphase
  | _ => simpa [hph, hcur.1] using hphase

/-- A task keeps its part when its fields stay and no processor lets go of it. -/
lemma TaskOk.frame (h : TaskOk s t) (hx : s'.task t = s.task t)
    (hh : ∀ c, Holds s c t → Holds s' c t) : TaskOk s' t := by
  refine ⟨fun hon => ?_, fun hrun hoff => ?_⟩
  · rw [hx] at hon
    obtain ⟨c, hc⟩ := h.holder hon
    exact ⟨c, hh c hc⟩
  · rw [hx] at hrun hoff ⊢
    exact h.awake hrun hoff

/-- A task is held by one processor only. -/
lemma Inv.held_once (h : Inv cfg s) {d : Nat} (hc : Holds s c t) (hd : Holds s d t) : c = d := by
  by_cases hi : cfg.IsIdle t
  · have hc' := (h.cpu c).idle t hc hi
    have hd' := (h.cpu d).idle t hd hi
    exact cfg.idle_injective (hc'.symm.trans hd')
  · have hc' := ((h.cpu c).held t hc hi).2
    have hd' := ((h.cpu d).held t hd hi).2
    exact hc'.symm.trans hd'

/-- A task that is not marked with `on_cpu` is held by no processor. -/
lemma Inv.not_held (h : Inv cfg s) (hi : ¬ cfg.IsIdle t)
    (hoff : (s.task t).onCpu = false) (c : Nat) : ¬ Holds s c t := by
  intro hc
  have hon := ((h.cpu c).held t hc hi).1
  rw [hoff] at hon
  cases hon

/-- The rule for a step of processor `c`: the others keep their place and the fields of the tasks
they hold, and the part of `c` and of the tasks that change is shown directly. -/
lemma Inv.of_step (h : Inv cfg s) (c : Nat) (hq : QueuesOk cfg s')
    (hp : ∀ d, d ≠ c → (s'.percpu d).current = (s.percpu d).current ∧
      (s'.percpu d).phase = (s.percpu d).phase)
    (hx : ∀ t, s'.task t = s.task t ∨ ∀ d, d ≠ c → ¬ Holds s d t) (hc : CpuOk cfg s' c)
    (ht : ∀ t, ¬ cfg.IsIdle t → s'.task t ≠ s.task t → TaskOk s' t)
    (hk : ∀ t, ¬ cfg.IsIdle t → s'.task t = s.task t → Holds s c t → Holds s' c t) : Inv cfg s' := by
  refine ⟨hq, fun d => ?_, fun t hi => ?_⟩
  · by_cases hd : d = c
    · exact hd ▸ hc
    · refine (h.cpu d).frame (hp d hd) fun t hh => ?_
      obtain hs | hnot := hx t
      · rw [hs]
        exact ⟨rfl, rfl, rfl, Or.inl rfl⟩
      · exact absurd hh (hnot d hd)
  by_cases hs : s'.task t = s.task t
  · refine (h.task t hi).frame hs fun d hh => ?_
    by_cases hd : d = c
    · subst hd
      exact hk t hi hs hh
    · unfold Holds at hh ⊢
      rw [(hp d hd).1, (hp d hd).2]
      exact hh
  · exact ht t hi hs

end OS01.Sched
