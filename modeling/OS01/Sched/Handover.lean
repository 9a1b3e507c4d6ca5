import OS01.Sched.Exclusive

/-!
# Every stretch of the scheduler keeps the queues exclusive

One lemma for each stretch between two `rq_lock` sections, the step lemma assembled from them, and
the run theorem.
-/

namespace OS01.Sched

open Function Lib Phase QueuesOk

variable {τ : Type*} {cfg : Config τ} {s s' : System τ} {c q src : Nat} {t x prev : τ}

/-! ## Rules for a step of one processor -/

/-- A processor that hands nothing over holds its current task only. -/
lemma eq_current_of_holds (hn : (s.percpu c).phase.handOver = none) (hh : Holds s c t) :
    t = (s.percpu c).current := by
  rw [Holds, hn] at hh
  exact (hh.resolve_right (Option.some_ne_none t).symm).symm

lemma holds_cases (hs : (s.percpu c).phase.handOver = some x) (hh : Holds s c t) :
    (s.percpu c).current = t ∨ x = t := by
  rw [Holds, hs] at hh
  exact hh.imp_right Option.some.inj

/-- The current task is in no queue outside `schedule` and on entry. -/
lemma Inv.current_off (h : Inv cfg s) (hph : (s.percpu c).phase = .running ∨ (s.percpu c).phase = .entered) :
    (s.task (s.percpu c).current).onRq = false := by
  have hok := (h.cpu c).phase
  rcases hph with hph | hph <;>
  · rw [PhaseOk, hph] at hok
    exact hok

/-- The rule for a step that changes the place of processor `c` and no task: the processor keeps the
tasks it holds, and takes at most its idle task. -/
lemma Inv.place (h : Inv cfg s) {p : Percpu τ} (hq : p.runQueue = (s.percpu c).runQueue)
    (hn : p.nrRunning = (s.percpu c).nrRunning)
    (hhl : ∀ t, Holds (s.setCpu c p) c t → Holds s c t ∨ t = cfg.idle c)
    (hk : ∀ t, Holds s c t → Holds (s.setCpu c p) c t) (hph : PhaseOk cfg (s.setCpu c p) c) :
    Inv cfg (s.setCpu c p) := by
  refine h.of_step c (h.queues.setCpu hq hn) (fun d hd => by simp [update_of_ne hd])
    (fun t => .inl rfl) ⟨fun t hh ht => ?_, fun t hh ht => ?_, hph⟩
    (fun t _ hne => absurd rfl hne) (fun t _ _ hh => hk t hh)
  · obtain hh | rfl := hhl t hh
    · exact (h.cpu c).held t hh ht
    · exact absurd ⟨c, rfl⟩ ht
  · obtain hh | rfl := hhl t hh
    · exact (h.cpu c).idle t hh ht
    · rfl

/-- The rule for a step of processor `c` that changes one task, which no other processor holds. -/
lemma Inv.of_change (h : Inv cfg s) (hf : ∀ d, d ≠ c → ¬ Holds s d x)
    (hq : QueuesOk cfg s') (hp : ∀ d, d ≠ c → (s'.percpu d).current = (s.percpu d).current ∧
      (s'.percpu d).phase = (s.percpu d).phase)
    (hoth : ∀ t, t ≠ x → s'.task t = s.task t) (hc : CpuOk cfg s' c)
    (ht : ¬ cfg.IsIdle x → TaskOk s' x) (hk : ∀ t, Holds s c t → Holds s' c t) : Inv cfg s' := by
  refine h.of_step c hq hp (fun t => ?_) hc (fun t hi hne => ?_) fun t _ _ hh => hk t hh
  · by_cases htx : t = x
    · exact .inr (htx ▸ hf)
    · exact .inl (hoth t htx)
  · obtain rfl : t = x := by
      by_contra htx
      exact hne (hoth t htx)
    exact ht hi

/-! ## Outside `schedule` -/

/-- The chosen task is the idle one or a queued one. -/
lemma pickEevdf_fst (cfg : Config τ) (s : System τ) (c : Nat) :
    (pickEevdf cfg s c).1 = cfg.idle c ∨ (pickEevdf cfg s c).1 ∈ (s.percpu c).runQueue := by
  unfold pickEevdf
  dsimp only
  split
  · exact .inl rfl
  · rename_i t rest hrq
    rw [hrq]
    split_ifs <;> exact .inr (by simp)

/-- The read of `prev->cpu`. -/
lemma Inv.finishLoad (h : Inv cfg s) (hph : (s.percpu c).phase = .switched prev) :
    Inv cfg (finishLoad s c prev) := by
  have hok := (h.cpu c).phase
  rw [PhaseOk, hph] at hok
  refine h.place rfl rfl (fun t hh => .inl ?_) (fun t hh => ?_) ?_
  · simpa [Holds, handOver, hph] using hh
  · simpa [Holds, handOver, hph] using hh
  · simpa [PhaseOk] using hok

variable [DecidableEq τ]

/-- The running task changes its own state. -/
lemma Inv.setState (h : Inv cfg s) (hph : (s.percpu c).phase = .running) (state : TaskState) :
    Inv cfg (s.setTask (s.percpu c).current { s.task (s.percpu c).current with state := state }) := by
  set cur := (s.percpu c).current with hcur
  have hok := h.cpu c
  have hhd : Holds s c cur := .inl hcur.symm
  have hoff : (s.task cur).onRq = false := h.current_off (.inl hph)
  refine h.of_change (c := c) (x := cur) (fun d hd hh => hd (h.held_once hh hhd)) ?_
    (fun d _ => ⟨rfl, rfl⟩) (fun t ht => by simp [update_of_ne ht]) ⟨?_, hok.idle, ?_⟩ ?_ fun t hh => hh
  · exact h.queues.setOff hoff hoff (fun _ => rfl) fun hi => h.queues.allowed cur hi
  · intro t hh hi
    have := hok.held t hh hi
    by_cases ht : t = cur
    · subst ht
      simpa using this
    · simpa [update_of_ne ht] using this
  · unfold PhaseOk
    simp only [percpu_setTask, hph, task_setTask, ← hcur, update_self]
    exact hoff
  · intro hi
    have hon := (hok.held cur hhd hi).1
    refine ⟨fun _ => ⟨c, hhd⟩, fun _ hoff => ?_⟩
    simp [hon] at hoff

/-- What entering `schedule` does to the current task. -/
lemma scheduleEnter_eq (cfg : Config τ) (s : System τ) (c : Nat) :
    ∃ x : Task, x.SameQueueing (s.task (s.percpu c).current) ∧ x.onCpu = true ∧
      scheduleEnter cfg s c = (s.setTask (s.percpu c).current x).setCpu c
        { s.percpu c with phase := .entered } := by
  unfold scheduleEnter
  dsimp only
  split_ifs with hi
  · refine ⟨_, ?_, ?_, rfl⟩
    · exact ⟨rfl, rfl, rfl, rfl⟩
    · rfl
  · refine ⟨_, ?_, ?_, rfl⟩
    · exact ⟨rfl, rfl, rfl, rfl⟩
    · rfl

/-- Entering `schedule`. -/
lemma Inv.enter (h : Inv cfg s) (hph : (s.percpu c).phase = .running) : Inv cfg (scheduleEnter cfg s c) := by
  obtain ⟨x, hs, hon, heq⟩ := scheduleEnter_eq cfg s c
  rw [heq]
  set cur := (s.percpu c).current with hcur
  have hok := h.cpu c
  have hhd : Holds s c cur := .inl hcur.symm
  have hoff : (s.task cur).onRq = false := h.current_off (.inl hph)
  -- The processor holds its current task before and after.
  have hiff : ∀ t, Holds ((s.setTask cur x).setCpu c { s.percpu c with phase := .entered }) c t ↔
      t = cur := by
    simp [Holds, handOver, ← hcur, eq_comm]
  refine h.of_change (c := c) (x := cur) (fun d hd hh => hd (h.held_once hh hhd)) ?_
    (fun d hd => ?_) (fun t ht => ?_) ⟨?_, ?_, ?_⟩ ?_ fun t hh => ?_
  · exact (h.queues.setSame hs).setCpu rfl rfl
  · simp [update_of_ne hd]
  · simp [update_of_ne ht]
  · intro t hh hi
    obtain rfl := (hiff t).1 hh
    have := (hok.held cur hhd hi).2
    simp [hon, hs.2.2.1, this]
  · intro t hh hi
    obtain rfl := (hiff t).1 hh
    exact hok.idle cur hhd hi
  · simp [PhaseOk, ← hcur, hs.2.1, hoff]
  · refine fun _ => ⟨fun _ => ⟨c, (hiff cur).2 rfl⟩, fun _ hoff => ?_⟩
    simp [hon] at hoff
  · exact (hiff t).2 (eq_current_of_holds (by rw [hph]; rfl) hh)

/-! ## Putting the current task back -/

/-- The first locked section of `schedule`. -/
lemma Inv.requeue (h : Inv cfg s) (hph : (s.percpu c).phase = .entered) :
    Inv cfg (scheduleRequeue cfg s c) := by
  have hok := h.cpu c
  have hhd : Holds s c (s.percpu c).current := .inl rfl
  have hoff := h.current_off (.inr hph)
  have ho : ∀ t, Holds s c t → t = (s.percpu c).current := fun t hh =>
    eq_current_of_holds (by rw [hph]; rfl) hh
  unfold scheduleRequeue
  dsimp only
  rw [hoff]
  simp only [Bool.false_eq_true, if_false]
  by_cases hput : (s.task (s.percpu c).current).state = .running ∧ (s.percpu c).current ≠ cfg.idle c
  · -- The task can go on: it is put back on the queue of this processor, which is its own.
    rw [if_pos hput]
    have hi : ¬ cfg.IsIdle (s.percpu c).current := fun hi =>
      hput.2 (hok.idle _ hhd hi)
    obtain ⟨hon, hcpu⟩ := hok.held _ hhd hi
    have hq := h.queues.enqueue hi hoff hput.1 hcpu
    have hadm : refused cfg (s.task (s.percpu c).current) c = false := by
      have := h.queues.allowed _ hi
      rwa [hcpu] at this
    obtain ⟨hoth, hs, hpl, -, -, -⟩ := enqueueTask_admitted hadm
    refine h.of_change (fun d hd hh => hd (h.held_once hh hhd)) (hq.setCpu rfl rfl)
      (fun d hd => ?_) hoth ⟨?_, ?_, ?_⟩ (fun _ => ⟨fun _ => ⟨c, .inl ?_⟩, fun _ hoff' => ?_⟩) fun t hh => ?_
    · simpa [update_of_ne hd] using hpl d
    · intro t hh _
      obtain rfl : t = (s.percpu c).current := by
        simpa [Holds, handOver, (hpl c).1, eq_comm] using hh
      simp [hs, hon, hcpu]
    · intro t hh ht
      obtain rfl : t = (s.percpu c).current := by
        simpa [Holds, handOver, (hpl c).1, eq_comm] using hh
      exact absurd ht hi
    · simp [PhaseOk]
    · simp [(hpl c).1]
    · simp [hs, hon] at hoff'
    · obtain rfl := ho t hh
      exact .inl (by simp [(hpl c).1])
  · rw [if_neg hput]
    refine h.place rfl rfl (fun t hh => .inl (.inl ?_)) (fun t hh => .inl ?_) (by simp [PhaseOk])
    · simpa [Holds, handOver] using hh
    · simpa using (ho t hh).symm

/-! ## Choosing the next task -/

section

variable (h : Inv cfg s)
include h

/-- The locked section that commits the next task. -/
lemma Inv.pick (hph : (s.percpu c).phase = .requeued) : Inv cfg (schedulePick cfg s c) := by
  have hok := h.cpu c
  have hcur : Holds s c (s.percpu c).current := .inl rfl
  have ho : ∀ t, Holds s c t → t = (s.percpu c).current := fun t hh =>
    eq_current_of_holds (by rw [hph]; rfl) hh
  have hn := pickEevdf_fst cfg s c
  unfold schedulePick
  generalize pickEevdf cfg s c = choice at hn
  obtain ⟨next, m⟩ := choice
  dsimp only at hn ⊢
  have hq1 : QueuesOk cfg (s.setCpu c { s.percpu c with minVruntime := m }) := h.queues.setCpu rfl rfl
  by_cases hi : next = cfg.idle c
  · rw [if_neg (by simp [hi])]
    simp only [System.setCpu, update_self, update_idem]
    refine h.place rfl rfl (fun t hh => ?_) (fun t hh => .inl ?_) ?_
    · simpa [Holds, handOver, hph, hi, eq_comm] using hh
    · simpa using (ho t hh).symm
    · simp [PhaseOk, hi, h.queues.idle_off]
  -- A queued task: it runs nowhere, or it is the current one, put back before.
  rw [if_pos hi]
  have hmem : next ∈ (s.percpu c).runQueue := hn.resolve_left hi
  obtain ⟨hon, hcpu⟩ := (h.queues.mem next c).1 hmem
  have hrun := h.queues.queued_running next hon
  have hni := h.queues.not_idle hon
  have hq2 := hq1.dequeue hon hcpu
  obtain ⟨hoth, hs, hpl, -, -, -⟩ := dequeueTask_spec (s.setCpu c { s.percpu c with minVruntime := m }) next c
  have hcur' : ((dequeueTask (s.setCpu c { s.percpu c with minVruntime := m }) next c).percpu
      c).current = (s.percpu c).current := by
    simpa using (hpl c).1
  refine h.of_change (fun d hd hh => hd (((h.cpu d).held next hh hni).2.symm.trans hcpu))
    ((hq2.setSame ?_).setCpu rfl rfl) (fun d hd => ?_) (fun t ht => ?_) ⟨?_, ?_, ?_⟩
    (fun _ => ⟨fun _ => ⟨c, .inr ?_⟩, fun _ hoff => ?_⟩) fun t hh => ?_
  · refine ⟨rfl, rfl, ?_, rfl⟩
    simp [hs, hcpu]
  · simpa [update_of_ne hd] using hpl d
  · simp [update_of_ne ht, hoth t ht]
  · intro t hh ht
    have hcs : (s.percpu c).current = t ∨ next = t := by
      simpa [Holds, handOver, hcur'] using hh
    by_cases htn : t = next
    · subst htn
      simp
    · obtain rfl := hcs.resolve_right (Ne.symm htn)
      simpa [update_of_ne htn, hoth _ htn] using hok.held _ hcur ht
  · intro t hh ht
    have hcs : (s.percpu c).current = t ∨ next = t := by
      simpa [Holds, handOver, hcur'] using hh
    obtain rfl | rfl := hcs
    · exact hok.idle _ hcur ht
    · exact absurd ht hni
  · simp [PhaseOk, hs, hrun]
  · simp [handOver]
  · simp at hoff
  · obtain rfl := ho t hh
    exact .inl (by simp [hcur'])

/-- From the choice to the switch. -/
lemma Inv.switch {next : τ} (hph : (s.percpu c).phase = .picked next) :
    Inv cfg (scheduleSwitch cfg s c next) := by
  have hok := h.cpu c
  obtain ⟨hoff, hrun⟩ : (s.task next).onRq = false ∧
      (next ≠ cfg.idle c → (s.task next).state = .running) := by
    have := hok.phase
    rw [PhaseOk, hph] at this
    exact this
  -- A committed task can run, so the fallback to the idle task changes nothing.
  have hsm : (if (s.task next).state ≠ .running then cfg.idle c else next) = next := by
    by_cases hi : next = cfg.idle c
    · simp [hi]
    · simp [hrun hi]
  unfold scheduleSwitch
  rw [hsm]
  by_cases hs : next = (s.percpu c).current
  · rw [if_pos hs]
    refine h.place rfl rfl (fun t hh => .inl ?_) (fun t hh => ?_) ?_
    · simpa [Holds, handOver, hph, hs] using hh
    · simpa [Holds, handOver, hph, hs] using hh
    · simpa [PhaseOk, ← hs] using hoff
  · rw [if_neg hs]
    refine h.place rfl rfl (fun t hh => .inl ?_) (fun t hh => ?_) ?_
    · simpa [Holds, handOver, hph, or_comm] using hh
    · simpa [Holds, handOver, hph, or_comm] using hh
    · simp [PhaseOk, hoff, Ne.symm hs]

/-! ## Releasing the previous task -/

/-- What the locked section of `task_finish_switch` leaves of the previous task, before the mark is
taken off: it is queued if it can run. -/
lemma finish_requeue (hph : (s.percpu c).phase = .finishing prev q) :
    ∃ s₁, (if (s.task prev).state = .running ∧ (s.task prev).onRq = false ∧ prev ≠ cfg.idle q then
        enqueueTask cfg s prev q else s) = s₁ ∧
      QueuesOk cfg s₁ ∧ (∀ u, u ≠ prev → s₁.task u = s.task u) ∧
      (∀ d, (s₁.percpu d).current = (s.percpu d).current ∧ (s₁.percpu d).phase = (s.percpu d).phase) ∧
      (¬ cfg.IsIdle prev → (s₁.task prev).state = .running → (s₁.task prev).onRq = true) := by
  have hok := h.cpu c
  have hp : Holds s c prev := .inr (by rw [hph]; rfl)
  have hq : q = (s.task prev).cpu := by
    have := hok.phase
    rw [PhaseOk, hph] at this
    exact this.2.2
  split_ifs with hput
  · obtain ⟨hrun, hoff, hne⟩ := hput
    have hi : ¬ cfg.IsIdle prev := by
      intro hi
      have hc := hok.idle prev hp hi
      rw [hq, hc, h.queues.idle_cpu c] at hne
      exact hne rfl
    have hadm : refused cfg (s.task prev) q = false := hq ▸ h.queues.allowed prev hi
    obtain ⟨hoth, hs, hpl, -, -, -⟩ := enqueueTask_admitted hadm
    exact ⟨_, rfl, h.queues.enqueue hi hoff hrun hq.symm, hoth, hpl, fun _ _ => by rw [hs]⟩
  · refine ⟨_, rfl, h.queues, fun _ _ => rfl, fun _ => ⟨rfl, rfl⟩, fun hi hrun => ?_⟩
    by_contra hon
    exact hput ⟨hrun, by simpa using hon, fun he => hi ⟨q, he⟩⟩

/-- The locked section of `task_finish_switch`. -/
lemma Inv.finish (hph : (s.percpu c).phase = .finishing prev q) :
    Inv cfg (taskFinishSwitch cfg s c prev q) := by
  have hok := h.cpu c
  have hcur : Holds s c (s.percpu c).current := .inl rfl
  have hp : Holds s c prev := .inr (by rw [hph]; rfl)
  have hb : ∀ t, Holds s c t → (s.percpu c).current = t ∨ prev = t := fun t hh =>
    holds_cases (by rw [hph]; rfl) hh
  obtain ⟨hoff, hne, -⟩ : (s.task (s.percpu c).current).onRq = false ∧
      prev ≠ (s.percpu c).current ∧ q = (s.task prev).cpu := by
    have := hok.phase
    rw [PhaseOk, hph] at this
    exact this
  obtain ⟨s1, hs1, hq1, hoth, hpl, hawake⟩ := finish_requeue h hph
  unfold taskFinishSwitch
  dsimp only
  rw [hs1]
  simp only [percpu_setTask, task_setTask, (hpl c).1, update_of_ne (Ne.symm hne), hoth _ (Ne.symm hne)]
  refine h.of_step c ?_ (fun d hd => ?_) (fun t => ?_) ⟨?_, ?_, ?_⟩ ?_ (fun t _ hs hh => ?_)
  · refine setCpu (setSame (setSame hq1 ?_) ?_) rfl rfl
    · exact ⟨rfl, rfl, rfl, rfl⟩
    · simp [Task.SameQueueing, update_of_ne (Ne.symm hne), hoth _ (Ne.symm hne)]
  · simpa [update_of_ne hd] using hpl d
  · by_cases ht : Holds s c t
    · exact .inr fun d hd hh => hd (h.held_once hh ht)
    · have htc : t ≠ (s.percpu c).current := fun he => ht (.inl he.symm)
      have htp : t ≠ prev := fun he => ht (he ▸ hp)
      exact .inl (by simp [update_of_ne htc, update_of_ne htp, hoth t htp])
  · intro t hh ht
    obtain rfl : t = (s.percpu c).current := by
      simpa [Holds, handOver, eq_comm] using hh
    simpa using (hok.held _ hcur ht).2
  · intro t hh ht
    obtain rfl : t = (s.percpu c).current := by
      simpa [Holds, handOver, eq_comm] using hh
    exact hok.idle _ hcur ht
  · simp [PhaseOk, hoff]
  · intro t ht hchg
    by_cases htc : t = (s.percpu c).current
    · refine ⟨fun _ => ⟨c, .inl ?_⟩, fun _ hoff' => ?_⟩
      · simp [htc]
      · simp [htc] at hoff'
    obtain rfl : t = prev := by
      by_contra htp
      exact hchg (by simp [update_of_ne htc, update_of_ne htp, hoth t htp])
    refine ⟨fun hon => ?_, fun hrun _ => ?_⟩
    · simp [update_of_ne htc] at hon
    · simp only [task_setCpu, task_setTask, update_of_ne htc, update_self] at hrun ⊢
      exact hawake ht hrun
  · -- The previous task has lost its mark, so a task that is unchanged is the current one.
    obtain rfl | rfl := hb t hh
    · exact .inl (by simp)
    · have hon := (hok.held prev hp ‹_›).1
      have hcontra := congrArg Task.onCpu hs
      simp [update_of_ne hne, hon] at hcontra

/-! ## Waking and balancing -/

/-- The rule for a step that changes one task and no processor's place: the task is held by nobody,
or it is only woken. -/
lemma Inv.of_task (t : τ) (hq : QueuesOk cfg s') (hoth : ∀ u, u ≠ t → s'.task u = s.task u)
    (hpl : ∀ d, (s'.percpu d).current = (s.percpu d).current ∧ (s'.percpu d).phase = (s.percpu d).phase)
    (ht : ∀ d, Holds s d t → (s'.task t).onRq = (s.task t).onRq ∧
      (s'.task t).onCpu = (s.task t).onCpu ∧ (s'.task t).cpu = (s.task t).cpu ∧
      ((s'.task t).state = (s.task t).state ∨ (s'.task t).state = .running))
    (hok : ¬ cfg.IsIdle t → TaskOk s' t) : Inv cfg s' := by
  have hhd : ∀ d u, Holds s d u → Holds s' d u := by
    intro d u hh
    unfold Holds at hh ⊢
    rwa [(hpl d).1, (hpl d).2]
  refine ⟨hq, fun d => ?_, fun u hi => ?_⟩
  · refine (h.cpu d).frame (hpl d) fun u hh => ?_
    by_cases hu : u = t
    · subst hu
      exact ht d hh
    · rw [hoth u hu]
      exact ⟨rfl, rfl, rfl, .inl rfl⟩
  · by_cases hu : u = t
    · subst hu
      exact hok hi
    · exact (h.task u hi).frame (hoth u hu) fun d => hhd d u

/-- `task_wake`. -/
lemma Inv.wake (t : τ) : Inv cfg (taskWake cfg s t) := by
  unfold taskWake
  by_cases hs : t = cfg.idle (s.task t).cpu
  · rw [if_pos hs]
    exact h
  rw [if_neg hs]
  have hi : ¬ cfg.IsIdle t := by
    rintro ⟨d, hd⟩
    rw [hd, h.queues.idle_cpu d] at hs
    exact hs rfl
  simp only [task_setTask, update_self, percpu_setTask]
  by_cases hon : (s.task t).onRq = true
  · -- A queued task can run already.
    rw [if_pos hon]
    have hrun := h.queues.queued_running t hon
    refine h.of_task t (h.queues.setSame ⟨hrun.symm, rfl, rfl, rfl⟩)
      (fun u hu => by simp [update_of_ne hu]) (fun d => ⟨rfl, rfl⟩) (fun d _ => by simp) fun _ => ⟨?_, ?_⟩
    · intro hcpu
      exact (h.task t hi).holder (by simpa using hcpu)
    · intro _ _
      simpa using hon
  rw [if_neg hon]
  have hoff : (s.task t).onRq = false := by simpa using hon
  have hall := h.queues.allowed t hi
  by_cases hcpu : (s.task t).onCpu = true
  · -- Its processor puts it back, in `schedule` or in `task_finish_switch`.
    rw [if_pos hcpu]
    refine h.of_task t (h.queues.setOff hoff hoff (fun _ => rfl) fun _ => hall)
      (fun u hu => by simp [update_of_ne hu]) (fun d => ⟨rfl, rfl⟩) (fun d _ => by simp) fun _ => ⟨?_, ?_⟩
    · intro _
      exact (h.task t hi).holder hcpu
    · intro _ hoff'
      simp [hcpu] at hoff'
  · rw [if_neg hcpu]
    have hf : (s.task t).onCpu = false := by simpa using hcpu
    -- The task as it is put on the queue: woken, with its virtual time raised.
    set x : Task := { s.task t with state := .running,
                                    vruntime := max (s.task t).vruntime
                                      ((s.percpu (s.task t).cpu).minVruntime - EEVDF_LATENCY) }
    have hs2 : ((s.setTask t { s.task t with state := .running }).setTask t x) = s.setTask t x := by
      simp [System.setTask]
    rw [hs2]
    have hq2 : QueuesOk cfg (s.setTask t x) := h.queues.setOff hoff hoff (fun _ => rfl) fun _ => hall
    have hx2 : (s.setTask t x).task t = x := by simp
    have hxfree : x.onCpu = false := hf
    have hq3 : QueuesOk cfg (enqueueTask cfg (s.setTask t x) t (s.task t).cpu) :=
      hq2.enqueue hi (by rw [hx2]; exact hoff) (by rw [hx2]) (by rw [hx2])
    have hadm : refused cfg ((s.setTask t x).task t) (s.task t).cpu = false := by
      rw [hx2]
      exact hall
    obtain ⟨hoth, hput, hpl, -, -, -⟩ := enqueueTask_admitted hadm
    refine h.of_task t (hq3.setSame ⟨rfl, rfl, ?_, rfl⟩) (fun u hu => ?_) hpl
      (fun d hh => absurd hh (h.not_held hi hf d)) fun _ => ⟨?_, ?_⟩
    · rw [hput, hx2]
    · rw [task_setTask, update_of_ne hu, hoth u hu, task_setTask, update_of_ne hu]
    · intro hon'
      simp [hput, hxfree] at hon'
    · intro _ _
      simp [hput]

/-- Moving one task that nobody holds to a queue its mask admits. -/
lemma Inv.migrate (hon : (s.task t).onRq = true) (hcpu : (s.task t).cpu = src) (hf : (s.task t).onCpu = false)
    (hm : (s.task t).allowedCpus.getLsbD c = true) : Inv cfg (migrate cfg s t src c) ∧
      ∀ u, u ≠ t → (migrate cfg s t src c).task u = s.task u := by
  have hid := h.queues.not_idle hon
  have hrun := h.queues.queued_running t hon
  have hq1 := h.queues.dequeue hon hcpu
  obtain ⟨hoth1, hsl1, hpl1, -, -, -⟩ := dequeueTask_spec s t src
  unfold Sched.migrate
  dsimp only
  set s1 := dequeueTask s t src with hs1
  set x : Task := { s1.task t with cpu := c,
                                   vruntime := max (s1.task t).vruntime (s1.percpu c).minVruntime } with hx
  have hadmitted : ∀ y : Task, y.allowedCpus = (s.task t).allowedCpus → refused cfg y c = false := by
    intro y hy
    simp [refused, hy, hm]
  have hq2 : QueuesOk cfg (s1.setTask t x) := by
    refine hq1.setOff (by rw [hsl1]) (by rw [hx, hsl1]) (fun hi => absurd hi hid) fun _ => ?_
    exact hadmitted x (by rw [hx, hsl1])
  have hx2 : (s1.setTask t x).task t = x := by simp
  have hxr : x.state = .running := by rw [hx, hsl1]; exact hrun
  have hxfree : x.onCpu = false := by rw [hx, hsl1]; exact hf
  have hq3 : QueuesOk cfg (enqueueTask cfg (s1.setTask t x) t c) :=
    hq2.enqueue hid (by rw [hx2, hx, hsl1]) (by rw [hx2]; exact hxr) (by rw [hx2])
  have hadm : refused cfg ((s1.setTask t x).task t) c = false := by
    rw [hx2]
    exact hadmitted x (by rw [hx, hsl1])
  obtain ⟨hoth2, hput, hpl2, -, -, -⟩ := enqueueTask_admitted hadm
  have hoth : ∀ u, u ≠ t → (enqueueTask cfg (s1.setTask t x) t c).task u = s.task u := by
    intro u hu
    rw [hoth2 u hu, task_setTask, update_of_ne hu, hoth1 u hu]
  refine ⟨h.of_task t hq3 hoth (fun d => ?_)
    (fun d hh => absurd hh (h.not_held hid hf d)) fun _ => ⟨?_, ?_⟩, hoth⟩
  · rw [(hpl2 d).1, (hpl2 d).2]
    exact hpl1 d
  · intro hon'
    simp [hput, hxfree] at hon'
  · intro _ _
    simp [hput]

/-- The loop of `sched_balance`: the nodes it has still to visit are in the source's tree. -/
lemma Inv.steal {nodes : List τ} {left : Nat} (hnd : nodes.Nodup)
    (hnodes : ∀ t ∈ nodes, (s.task t).onRq = true ∧ (s.task t).cpu = src) :
    Inv cfg (stealLoop cfg src c nodes left s) := by
  induction nodes generalizing s left with
  | nil => simpa [stealLoop] using h
  | cons t nodes ih =>
    obtain ⟨hnot, hr⟩ := List.nodup_cons.1 hnd
    cases left with
    | zero => simpa [stealLoop] using h
    | succ left =>
      rw [stealLoop]
      split_ifs with hpin
      · exact ih h hr fun u hu => hnodes u (by simp [hu])
      simp only [pinned, Bool.or_eq_true, not_or] at hpin
      obtain ⟨⟨⟨_, _⟩, hf⟩, hm⟩ := hpin
      obtain ⟨hon, hcpu⟩ := hnodes t (by simp)
      obtain ⟨hinv, hoth⟩ := h.migrate (c := c) hon hcpu (by simpa using hf) (by simpa using hm)
      refine ih hinv hr fun u hu => ?_
      have hne : u ≠ t := fun he => hnot (he ▸ hu)
      rw [hoth u hne]
      exact hnodes u (by simp [hu])

/-- `sched_balance`. -/
lemma Inv.balance (c : Nat) (v : BalanceView) : Inv cfg (schedBalance cfg s c v) := by
  unfold schedBalance
  cases balancePlan cfg c v with
  | none => exact h
  | some plan =>
    obtain ⟨src, count⟩ := plan
    dsimp only
    have hsteal : Inv cfg (stealLoop cfg src c (s.percpu src).runQueue.reverse count s) := by
      refine h.steal ((List.reverse_perm _).nodup_iff.2 (h.queues.nodup src)) fun t ht => ?_
      exact (h.queues.mem t src).1 (List.mem_reverse.1 ht)
    split_ifs
    · refine hsteal.place rfl rfl (fun t hh => .inl ?_) (fun t hh => ?_) ?_
      · simpa [Holds] using hh
      · simpa [Holds] using hh
      · simpa [PhaseOk] using (hsteal.cpu src).phase
    · exact hsteal

/-! ## Whole runs -/

/-- One step keeps the invariant. -/
lemma Step.inv {t : System τ} {e : Event τ} (hst : Step cfg s e t) : Inv cfg t := by
  cases hst with
  | setState hph => exact h.setState hph _
  | enter hph => exact h.enter hph
  | requeue hph => exact h.requeue hph
  | balance _ => exact h.balance _ _
  | pick hph => exact h.pick hph
  | switch hph => exact h.switch hph
  | finishLoad hph => exact h.finishLoad hph
  | finish hph => exact h.finish hph
  | wake => exact h.wake _

end

/-- A state to start from: every processor runs its idle task outside `schedule`, the queues agree
with the tasks, no other task is on a processor, and those that can run are queued. -/
structure Start (cfg : Config τ) (s : System τ) : Prop where
  queues : QueuesOk cfg s
  idle : ∀ c, (s.percpu c).current = cfg.idle c ∧ (s.percpu c).phase = .running
  off : ∀ t, ¬ cfg.IsIdle t → (s.task t).onCpu = false
  queued : ∀ t, ¬ cfg.IsIdle t → (s.task t).state = .running → (s.task t).onRq = true

omit [DecidableEq τ] in
lemma Start.inv (h : Start cfg s) : Inv cfg s := by
  have hhd : ∀ c t, Holds s c t → t = cfg.idle c := by
    intro c t hh
    unfold Holds at hh
    rw [(h.idle c).1, (h.idle c).2] at hh
    simpa [handOver, eq_comm] using hh
  refine ⟨h.queues, fun c => ⟨fun t hh hi => ?_, fun t hh _ => hhd c t hh, ?_⟩,
    fun t hi => ⟨fun hon => ?_, fun hrun _ => h.queued t hi hrun⟩⟩
  · exact absurd ⟨c, hhd c t hh⟩ hi
  · rw [PhaseOk, (h.idle c).2, (h.idle c).1]
    exact h.queues.idle_off c
  · rw [h.off t hi] at hon
    cases hon

/-- Run queues exclude one another, and no runnable task is lost. -/
structure Exclusive (cfg : Config τ) (s : System τ) : Prop where
  /-- A task is in at most one queue, once. -/
  one_queue : ∀ t c d, t ∈ (s.percpu c).runQueue → t ∈ (s.percpu d).runQueue → c = d
  once : ∀ c, (s.percpu c).runQueue.Nodup
  /-- It is marked `on_rq` exactly when it is in the queue of its processor. -/
  marked : ∀ t, (s.task t).onRq = true ↔ t ∈ (s.percpu (s.task t).cpu).runQueue
  /-- It runs on one processor only. -/
  one_cpu : ∀ c d, (s.percpu c).current = (s.percpu d).current → c = d
  /-- It is not queued on one processor while another runs it or is committed to it. -/
  apart : ∀ t c d, t ∈ (s.percpu d).runQueue →
    (s.percpu c).current = t ∨ (s.percpu c).phase = .picked t → c = d
  /-- The counter of a queue is its size. -/
  count : ∀ c, (s.percpu c).nrRunning = (s.percpu c).runQueue.length
  /-- A task that can run is queued, running or being handed over. -/
  kept : ∀ t, ¬ cfg.IsIdle t → (s.task t).state = .running →
    (∃ c, t ∈ (s.percpu c).runQueue) ∨
      ∃ c, (s.percpu c).current = t ∨ (s.percpu c).phase.handOver = some t

omit [DecidableEq τ] in
lemma Inv.exclusive (h : Inv cfg s) : Exclusive cfg s := by
  refine ⟨fun t c d hc hd => ?_, h.queues.nodup, fun t => ?_, fun c d hcd => ?_,
    fun t c d hmem hrun => ?_, h.queues.count, fun t hi hrun => ?_⟩
  · exact ((h.queues.mem t c).1 hc).2.symm.trans ((h.queues.mem t d).1 hd).2
  · rw [h.queues.mem]
    simp
  · exact h.held_once (.inl rfl) (.inl hcd.symm)
  · obtain ⟨hon, hcpu⟩ := (h.queues.mem t d).1 hmem
    have hhd : Holds s c t := by
      obtain hcur | hp := hrun
      · exact .inl hcur
      · exact .inr (by rw [hp]; rfl)
    exact ((h.cpu c).held t hhd (h.queues.not_idle hon)).2.symm.trans hcpu
  · by_cases hon : (s.task t).onCpu = true
    · exact .inr ((h.task t hi).holder hon)
    · have hq := (h.task t hi).awake hrun (by simpa using hon)
      exact .inl ⟨_, (h.queues.mem t _).2 ⟨hq, rfl⟩⟩

/-- **Run-queue exclusivity.** In every state reached from a starting state, by any interleaving of
the stretches of `schedule` and `task_finish_switch` on any processors, of wake-ups of any tasks and
of state changes by running tasks, the run queues exclude one another and no runnable task is
lost. -/
theorem runQueues_exclusive {s₀ : System τ} {es : List (Event τ)} (h₀ : Start cfg s₀)
    (hrun : Run (Step cfg) s₀ es s) : Exclusive cfg s :=
  (hrun.invariant (I := Inv cfg) (fun _ _ _ h hst => hst.inv h) h₀.inv).exclusive

/-- Idle tasks on the left, two other tasks on the right. -/
def exampleConfig : Config (Nat ⊕ Fin 2) where
  numCpus := 2
  nrCpus := 8
  userInitPid := 1
  address := fun t => t.elim (fun c => c) fun i => 100 + i
  idle := Sum.inl
  idle_injective := Sum.inl_injective

/-- The first task is queued on processor 0, the second sleeps. -/
def exampleSystem : System (Nat ⊕ Fin 2) where
  task := fun t => match t with
    | .inl c => { onCpu := true, cpu := c }
    | .inr 0 => { onRq := true, pid := 2 }
    | .inr 1 => { state := .interruptible, pid := 3 }
  percpu := fun c =>
    if c = 0 then { runQueue := [.inr 0], nrRunning := 1, current := .inl 0 }
    else { current := .inl c }

/-- The processors of the example, one by one. -/
lemma exampleSystem_percpu (c : Nat) : exampleSystem.percpu c =
    if c = 0 then { runQueue := [.inr 0], nrRunning := 1, current := .inl 0 }
    else { current := .inl c } := rfl

lemma exampleSystem_start : Start exampleConfig exampleSystem := by
  have hrt : ∀ t, ¬ exampleConfig.IsIdle t → t = .inr 0 ∨ t = .inr 1 := by
    rintro (c | i) hi
    · exact absurd ⟨c, rfl⟩ hi
    · match i with
      | 0 => exact .inl rfl
      | 1 => exact .inr rfl
  refine ⟨⟨fun c => ?_, fun c => ?_, fun t c => ?_, fun t => ?_, fun c => rfl, fun c => rfl,
    fun t hi => ?_⟩, fun c => ?_, fun t hi => ?_, fun t hi => ?_⟩
  · rw [exampleSystem_percpu]
    split_ifs <;> simp
  · rw [exampleSystem_percpu]
    split_ifs <;> simp
  · rw [exampleSystem_percpu]
    obtain d | i := t
    · split_ifs <;> simp [exampleSystem]
    · match i with
      | 0 => split_ifs with hc <;> simp [exampleSystem, hc, eq_comm]
      | 1 => split_ifs <;> simp [exampleSystem]
  · obtain d | i := t
    · exact fun _ => rfl
    · match i with
      | 0 => exact fun _ => rfl
      | 1 => exact fun hon => absurd hon (by decide)
  · rcases hrt t hi with rfl | rfl <;> decide
  · rw [exampleSystem_percpu]
    split_ifs with hc
    · exact ⟨by rw [hc]; rfl, rfl⟩
    · exact ⟨rfl, rfl⟩
  · rcases hrt t hi with rfl | rfl <;> rfl
  · obtain rfl | rfl := hrt t hi
    · exact fun _ => rfl
    · exact fun hrun => absurd hrun (by decide)

/-- The theorem for a call of `schedule` during which a task is woken. -/
theorem runQueues_exclusive_example : ∃ s, Run (Step exampleConfig) exampleSystem
        [.enter 0, .requeue 0, .pick 0, .switch 0, .finishLoad 0, .wake (.inr 1), .finish 0,
          .setState 0 .interruptible] s ∧ Exclusive exampleConfig s := by
  apply Exists.imp (fun s hrun => ⟨hrun, runQueues_exclusive exampleSystem_start hrun⟩)
  exact ⟨_, .cons (.enter rfl) (.cons (.requeue rfl) (.cons (.pick rfl) (.cons (.switch rfl)
    (.cons (.finishLoad rfl) (.cons .wake (.cons (.finish rfl) (.cons (.setState rfl) (.nil _))))))))⟩

end OS01.Sched
