import Mathlib.Data.Nat.Count
import OS01.Sched.Handover

/-!
# The spread of the virtual run times

On one processor `schedule` charges the running task a tick, puts it back and picks the task with the
earliest deadline, which is one with the least `vruntime`. `used` counts the tick that the running task
still owes as charged, so that a call adds one to a least value of `used` and leaves the others as they
are (`Ready.call`). The spread of such values never grows beyond one or what it was at first
(`vruntime_spread`).
-/

namespace OS01.Sched

open Nat List Lib

variable {τ : Type*} {cfg : Config τ} {s s' : System τ} {t : τ}

/-! ## A call of `schedule` -/

/-- `schedule` from the choice of the next task on. -/
def scheduleRest [DecidableEq τ] (cfg : Config τ) (s : System τ) (c : Nat) : System τ :=
  let s := scheduleSwitch cfg (schedulePick cfg s c) c (pickEevdf cfg s c).1
  match (s.percpu c).phase with
  | .switched prev => taskFinishSwitch cfg (finishLoad s c prev) c prev (s.task prev).cpu
  | _ => s

/-- `schedule` on a processor where nothing happens between its stretches; `v` is what `sched_balance`
reads. -/
def schedule [DecidableEq τ] (cfg : Config τ) (s : System τ) (c : Nat) (v : BalanceView) : System τ :=
  scheduleRest cfg (schedBalance cfg (scheduleRequeue cfg (scheduleEnter cfg s c) c) c v) c

/-- The tree of processor 0. -/
abbrev System.queue (s : System τ) : List τ := (s.percpu 0).runQueue

/-- The task that runs on processor 0. -/
abbrev System.cur (s : System τ) : τ := (s.percpu 0).current

/-- The tasks that compete for processor 0. -/
def Runs (cfg : Config τ) (s : System τ) (t : τ) : Prop :=
  ¬ cfg.IsIdle t ∧ (s.task t).state = .running ∧ (s.task t).cpu = 0

/-- The time a task has used, with the tick that the running one still owes. -/
def used [DecidableEq τ] (s : System τ) (t : τ) : Nat := (s.task t).vruntime + if s.cur = t then 1 else 0

/-- The tree is in the order of the deadlines that `enqueue_task` has set. -/
structure Ordered (s : System τ) : Prop where
  sorted : s.queue.Pairwise fun a b => (s.task a).deadline ≤ (s.task b).deadline
  deadline : ∀ t ∈ s.queue, (s.task t).deadline = u64 ((s.task t).vruntime + EEVDF_MIN_SLICE)

/-- Processor 0 is about to call `schedule`. -/
structure Ready (cfg : Config τ) (s : System τ) : Prop where
  inv : Inv cfg s
  phase : (s.percpu 0).phase = .running
  order : Ordered s

/-! ## The order of the tree -/

/-- Insertion keeps the order of the deadlines. -/
lemma rbtreeInsert_sorted (cfg : Config τ) (task : τ → Task) (t : τ) {l : List τ}
    (h : l.Pairwise fun a b => (task a).deadline ≤ (task b).deadline) :
    (rbtreeInsert (cmpDeadline cfg task) t l).Pairwise fun a b => (task a).deadline ≤ (task b).deadline := by
  induction l with
  | nil => exact pairwise_singleton ..
  | cons u us ih =>
    obtain ⟨hu, hus⟩ := pairwise_cons.1 h
    have hcmp : if cmpDeadline cfg task t u < 0 then (task t).deadline ≤ (task u).deadline
        else (task u).deadline ≤ (task t).deadline := by
      unfold cmpDeadline
      split_ifs <;> omega
    rw [rbtreeInsert]
    split_ifs at hcmp ⊢
    · refine pairwise_cons.2 ⟨fun x hx => ?_, h⟩
      obtain rfl | hx := mem_cons.1 hx
      · exact hcmp
      · exact hcmp.trans (hu x hx)
    · refine pairwise_cons.2 ⟨fun x hx => ?_, ih hus⟩
      obtain rfl | hx := mem_cons.1 ((rbtreeInsert_perm _ t us).mem_iff.1 hx)
      · exact hcmp
      · exact hu x hx

/-- The tree stays in order, and nothing is charged. -/
structure Keeps (s s' : System τ) : Prop where
  order : Ordered s → Ordered s'
  same : ∀ t, (s'.task t).vruntime = (s.task t).vruntime ∧ (s'.task t).state = (s.task t).state ∧
    (s'.task t).cpu = (s.task t).cpu

lemma Keeps.trans {s'' : System τ} (h : Keeps s s') (h' : Keeps s' s'') : Keeps s s'' := by
  refine ⟨h'.order ∘ h.order, fun t => ?_⟩
  rw [(h'.same t).1, (h'.same t).2.1, (h'.same t).2.2]
  exact h.same t

/-- The order depends on the times of the queued tasks only. -/
lemma Ordered.of_sublist (h : Ordered s) (hsub : s'.queue.Sublist s.queue) (hs : ∀ t ∈ s'.queue,
    (s'.task t).vruntime = (s.task t).vruntime ∧ (s'.task t).deadline = (s.task t).deadline) : Ordered s' := by
  constructor
  · refine (h.sorted.sublist hsub).imp_of_mem fun {a b} ha hb hab => ?_
    rw [(hs a ha).2, (hs b hb).2]
    exact hab
  · intro t ht
    rw [(hs t ht).1, (hs t ht).2]
    exact h.deadline t (hsub.subset ht)

lemma keeps_setCpu {p : Percpu τ} (hq : p.runQueue = s.queue) : Keeps s (s.setCpu 0 p) :=
  ⟨fun h => h.of_sublist (by simp [System.queue, hq]) fun _ _ => ⟨rfl, rfl⟩, fun _ => ⟨rfl, rfl, rfl⟩⟩

/-- The tasks that compete are the current one and the queued ones. -/
lemma Runs.queued (ht : Runs cfg s t) (h : Inv cfg s) (hph : (s.percpu 0).phase.handOver = none)
    (hne : t ≠ s.cur) : t ∈ s.queue := by
  obtain ⟨hi, hrun, hcpu⟩ := ht
  rw [h.queues.mem]
  refine ⟨(h.task t hi).awake hrun (Bool.eq_false_iff.2 fun hon => ?_), hcpu⟩
  obtain ⟨c, hc⟩ := (h.task t hi).holder hon
  obtain rfl : 0 = c := hcpu.symm.trans ((h.cpu c).held t hc hi).2
  exact hne (eq_current_of_holds hph hc)

lemma Inv.notMem_queue (h : Inv cfg s) (hoff : (s.task t).onRq = false) : t ∉ s.queue := by
  rw [h.queues.mem, hoff]
  simp

variable [DecidableEq τ]

lemma keeps_setTask {x : Task} (hx : x.vruntime = (s.task t).vruntime ∧ x.deadline = (s.task t).deadline ∧
    x.state = (s.task t).state ∧ x.cpu = (s.task t).cpu) : Keeps s (s.setTask t x) := by
  have hall : ∀ u, ((s.setTask t x).task u).vruntime = (s.task u).vruntime ∧
      ((s.setTask t x).task u).deadline = (s.task u).deadline ∧ ((s.setTask t x).task u).state = (s.task u).state ∧
      ((s.setTask t x).task u).cpu = (s.task u).cpu := by
    intro u
    by_cases hu : u = t
    · subst hu
      simpa using hx
    · simp [hu]
  exact ⟨fun h => h.of_sublist (.refl _) fun u _ => ⟨(hall u).1, (hall u).2.1⟩,
    fun u => ⟨(hall u).1, (hall u).2.2⟩⟩

lemma keeps_dequeueTask (s : System τ) (t : τ) : Keeps s (dequeueTask s t 0) := by
  have hm : Keeps s (s.setTask t { s.task t with onRq := false }) := keeps_setTask ⟨rfl, rfl, rfl, rfl⟩
  refine hm.trans ⟨fun h => h.of_sublist ?_ fun _ _ => ⟨rfl, rfl⟩, fun _ => ⟨rfl, rfl, rfl⟩⟩
  simp [System.queue, dequeueTask, erase_sublist]

lemma keeps_enqueueTask (hnew : t ∉ s.queue) : Keeps s (enqueueTask cfg s t 0) := by
  cases hadm : refused cfg (s.task t) 0 with
  | true =>
    rw [enqueueTask, if_pos hadm]
    exact ⟨id, fun _ => ⟨rfl, rfl, rfl⟩⟩
  | false =>
    obtain ⟨hoth, hs, -, -, hp, -⟩ := enqueueTask_admitted hadm
    have hk : ∀ u ∈ s.queue, (enqueueTask cfg s t 0).task u = s.task u :=
      fun u hu => hoth u fun he => hnew (he ▸ hu)
    refine ⟨fun h => ⟨?_, fun u hu => ?_⟩, fun u => ?_⟩
    · have hque : (enqueueTask cfg s t 0).queue =
          rbtreeInsert (cmpDeadline cfg (enqueueTask cfg s t 0).task) t s.queue := by
        unfold enqueueTask
        simp [System.queue, hadm]
      rw [hque]
      refine rbtreeInsert_sorted cfg _ t (h.sorted.imp_of_mem fun {a b} ha hb hab => ?_)
      rw [hk a ha, hk b hb]
      exact hab
    · obtain rfl | hu := mem_cons.1 (hp.mem_iff.1 hu)
      · rw [hs]
      · rw [hk u hu]
        exact h.deadline u hu
    · by_cases hu : u = t
      · subst hu
        rw [hs]
        exact ⟨rfl, rfl, rfl⟩
      · rw [hoth u hu]
        exact ⟨rfl, rfl, rfl⟩

/-! ## The stretches -/

/-- The current task is charged. -/
lemma Ready.enter (h : Ready cfg s) (hr : ∀ t, Runs cfg s t → used s t < 2 ^ 64) :
    Ordered (scheduleEnter cfg s 0) ∧ ∀ t, (Runs cfg (scheduleEnter cfg s 0) t ↔ Runs cfg s t) ∧
      (Runs cfg s t → ((scheduleEnter cfg s 0).task t).vruntime = used s t) := by
  have hoth : ∀ t, t ≠ s.cur → (scheduleEnter cfg s 0).task t = s.task t :=
    fun t ht => by simp [scheduleEnter, ht]
  refine ⟨h.order.of_sublist (by simp [System.queue, scheduleEnter]) fun t ht => ?_, fun t => ?_⟩
  · rw [hoth t]
    · exact ⟨rfl, rfl⟩
    · rintro rfl
      exact h.inv.notMem_queue (h.inv.current_off (.inl h.phase)) (by simpa [System.queue, scheduleEnter] using ht)
  by_cases htc : t = s.cur
  · subst htc
    obtain ⟨x, hs, -, heq⟩ := scheduleEnter_eq cfg s 0
    constructor
    · simp [Runs, heq, hs.1, hs.2.2.1]
    · intro ht
      have hid : s.cur ≠ cfg.idle 0 := fun hi => ht.1 ⟨0, hi⟩
      have hlt : u64 (used s s.cur) = used s s.cur := mod_eq_of_lt (hr _ ht)
      simpa [scheduleEnter, hid, used] using hlt
  · rw [Runs, hoth t htc, used, if_neg (Ne.symm htc)]
    exact ⟨Iff.rfl, fun _ => rfl⟩

/-- The current task is put back: all that compete are queued. -/
lemma Inv.requeued (h : Inv cfg s) (hph : (s.percpu 0).phase = .entered) :
    Keeps s (scheduleRequeue cfg s 0) ∧ ((scheduleRequeue cfg s 0).percpu 0).phase = .requeued ∧
      ∀ t, Runs cfg s t → t ∈ (scheduleRequeue cfg s 0).queue := by
  have hoff := h.current_off (.inr hph)
  simp only [scheduleRequeue, hoff, Bool.false_eq_true, if_false]
  split_ifs with hput
  · have hid : ¬ cfg.IsIdle s.cur := fun hi => hput.2 ((h.cpu 0).idle _ (.inl rfl) hi)
    have hadm : refused cfg (s.task s.cur) 0 = false := by
      have hall := h.queues.allowed _ hid
      rwa [((h.cpu 0).held _ (.inl rfl) hid).2] at hall
    obtain ⟨-, -, -, -, hp, -⟩ := enqueueTask_admitted hadm
    refine ⟨(keeps_enqueueTask (h.notMem_queue hoff)).trans (keeps_setCpu rfl), by simp, fun t ht => ?_⟩
    by_cases htc : t = s.cur
    · simp [System.queue, hp.mem_iff, htc]
    · simp [System.queue, hp.mem_iff, ht.queued h (by rw [hph]; rfl) htc]
  · refine ⟨keeps_setCpu rfl, by simp, fun t ht => ?_⟩
    have hne : t ≠ s.cur := by
      rintro rfl
      exact hput ⟨ht.2.1, fun hi => ht.1 ⟨0, hi⟩⟩
    simpa [System.queue] using ht.queued h (by rw [hph]; rfl) hne

/-- The previous task is released. -/
lemma Inv.released {prev : τ} {q : Nat} (h : Inv cfg s) (hph : (s.percpu 0).phase = .finishing prev q) :
    Keeps s (taskFinishSwitch cfg s 0 prev q) ∧ ((taskFinishSwitch cfg s 0 prev q).percpu 0).phase = .running ∧
      (taskFinishSwitch cfg s 0 prev q).cur = s.cur := by
  obtain ⟨s1, heq, -, -, hpl, -⟩ := finish_requeue h hph
  have hkp : Keeps s s1 := by
    rw [← heq]
    split_ifs with hput
    · have hhd : Holds s 0 prev := Or.inr (by rw [hph]; rfl)
      have hok := (h.cpu 0).phase
      rw [PhaseOk, hph] at hok
      have hq : q = 0 := by
        rw [hok.2.2]
        by_cases hi : cfg.IsIdle prev
        · rw [(h.cpu 0).idle prev hhd hi, h.queues.idle_cpu]
        · exact ((h.cpu 0).held prev hhd hi).2
      rw [hq]
      exact keeps_enqueueTask (h.notMem_queue hput.2.1)
    · exact ⟨id, fun _ => ⟨rfl, rfl, rfl⟩⟩
  unfold taskFinishSwitch
  dsimp only
  rw [heq]
  refine ⟨hkp.trans (.trans (keeps_setTask ?_) (.trans (keeps_setTask ?_) (keeps_setCpu ?_))), by simp, ?_⟩
  · exact ⟨rfl, rfl, rfl, rfl⟩
  · exact ⟨rfl, rfl, rfl, rfl⟩
  · rfl
  · simpa [System.cur] using (hpl 0).1

/-- The first task of the tree is picked and run. -/
lemma scheduleRest_spec {next : τ} {rest : List τ} (h : Inv cfg s) (hph : (s.percpu 0).phase = .requeued)
    (hq : s.queue = next :: rest) : Keeps s (scheduleRest cfg s 0) ∧ Inv cfg (scheduleRest cfg s 0) ∧
      ((scheduleRest cfg s 0).percpu 0).phase = .running ∧ (scheduleRest cfg s 0).cur = next := by
  have hp : (pickEevdf cfg s 0).1 = next := by
    simp only [pickEevdf, hq]
    split_ifs <;> rfl
  obtain ⟨hon, hcpu⟩ := (h.queues.mem next 0).1 (show next ∈ s.queue by rw [hq]; exact mem_cons_self)
  have hid : next ≠ cfg.idle 0 := fun hi => h.queues.not_idle hon ⟨0, hi⟩
  have hinv := h.pick hph
  obtain ⟨hkp, hpicked, hst⟩ : Keeps s (schedulePick cfg s 0) ∧
      ((schedulePick cfg s 0).percpu 0).phase = .picked next ∧
      ((schedulePick cfg s 0).task next).state = .running := by
    unfold schedulePick
    subst hp
    simp only [ne_eq, hid]
    refine ⟨(keeps_setCpu ?_).trans ((keeps_dequeueTask _ _).trans ((keeps_setTask ?_).trans (keeps_setCpu ?_))), ?_, ?_⟩
    · rfl
    · simp [dequeueTask, hcpu]
    · rfl
    · simp
    · simp [dequeueTask, h.queues.queued_running _ hon]
  have hinv' := hinv.switch hpicked
  rw [scheduleRest, hp]
  generalize schedulePick cfg s 0 = s3 at *
  by_cases hs : next = s3.cur
  · obtain ⟨m, hm⟩ : ∃ m, scheduleSwitch cfg s3 0 next =
        s3.setCpu 0 { s3.percpu 0 with minVruntime := m, phase := .running } :=
      ⟨_, by simp [scheduleSwitch, hst, ← hs]; rfl⟩
    rw [hm] at hinv' ⊢
    exact ⟨hkp.trans (keeps_setCpu rfl), hinv', by simp, by simp [System.cur, hs]⟩
  obtain ⟨m, hm⟩ : ∃ m, scheduleSwitch cfg s3 0 next =
      s3.setCpu 0 { s3.percpu 0 with minVruntime := m, current := next, phase := .switched s3.cur } :=
    ⟨_, by simp [scheduleSwitch, hst, hs]; rfl⟩
  rw [hm] at hinv' ⊢
  have hl := Inv.finishLoad (c := 0) hinv' (show _ = Phase.switched s3.cur by simp)
  have hfinish : ((finishLoad (s3.setCpu 0 { s3.percpu 0 with
      minVruntime := m, current := next, phase := .switched s3.cur }) 0 s3.cur).percpu 0).phase =
        .finishing s3.cur (s3.task s3.cur).cpu := by simp [finishLoad]
  obtain ⟨hkp', hph', hcur'⟩ := hl.released hfinish
  refine ⟨hkp.trans (.trans (.trans (keeps_setCpu ?_) (keeps_setCpu ?_)) hkp'), hl.finish hfinish,
    hph', hcur'.trans ?_⟩
  · rfl
  · rfl
  · simp [System.cur, finishLoad]

/-- **A call**: it charges what was owed and, unless a deadline wraps, picks a task that has used the least time. -/
lemma Ready.call (h : Ready cfg s) (hone : cfg.numCpus = 1) (v : BalanceView) (ht : Runs cfg s t)
    (hr : ∀ t, Runs cfg s t → used s t < 2 ^ 64) :
    Ready cfg (schedule cfg s 0 v) ∧ ∀ u, (Runs cfg (schedule cfg s 0 v) u ↔ Runs cfg s u) ∧
      (Runs cfg s u → ((schedule cfg s 0 v).task u).vruntime = used s u ∧
        ((∀ t, Runs cfg s t → used s t + EEVDF_MIN_SLICE < 2 ^ 64) →
          used s (schedule cfg s 0 v).cur ≤ used s u)) := by
  have hbalance : ∀ s, schedBalance cfg s 0 v = s := by
    simp [schedBalance, balancePlan, busiest, hone]
  rw [schedule, hbalance]
  obtain ⟨hord, hcharge⟩ := h.enter hr
  have hentered : ((scheduleEnter cfg s 0).percpu 0).phase = .entered := by simp [scheduleEnter]
  have hinv := h.inv.enter h.phase
  generalize scheduleEnter cfg s 0 = s1 at *
  obtain ⟨hkp, hrequeued, hall⟩ := hinv.requeued hentered
  have hinv2 := hinv.requeue hentered
  generalize scheduleRequeue cfg s1 0 = s2 at *
  have hin : ∀ u, Runs cfg s u → u ∈ s2.queue := fun u hu => hall u ((hcharge u).1.2 hu)
  obtain ⟨next, rest, hq⟩ := exists_cons_of_ne_nil (ne_nil_of_mem (hin t ht))
  obtain ⟨hkp', hinv', hph', hcur⟩ := scheduleRest_spec hinv2 hrequeued hq
  have hus : ∀ {x}, Keeps s1 x → ∀ u, (Runs cfg x u ↔ Runs cfg s u) ∧
      (Runs cfg s u → (x.task u).vruntime = used s u) := fun hk u => by
    rw [Runs, (hk.same u).1, (hk.same u).2.1, (hk.same u).2.2]
    exact hcharge u
  have hall' := hus (hkp.trans hkp')
  refine ⟨⟨hinv', hph', hkp'.order (hkp.order hord)⟩, fun u => ⟨(hall' u).1, fun hu => ⟨(hall' u).2 hu, fun hr => ?_⟩⟩⟩
  have hdl : ∀ w ∈ s2.queue, (s2.task w).deadline = used s w + EEVDF_MIN_SLICE := by
    intro w hw
    obtain ⟨hon, hcpu⟩ := (hinv2.queues.mem w 0).1 hw
    have hrun := (hus hkp w).1.1 ⟨hinv2.queues.not_idle hon, hinv2.queues.queued_running w hon, hcpu⟩
    rw [(hkp.order hord).deadline w hw, (hus hkp w).2 hrun]
    exact mod_eq_of_lt (hr w hrun)
  have hsrt := (hkp.order hord).sorted
  have hle : (s2.task next).deadline ≤ (s2.task u).deadline := by
    have hu' := hin u hu
    rw [hq] at hsrt hu'
    obtain rfl | hu' := mem_cons.1 hu'
    · exact le_rfl
    · exact (pairwise_cons.1 hsrt).1 u hu'
  rw [hdl next (by rw [hq]; exact mem_cons_self), hdl u (hin u hu)] at hle
  rw [hcur]
  exact le_of_add_le_add_right hle

/-! ## Any number of calls -/

/-- The state after `n` calls. -/
def calls (cfg : Config τ) (v : Nat → BalanceView) (s : System τ) : Nat → System τ
  | 0 => s
  | n + 1 => schedule cfg (calls cfg v s n) 0 (v n)

/-- How many of the first `n` calls picked the task. -/
def picks (cfg : Config τ) (v : Nat → BalanceView) (s : System τ) (t : τ) (n : Nat) : Nat :=
  Nat.count (fun k => (calls cfg v s (k + 1)).cur = t) n

/-- Each call adds one to a least value of `used`, so that no two values move apart by more than one. -/
lemma Ready.run (h : Ready cfg s) (hone : cfg.numCpus = 1) (v : Nat → BalanceView) (n : Nat) (ht : Runs cfg s t)
    (hr : ∀ k ≤ n, ∀ t, Runs cfg s t → ((calls cfg v s k).task t).vruntime + EEVDF_MIN_SLICE < 2 ^ 64) :
    Ready cfg (calls cfg v s n) ∧ ∀ a, (Runs cfg (calls cfg v s n) a ↔ Runs cfg s a) ∧ (Runs cfg s a →
      used (calls cfg v s n) a = used s a + picks cfg v s a n ∧ ∀ b, Runs cfg s b →
        used (calls cfg v s n) a ≤ used (calls cfg v s n) b + max (used s a - used s b) 1 ∧
        (n ≠ 0 → ((calls cfg v s n).task a).vruntime ≤
          ((calls cfg v s n).task b).vruntime + max (used s a - used s b) 1)) := by
  induction n with
  | zero =>
    refine ⟨h, fun a => ⟨Iff.rfl, fun _ => ⟨rfl, fun b _ => ⟨?_, fun h0 => absurd rfl h0⟩⟩⟩⟩
    rw [calls]
    omega
  | succ n ih =>
    obtain ⟨hrdy, hus⟩ := ih fun k hk => hr k (by omega)
    obtain ⟨hrdy', hc⟩ := hrdy.call hone (v n) ((hus t).1.2 ht) fun u hu => by
      have hlt := hr n (by omega) u ((hus u).1.1 hu)
      have hslice : 1 ≤ EEVDF_MIN_SLICE := by decide
      rw [used]
      split_ifs <;> omega
    -- what a task has used now is its `vruntime` after the call, so that no deadline wraps
    have hroom : ∀ u, Runs cfg (calls cfg v s n) u → used (calls cfg v s n) u + EEVDF_MIN_SLICE < 2 ^ 64 := by
      intro u hu
      rw [← ((hc u).2 hu).1]
      exact hr (n + 1) le_rfl u ((hus u).1.1 hu)
    have hpicks : ∀ u, picks cfg v s u (n + 1) = picks cfg v s u n +
        if (schedule cfg (calls cfg v s n) 0 (v n)).cur = u then 1 else 0 := fun u => by
      rw [picks, count_succ]
      rfl
    simp only [calls, hpicks]
    generalize schedule cfg (calls cfg v s n) 0 (v n) = s' at *
    generalize calls cfg v s n = s1 at *
    have hn : ∀ u, Runs cfg s u → (s'.task u).vruntime = used s1 u ∧ used s1 s'.cur ≤ used s1 u := fun u hu =>
      ⟨((hc u).2 ((hus u).1.2 hu)).1, ((hc u).2 ((hus u).1.2 hu)).2 hroom⟩
    refine ⟨hrdy', fun a => ⟨(hc a).1.trans (hus a).1, fun ha => ⟨?_, fun b hb => ⟨?_, fun _ => ?_⟩⟩⟩⟩
    · rw [used, (hn a ha).1, ((hus a).2 ha).1, add_assoc]
    · have hab := (((hus a).2 ha).2 b hb).1
      have hmin := (hn b hb).2
      rw [used, used, (hn a ha).1, (hn b hb).1]
      by_cases hp : s'.cur = a
      · rw [hp] at hmin
        rw [if_pos hp]
        omega
      · rw [if_neg hp]
        omega
    · rw [(hn a ha).1, (hn b hb).1]
      exact (((hus a).2 ha).2 b hb).1

/-- **Fairness of one processor.** With `d` the largest difference of the times used at first, the tick that the running
task owes included: after any positive number of calls of `schedule` in which no `vruntime` comes within
`EEVDF_MIN_SLICE` of the end of its 64 bits, the virtual run times of two tasks that compete differ by at most `d` or
one, and the numbers of times that they were picked by at most `d + 1`. -/
theorem vruntime_spread (hone : cfg.numCpus = 1) (h : Ready cfg s) (v : Nat → BalanceView) (n : Nat) {d : Nat}
    (hspread : ∀ a b, Runs cfg s a → Runs cfg s b → used s a ≤ used s b + d)
    (hroom : ∀ k ≤ n + 1, ∀ a, Runs cfg s a → ((calls cfg v s k).task a).vruntime + EEVDF_MIN_SLICE < 2 ^ 64)
    (a b : τ) (ha : Runs cfg s a) (hb : Runs cfg s b) :
    ((calls cfg v s (n + 1)).task a).vruntime ≤ ((calls cfg v s (n + 1)).task b).vruntime + max d 1 ∧
      picks cfg v s a (n + 1) ≤ picks cfg v s b (n + 1) + (d + 1) := by
  obtain ⟨-, hall⟩ := h.run hone v (n + 1) ha hroom
  obtain ⟨hpicks, hab⟩ := (hall a).2 ha
  obtain ⟨hle, hspread'⟩ := hab b hb
  have hd := hspread a b ha hb
  have hd' := hspread b a hb ha
  rw [((hall b).2 hb).1] at hle
  constructor <;> omega

/-- One processor; the idle task of processor `c` is task `c + 2`. -/
def oneCpu : Config Nat := ⟨1, 8, 1, id, (· + 2), fun _ _ h => Nat.add_right_cancel h⟩

/-- Task 0 runs and is a tick ahead of task 1, which is queued. -/
def ahead : System Nat where
  task t :=
    if t = 0 then { onCpu := true, pid := 2, vruntime := 1 }
    else if t = 1 then { onRq := true, pid := 3, deadline := 10 }
    else { cpu := t - 2 }
  percpu c := if c = 0 then { runQueue := [1], nrRunning := 1, current := 0 } else { current := c + 2 }

lemma isIdle_oneCpu {t : Nat} : oneCpu.IsIdle t ↔ 2 ≤ t :=
  ⟨fun ⟨c, hc⟩ => hc ▸ Nat.le_add_left 2 c, fun ht => ⟨t - 2, (Nat.sub_add_cancel ht).symm⟩⟩

lemma ahead_task {t : Nat} (ht : ¬ oneCpu.IsIdle t) : t = 0 ∨ t = 1 := by
  rw [isIdle_oneCpu] at ht
  omega

lemma ahead_ready : Ready oneCpu ahead := by
  have hph : ∀ c, (ahead.percpu c).phase = .running := by
    intro c
    simp only [ahead]
    split_ifs <;> rfl
  have hhd : ∀ c t, Holds ahead c t → t = 0 ∧ c = 0 ∨ t = c + 2 := by
    intro c t hh
    rw [eq_current_of_holds (by rw [hph]; rfl) hh]
    simp only [ahead]
    split_ifs with hc
    · exact .inl ⟨rfl, hc⟩
    · exact .inr rfl
  refine ⟨⟨⟨fun c => ?_, fun c => ?_, fun t c => ?_, fun t => ?_, fun c => rfl, fun c => ?_, fun t ht => ?_⟩,
    fun c => ⟨fun t hh ht => ?_, fun t hh ht => ?_, ?_⟩, fun t ht => ⟨?_, ?_⟩⟩, rfl, by decide, by decide⟩
  · simp only [ahead]
    split_ifs <;> simp
  · simp only [ahead]
    split_ifs <;> rfl
  · simp only [ahead]
    split_ifs <;> simp <;> omega
  · simp only [ahead]
    split_ifs <;> simp
  · simp [ahead, oneCpu]
  · rcases ahead_task ht with rfl | rfl <;> rfl
  · obtain ⟨rfl, rfl⟩ | rfl := hhd c t hh
    · exact ⟨rfl, rfl⟩
    · exact absurd ⟨c, rfl⟩ ht
  · obtain ⟨rfl, rfl⟩ | rfl := hhd c t hh
    · exact absurd (isIdle_oneCpu.1 ht) (by decide)
    · rfl
  · rw [PhaseOk]
    by_cases hc : c = 0 <;> simp [ahead, hc]
  · obtain rfl | rfl := ahead_task ht
    · exact fun _ => ⟨0, .inl rfl⟩
    · exact fun hon => absurd hon (by decide)
  · obtain rfl | rfl := ahead_task ht
    · exact fun _ hoff => absurd hoff (by decide)
    · exact fun _ _ => rfl

/-- What `sched_balance` reads where there is no other processor. -/
def alone (_ : Nat) : BalanceView := ⟨fun _ => false, fun _ => 0, fun _ => 0, 0, 0⟩

/-- In ten calls task 1 catches up, and the two take turns. -/
theorem vruntime_spread_ahead : ((calls oneCpu alone ahead (9 + 1)).task 0).vruntime ≤
        ((calls oneCpu alone ahead (9 + 1)).task 1).vruntime + max 2 1 ∧
      picks oneCpu alone ahead 0 (9 + 1) ≤ picks oneCpu alone ahead 1 (9 + 1) + (2 + 1) := by
  have hts : ∀ t, Runs oneCpu ahead t → t = 0 ∨ t = 1 := fun t ht => ahead_task ht.1
  have hr : Runs oneCpu ahead 0 ∧ Runs oneCpu ahead 1 := by
    refine ⟨⟨fun hi => ?_, rfl, rfl⟩, fun hi => ?_, rfl, rfl⟩ <;>
    exact absurd (isIdle_oneCpu.1 hi) (by decide)
  refine vruntime_spread (d := 2) rfl ahead_ready alone 9 (fun a b ha hb => ?_) (fun k hk a ha => ?_) 0 1 hr.1 hr.2
  · rcases hts a ha with rfl | rfl <;> rcases hts b hb with rfl | rfl <;> decide
  · have hroom : ∀ k < 9 + 2, ∀ a < 2, ((calls oneCpu alone ahead k).task a).vruntime + EEVDF_MIN_SLICE < 2 ^ 64 := by
      decide +kernel
    rcases hts a ha with rfl | rfl <;> exact hroom k (lt_succ_of_le hk) _ (by decide)

/-- The first call charges the task that is ahead already. -/
theorem vruntime_spread_first_tick :
    Ready oneCpu ahead ∧ (ahead.task 0).vruntime = (ahead.task 1).vruntime + 1 ∧
      ¬ ((calls oneCpu alone ahead 1).task 0).vruntime ≤ ((calls oneCpu alone ahead 1).task 1).vruntime + max 1 1 :=
  ⟨ahead_ready, by decide⟩

end OS01.Sched
