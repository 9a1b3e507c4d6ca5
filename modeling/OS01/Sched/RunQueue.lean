import Mathlib.Algebra.Order.Ring.Nat
import OS01.Lib.Bits

/-!
# Run queues

The scheduler's hand-over of tasks between run queues and processors: `enqueue_task`,
`dequeue_task`, `pick_eevdf` (`kernel/sched/fair.c`), `sched_balance` (`kernel/sched/balance.c`),
`schedule`, `task_finish_switch` and `task_wake` (`kernel/sched/core.c`).

`schedule` is cut into the stretches between its `rq_lock` sections. Each stretch is one function on
the whole state; which of them a processor is at is its `Phase`. Between two stretches of one
processor any stretch of another may run. The tree of a run queue is the list of its tasks in the
order of `cmp_deadline`. Tasks are named by an arbitrary type, processors by their number.
`nr_running` has 32 bits and is a natural number here: it is the number of tasks in the tree (`QueuesOk.count` of
`OS01.Sched.Exclusive`), each of which has a stack of 32 KiB, so that memory for `2 ^ 32` of them is out of the question.
-/

namespace OS01.Sched

open Function Lib

/-! ## Tasks and processors -/

/-- Length of a time slice in ticks. -/
def EEVDF_MIN_SLICE : Nat := 10
/-- The eligibility window in ticks. -/
def EEVDF_LATENCY : Nat := 40

/-- The values of `task_t.state`. -/
inductive TaskState
  | running
  | interruptible
  | uninterruptible
  | zombie
  | stopped
deriving DecidableEq, Repr

/-- The fields of `task_t` the scheduler works with. -/
structure Task where
  state : TaskState := .running
  onRq : Bool := false
  onCpu : Bool := false
  cpu : Nat := 0
  allowedCpus : BitVec 64 := BitVec.allOnes 64
  pid : Int := 0
  vruntime : Nat := 0
  deadline : Nat := 0
deriving DecidableEq, Repr

/-- Where a processor is in `schedule`.

`switched` and `finishing` are the two halves of `task_finish_switch`, before and after it has read
`prev->cpu` to choose the lock it takes. -/
inductive Phase (τ : Type*)
  /-- Outside `schedule`. -/
  | running
  /-- In `schedule`, before the current task is put back. -/
  | entered
  /-- The current task is off the queue or back on it; waking and balancing come here. -/
  | requeued
  /-- The next task is chosen. -/
  | picked (next : τ)
  /-- On the next task's stack; the previous one is not released yet. -/
  | switched (prev : τ)
  /-- The previous task is about to be released under the lock of queue `q`. -/
  | finishing (prev : τ) (q : Nat)

/-- `percpu_t`, with the task that runs on the processor and the processor's place in `schedule`. -/
structure Percpu (τ : Type*) where
  runQueue : List τ := []
  nrRunning : Nat := 0
  minVruntime : Nat := 0
  current : τ
  phase : Phase τ := .running

/-- The state of the scheduler. -/
structure System (τ : Type*) where
  task : τ → Task
  percpu : Nat → Percpu τ

/-- What does not change: the number of processors and of mask bits, `user_init_pid`, the addresses
of the tasks' tree nodes, and each processor's own idle task. -/
structure Config (τ : Type*) where
  numCpus : Nat
  nrCpus : Nat
  userInitPid : Int
  address : τ → Nat
  idle : Nat → τ
  idle_injective : Function.Injective idle

variable {τ : Type*} [DecidableEq τ] (s : System τ)

/-- Update task `t`. -/
def System.setTask (t : τ) (x : Task) : System τ :=
  { s with task := update s.task t x }

/-- Update processor `c`. -/
def System.setCpu (c : Nat) (p : Percpu τ) : System τ :=
  { s with percpu := update s.percpu c p }

/-! ## The tree -/

variable (cfg : Config τ)

/-- `cmp_deadline`: order by deadline, then pid, then address. -/
def cmpDeadline (task : τ → Task) (a b : τ) : Int :=
  if (task a).deadline < (task b).deadline then -1
  else if (task b).deadline < (task a).deadline then 1
  else if (task a).pid < (task b).pid then -1
  else if (task b).pid < (task a).pid then 1
  else if cfg.address a < cfg.address b then -1 else 1

/-- `rbtree_insert` on the tree seen as the list of its nodes in order. -/
def rbtreeInsert (cmp : τ → τ → Int) (t : τ) : List τ → List τ
  | [] => [t]
  | u :: us => if cmp t u < 0 then t :: u :: us else u :: rbtreeInsert cmp t us

/-- The mask test of `enqueue_task`: the task may not be put on queue `c`. -/
def refused (x : Task) (c : Nat) : Bool :=
  decide (c < cfg.nrCpus) && !x.allowedCpus.getLsbD c

/-- `enqueue_task`. -/
def enqueueTask (s : System τ) (t : τ) (c : Nat) : System τ :=
  if refused cfg (s.task t) c then s
  else
    let s := s.setTask t
      { s.task t with deadline := u64 ((s.task t).vruntime + EEVDF_MIN_SLICE), onRq := true }
    let rq := s.percpu c
    s.setCpu c { rq with runQueue := rbtreeInsert (cmpDeadline cfg s.task) t rq.runQueue,
                         nrRunning := rq.nrRunning + 1 }

/-- `dequeue_task`. -/
def dequeueTask (t : τ) (c : Nat) : System τ :=
  let rq := s.percpu c
  (s.setCpu c { rq with runQueue := rq.runQueue.erase t, nrRunning := rq.nrRunning - 1 }).setTask t
    { s.task t with onRq := false }

/-- `pick_eevdf`: the first task of the tree, or the idle task, with the new `min_vruntime`. -/
def pickEevdf (s : System τ) (c : Nat) : τ × Nat :=
  let rq := s.percpu c
  match rq.runQueue with
  | [] => (cfg.idle c, rq.minVruntime)
  | t :: _ =>
    if u64 (rq.minVruntime + EEVDF_LATENCY) < (s.task t).vruntime then (t, (s.task t).vruntime)
    else (t, rq.minVruntime)

/-! ## The stretches of `schedule` -/

/-- Entry of `schedule`: mark the current task as on the processor and charge its time. -/
def scheduleEnter (s : System τ) (c : Nat) : System τ :=
  let rq := s.percpu c
  let x := { s.task rq.current with onCpu := true }
  let x := if rq.current = cfg.idle c then x else { x with vruntime := u64 (x.vruntime + 1) }
  (s.setTask rq.current x).setCpu c { rq with phase := .entered }

/-- The first locked section: take the current task off the queue, and put it back if it can go
on running. -/
def scheduleRequeue (s : System τ) (c : Nat) : System τ :=
  let cur := (s.percpu c).current
  let s := if (s.task cur).onRq then dequeueTask s cur c else s
  let s := if (s.task cur).state = .running ∧ cur ≠ cfg.idle c then enqueueTask cfg s cur c else s
  s.setCpu c { s.percpu c with phase := .requeued }

/-- The locked section that chooses the next task and commits it to this processor. -/
def schedulePick (s : System τ) (c : Nat) : System τ :=
  let (next, minVruntime) := pickEevdf cfg s c
  let s := s.setCpu c { s.percpu c with minVruntime := minVruntime }
  let s := if next ≠ cfg.idle c then
      let s := dequeueTask s next c
      s.setTask next { s.task next with onCpu := true, cpu := c }
    else s
  s.setCpu c { s.percpu c with phase := .picked next }

/-- From the choice to the switch: fall back to the idle task if the chosen one cannot run, stay
if it is the current one, else go over to its stack. -/
def scheduleSwitch (s : System τ) (c : Nat) (next : τ) : System τ :=
  let rq := s.percpu c
  let next := if (s.task next).state ≠ .running then cfg.idle c else next
  if next = rq.current then
    let minVruntime :=
      if next ≠ cfg.idle c ∧ (s.task next).deadline ≤ (s.task next).vruntime ∧
          rq.minVruntime < (s.task next).vruntime then (s.task next).vruntime
      else rq.minVruntime
    s.setCpu c { rq with minVruntime := minVruntime, phase := .running }
  else
    let minVruntime :=
      if next ≠ cfg.idle c ∧ rq.minVruntime < (s.task next).vruntime then (s.task next).vruntime
      else rq.minVruntime
    s.setCpu c { rq with minVruntime := minVruntime, current := next,
                         phase := .switched rq.current }

/-- The read of `prev->cpu` at the start of `task_finish_switch`. -/
def finishLoad (c : Nat) (prev : τ) : System τ :=
  s.setCpu c { s.percpu c with phase := .finishing prev (s.task prev).cpu }

/-- The locked section of `task_finish_switch`, and the return into the task that now runs. -/
def taskFinishSwitch (s : System τ) (c : Nat) (prev : τ) (q : Nat) : System τ :=
  let x := s.task prev
  let s := if x.state = .running ∧ x.onRq = false ∧ prev ≠ cfg.idle q then
      enqueueTask cfg s prev q
    else s
  let s := s.setTask prev { s.task prev with onCpu := false }
  let cur := (s.percpu c).current
  let s := s.setTask cur { s.task cur with onCpu := true }
  s.setCpu c { s.percpu c with phase := .running }

/-! ## Waking and balancing -/

/-- `task_wake`. Its locked section is entered with the lock of `t->cpu`, or else released and
tried again. -/
def taskWake (s : System τ) (t : τ) : System τ :=
  let c := (s.task t).cpu
  if t = cfg.idle c then s
  else
    let s := s.setTask t { s.task t with state := .running }
    if (s.task t).onRq then s
    else if (s.task t).onCpu then s
    else
      let floor := (s.percpu c).minVruntime - EEVDF_LATENCY
      let s := s.setTask t { s.task t with vruntime := max (s.task t).vruntime floor }
      let s := enqueueTask cfg s t c
      s.setTask t { s.task t with cpu := c }

/-- The values `sched_balance` reads without a lock before it decides. They may be stale, and the
reads of the own counter need not agree. -/
structure BalanceView where
  ready : Nat → Bool
  nrRunning : Nat → Nat
  minVruntime : Nat → Nat
  gateNr : Nat
  countNr : Nat

/-- The busiest other processor: its number, its load and its `min_vruntime`. -/
def busiest (c : Nat) (v : BalanceView) : Option (Nat × Nat × Nat) :=
  (List.range cfg.numCpus).foldl (fun best i =>
    if i = c ∨ v.ready i = false ∨ v.nrRunning i = 0 then best
    else
      match best with
      | none => some (i, v.nrRunning i, v.minVruntime i)
      | some (_, maxNr, maxVr) =>
        if maxNr < v.nrRunning i ∨ v.nrRunning i = maxNr ∧ maxVr < v.minVruntime i then
          some (i, v.nrRunning i, v.minVruntime i)
        else best) none

/-- The decision of `sched_balance`: the source and how many tasks to take. -/
def balancePlan (c : Nat) (v : BalanceView) : Option (Nat × Nat) :=
  match busiest cfg c v with
  | none => none
  | some (src, maxNr, _) =>
    if 0 < v.gateNr ∧ maxNr ≤ v.gateNr + 1 then none
    else some (src, max 1 ((maxNr - v.countNr) / 2))

/-- Moving one task from queue `src` to queue `c`. -/
def migrate (s : System τ) (t : τ) (src c : Nat) : System τ :=
  let s := dequeueTask s t src
  let s := s.setTask t { s.task t with cpu := c,
                                       vruntime := max (s.task t).vruntime (s.percpu c).minVruntime }
  enqueueTask cfg s t c

/-- The tasks `sched_balance` leaves where they are. -/
def pinned (s : System τ) (t : τ) (src c : Nat) : Bool :=
  decide (t = cfg.idle src) || decide ((s.task t).pid = cfg.userInitPid) ||
    (s.task t).onCpu || !(s.task t).allowedCpus.getLsbD c

/-- The loop over the source's tree from its tail; `nodes` are the nodes still to visit and `left`
is how many tasks may still be taken. -/
def stealLoop (cfg : Config τ) (src c : Nat) : List τ → Nat → System τ → System τ
  | [], _, s => s
  | _ :: _, 0, s => s
  | t :: nodes, left + 1, s =>
    if pinned cfg s t src c then stealLoop cfg src c nodes (left + 1) s
    else stealLoop cfg src c nodes left (migrate cfg s t src c)

/-- `sched_balance` on processor `c`. -/
def schedBalance (s : System τ) (c : Nat) (v : BalanceView) : System τ :=
  match balancePlan cfg c v with
  | none => s
  | some (src, count) =>
    let s := stealLoop cfg src c (s.percpu src).runQueue.reverse count s
    if (s.percpu src).nrRunning = 0 then s.setCpu src { s.percpu src with minVruntime := 0 } else s

/-! ## The system -/

/-- What happens: a stretch of `schedule` on a processor, a change of its own state by the task
that runs there, or a wake-up by anyone. -/
inductive Event (τ : Type*)
  | setState (c : Nat) (state : TaskState)
  | enter (c : Nat)
  | requeue (c : Nat)
  | balance (c : Nat) (v : BalanceView)
  | pick (c : Nat)
  | switch (c : Nat)
  | finishLoad (c : Nat)
  | finish (c : Nat)
  | wake (t : τ)

/-- The transitions. A processor goes through the stretches of `schedule` in order; interrupts are
off there, so that the running task changes its state only outside. -/
inductive Step (cfg : Config τ) : System τ → Event τ → System τ → Prop
  | setState {s : System τ} {c : Nat} {state : TaskState} :
      (s.percpu c).phase = .running →
      Step cfg s (.setState c state) (s.setTask (s.percpu c).current
        { s.task (s.percpu c).current with state := state })
  | enter {s : System τ} {c : Nat} : (s.percpu c).phase = .running →
      Step cfg s (.enter c) (scheduleEnter cfg s c)
  | requeue {s : System τ} {c : Nat} : (s.percpu c).phase = .entered →
      Step cfg s (.requeue c) (scheduleRequeue cfg s c)
  | balance {s : System τ} {c : Nat} {v : BalanceView} : (s.percpu c).phase = .requeued →
      Step cfg s (.balance c v) (schedBalance cfg s c v)
  | pick {s : System τ} {c : Nat} : (s.percpu c).phase = .requeued →
      Step cfg s (.pick c) (schedulePick cfg s c)
  | switch {s : System τ} {c : Nat} {next : τ} : (s.percpu c).phase = .picked next →
      Step cfg s (.switch c) (scheduleSwitch cfg s c next)
  | finishLoad {s : System τ} {c : Nat} {prev : τ} : (s.percpu c).phase = .switched prev →
      Step cfg s (.finishLoad c) (finishLoad s c prev)
  | finish {s : System τ} {c q : Nat} {prev : τ} : (s.percpu c).phase = .finishing prev q →
      Step cfg s (.finish c) (taskFinishSwitch cfg s c prev q)
  | wake {s : System τ} {t : τ} : Step cfg s (.wake t) (taskWake cfg s t)

end OS01.Sched
