import OS01.Intr.Nesting

/-!
# Frames that return to user mode

All user tasks of the system, each with the register frame it will be resumed with. A frame is
created by `spawn_user_task` and `sys_exec` (`kernel/sched/exec.c`), copied by `do_fork`
(`kernel/sched/fork.c`), rewritten by a signal delivery and taken back from user memory by
`arch_syscall_sigreturn`. The frame should keep the user selectors, the interrupt flag set, and
IOPL, NT and VM clear.

Every path keeps this except one: `arch_syscall_sigreturn` checks the RPL of the frame's code
selector and loads every other field, `rflags` included, as user memory has it. A task that builds
its own frame returns with an I/O privilege level of its choice (`sigreturn_loads_iopl`). In a run
in which every accepted frame is itself unprivileged the property holds in every state
(`returns_unprivileged`).
-/

namespace OS01.Intr.Privilege

open Function Lib Intr Sigframe

/-! ## Unprivileged frames -/

/-- Interrupt flag of `rflags`. -/
def IF : Nat := 9
/-- Nested-task flag of `rflags`. -/
def NT : Nat := 14
/-- Virtual-8086 flag of `rflags`. -/
def VM : Nat := 17

/-- The fields of a frame that decide what the resumed code may do: user selectors, interrupts on,
no I/O privilege (bits 12 and 13), no nested task, no virtual-8086 mode. -/
def unprivileged (cs ss ds es rflags : Word) : Bool :=
  cs == USER_CS && ss == USER_DS && ds == USER_DS && es == USER_DS &&
    rflags.getLsbD IF && !rflags.getLsbD 12 && !rflags.getLsbD 13 &&
    !rflags.getLsbD NT && !rflags.getLsbD VM

/-- An unprivileged register frame. -/
def Unprivileged (r : PtRegs) : Prop := unprivileged r.cs r.ss r.ds r.es r.rflags = true

/-- An unprivileged saved frame. -/
def UnprivilegedFrame (f : Sigframe) : Prop := unprivileged f.cs f.ss f.ds f.es f.rflags = true

/-- User-mode instructions change neither the selectors nor IF, IOPL, NT and VM. -/
def UserPreserves (r r' : PtRegs) : Prop :=
  r'.cs = r.cs ∧ r'.ss = r.ss ∧ r'.ds = r.ds ∧ r'.es = r.es ∧
    ∀ n ∈ [IF, 12, 13, NT, VM], r'.rflags.getLsbD n = r.rflags.getLsbD n

/-! ## The system -/

/-- The frame of `spawn_user_task` and of `sys_exec`: `base` is the zeroed frame of a new task, and
the old frame of the task that calls `exec`. -/
def startRegs (base : PtRegs) (entry rsp argc argv envp : Word) : PtRegs :=
  { base with
    cs := USER_CS
    ss := USER_DS
    ds := USER_DS
    es := USER_DS
    rsp := rsp
    rip := entry
    rflags := bit64 IF
    rdi := argc
    rsi := argv
    rdx := envp }

/-- A new task as `spawn_user_task` publishes it. -/
def spawnUserTask (pid : Nat) (entry rsp argc argv envp : Word) (mem : Mem) : Ctx where
  regs := startRegs .zero entry rsp argc argv envp
  task :=
    { pid := pid
      addrLimit := USER_ADDR_LIMIT
      signal := 0
      blocked := 0
      sighand := fun _ => ⟨SIG_DFL, 0, 0, 0⟩ }
  mem := mem

/-- The calling task after a successful `sys_exec`: new image, caught handlers reset. -/
def sysExec (c : Ctx) (entry rsp argc argv envp : Word) (mem : Mem) : Ctx where
  regs := { startRegs c.regs entry rsp argc argv envp with rax := 0 }
  task := { c.task with
    sighand := fun sig =>
      if 1 ≤ sig ∧ sig < NSIG then { c.task.sighand sig with saHandler := SIG_DFL }
      else c.task.sighand sig }
  mem := mem

/-- The child of `do_fork`: the parent's frame with `rax` zero, nothing pending. -/
def doForkChild (c : Ctx) (pid : Nat) : Ctx where
  regs := { c.regs with rax := 0 }
  task := { c.task with pid := pid, addrLimit := USER_ADDR_LIMIT, signal := 0 }
  mem := c.mem

/-- The user tasks of the system. -/
abbrev Sys : Type := Nat → Option Ctx

/-- What can happen. -/
inductive Event
  /-- A new task is spawned. -/
  | spawn (pid : Nat) (entry rsp argc argv envp : Word) (mem : Mem)
  /-- Task `pid` forks `child`. -/
  | fork (pid child : Nat)
  /-- Task `pid` replaces its image. -/
  | exec (pid : Nat) (entry rsp argc argv envp : Word) (mem : Mem)
  /-- User code of task `pid` runs until the next interrupt or system call. -/
  | user (pid : Nat) (regs : PtRegs) (mem : Mem)
  /-- Another system call of task `pid` returns; it may have changed memory and signal fields. -/
  | syscall (pid : Nat) (result : Int) (task : Task) (mem : Mem)
  /-- Someone sends `pid` a signal. -/
  | raise (pid sig : Nat)
  /-- A call of `arch_do_signal_delivery` on the way back to `pid`. -/
  | deliver (pid : Nat) (env : Nat → Uaccess)
  /-- `SYS_sigreturn` of task `pid`, with whatever its stack pointer points to. -/
  | sigreturn (pid : Nat) (u : Uaccess)
  /-- Task `pid` exits. -/
  | exit (pid : Nat)

/-- One step of the system. -/
inductive Step : Sys → Event → Sys → Prop
  | spawn {s pid entry rsp argc argv envp mem} (hnew : s pid = none) :
      Step s (.spawn pid entry rsp argc argv envp mem)
        (update s pid (some (spawnUserTask pid entry rsp argc argv envp mem)))
  | fork {s pid child c} (hpid : s pid = some c) (hnew : s child = none) :
      Step s (.fork pid child)
        (update (update s pid (some (writeback c child))) child
          (some (doForkChild c child)))
  | exec {s pid entry rsp argc argv envp mem c} (hpid : s pid = some c) :
      Step s (.exec pid entry rsp argc argv envp mem)
        (update s pid (some (sysExec c entry rsp argc argv envp mem)))
  | user {s pid regs mem c} (hpid : s pid = some c) (huser : UserPreserves c.regs regs) :
      Step s (.user pid regs mem)
        (update s pid (some { c with regs := regs, mem := mem }))
  | syscall {s pid result task mem c} (hpid : s pid = some c)
      (hlim : task.addrLimit = c.task.addrLimit) :
      Step s (.syscall pid result task mem)
        (update s pid (some (writeback { c with task := task, mem := mem } result)))
  | raise {s pid sig c} (hpid : s pid = some c) :
      Step s (.raise pid sig)
        (update s pid (some { c with
          task := { c.task with signal := c.task.signal ||| bit64 sig } }))
  | deliverCont {s pid env c c'} (hpid : s pid = some c)
      (h : archDoSignalDelivery env c = .cont c') :
      Step s (.deliver pid env) (update s pid (some c'))
  | deliverEnter {s pid env sig c c'} (hpid : s pid = some c)
      (h : archDoSignalDelivery env c = .delivered sig c') :
      Step s (.deliver pid env) (update s pid (some c'))
  | deliverExit {s pid env code c c'} (hpid : s pid = some c)
      (h : archDoSignalDelivery env c = .exited c' code) :
      Step s (.deliver pid env) (update s pid none)
  | sigreturn {s pid u c} (hpid : s pid = some c) :
      Step s (.sigreturn pid u) (update s pid (some (sysSigreturn u c)))
  | exit {s pid} : Step s (.exit pid) (update s pid none)

/-- The system before any user task. -/
def Sys.empty : Sys := fun _ => none

/-- The condition on a step: a frame that `sigreturn` accepts is unprivileged. It is read off the
calling task's memory at its stack pointer. -/
def FramesUnprivileged (s : Sys) : Event → Prop
  | .sigreturn pid u =>
    ∀ c, s pid = some c → SigreturnAccepted u c → UnprivilegedFrame (frameAt c)
  | _ => True

/-! ## Every path but one keeps frames unprivileged -/

/-- What holds of every user task in a run that meets the condition. -/
structure TaskOk (c : Ctx) : Prop where
  addrLimit : c.task.addrLimit = USER_ADDR_LIMIT
  regs : Unprivileged c.regs

/-- The frame of a fresh image. -/
lemma unprivileged_startRegs (base : PtRegs) (entry rsp argc argv envp : Word) :
    Unprivileged (startRegs base entry rsp argc argv envp) := by
  change unprivileged USER_CS USER_DS USER_DS USER_DS (bit64 IF) = true
  decide

/-- User code keeps its frame unprivileged. -/
lemma UserPreserves.keeps {r r' : PtRegs} (h : UserPreserves r r') (hr : Unprivileged r) : Unprivileged r' := by
  obtain ⟨hcs, hss, hds, hes, hflg⟩ := h
  unfold Unprivileged unprivileged at hr ⊢
  rwa [hcs, hss, hds, hes, hflg IF (by simp), hflg 12 (by simp), hflg 13 (by simp),
    hflg NT (by simp), hflg VM (by simp)]

/-- Entering a handler loads the user selectors and keeps the flags. -/
lemma unprivileged_handlerEntry {r : PtRegs} (sig : Nat) (handler : Word)
    (hr : Unprivileged r) : Unprivileged (handlerEntry r sig handler) := by
  unfold Unprivileged unprivileged at hr ⊢
  simp only [Bool.and_eq_true] at hr
  obtain ⟨⟨⟨⟨⟨⟨⟨⟨-, -⟩, -⟩, -⟩, hif⟩, h12⟩, h13⟩, hnt⟩, hvm⟩ := hr
  simp only [handlerEntry, beq_self_eq_true, Bool.true_and, Bool.and_eq_true]
  exact ⟨⟨⟨⟨hif, h12⟩, h13⟩, hnt⟩, hvm⟩

/-- `sigreturn` keeps a task's frame unprivileged when the frame it accepts is. -/
lemma TaskOk.sysSigreturn {u : Uaccess} {c : Ctx} (hc : TaskOk c)
    (hfrm : SigreturnAccepted u c → UnprivilegedFrame (frameAt c)) : TaskOk (sysSigreturn u c) := by
  by_cases hacc : SigreturnAccepted u c
  · rw [sysSigreturn_accepted hacc]
    refine ⟨?_, ?_⟩
    · rw [Ctx.restoreTo_addrLimit]
      exact hc.addrLimit
    · rw [Ctx.restoreTo_regs]
      exact hfrm hacc
  · obtain ⟨err, herr⟩ := sysSigreturn_rejected hacc
    rw [herr]
    exact ⟨hc.addrLimit, hc.regs⟩

/-- What holds of all tasks in a run that meets the condition. -/
def AllOk (s : Sys) : Prop := ∀ pid c, s pid = some c → TaskOk c

/-- Replacing one task by a good one. -/
lemma AllOk.update {s : Sys} (hs : AllOk s) (pid : Nat) {t : Option Ctx}
    (ht : ∀ c, t = some c → TaskOk c) : AllOk (update s pid t) := by
  intro i c hi
  by_cases h : i = pid
  · subst h
    rw [update_self] at hi
    exact ht c hi
  · rw [update_of_ne h] at hi
    exact hs i c hi

/-- Replacing one task by a good running one. -/
lemma AllOk.update_some {s : Sys} (hs : AllOk s) (pid : Nat) {c : Ctx} (hc : TaskOk c) :
    AllOk (Function.update s pid (some c)) := by
  apply hs.update pid
  rintro d ⟨⟩
  exact hc

/-- **Step lemma.** A step that meets the condition keeps every frame unprivileged. -/
lemma Step.allOk {s t : Sys} {e : Event} (hs : AllOk s) (hok : FramesUnprivileged s e)
    (h : Step s e t) : AllOk t := by
  cases h with
  | spawn hnew => exact hs.update_some _ ⟨rfl, unprivileged_startRegs _ _ _ _ _ _⟩
  | fork hpid hnew =>
    have hc := hs _ _ hpid
    refine AllOk.update_some (hs.update_some _ ?_) _ ?_
    · exact ⟨hc.addrLimit, hc.regs⟩
    · exact ⟨rfl, hc.regs⟩
  | @exec pid entry rsp argc argv envp mem c hpid =>
    exact hs.update_some _ ⟨(hs _ _ hpid).addrLimit, unprivileged_startRegs c.regs entry rsp argc argv envp⟩
  | user hpid hu =>
    have hc := hs _ _ hpid
    exact hs.update_some _ ⟨hc.addrLimit, hu.keeps hc.regs⟩
  | syscall hpid hlim =>
    have hc := hs _ _ hpid
    exact hs.update_some _ ⟨hlim.trans hc.addrLimit, hc.regs⟩
  | raise hpid =>
    have hc := hs _ _ hpid
    exact hs.update_some _ ⟨hc.addrLimit, hc.regs⟩
  | deliverCont hpid h =>
    have hc := hs _ _ hpid
    have hsk := archDoSignalDelivery_cont hc.addrLimit h
    exact hs.update_some _ ⟨hsk.addrLimit.trans hc.addrLimit, hsk.regs ▸ hc.regs⟩
  | deliverEnter hpid h =>
    have hc := hs _ _ hpid
    have hdel := archDoSignalDelivery_delivered hc.addrLimit h
    refine hs.update_some _ ⟨hdel.addrLimit.trans hc.addrLimit, ?_⟩
    rw [hdel.regs]
    exact unprivileged_handlerEntry _ _ hc.regs
  | sigreturn hpid => exact hs.update_some _ ((hs _ _ hpid).sysSigreturn (hok _ hpid))
  | deliverExit hpid h | exit => exact hs.update _ (by simp)

/-- **Return-to-user frames stay unprivileged** in every run in which each frame accepted by
`sigreturn` is unprivileged. -/
theorem returns_unprivileged {es : List Event} {s : Sys}
    (hrun : Run (guarded Step FramesUnprivileged) Sys.empty es s) :
    ∀ pid c, s pid = some c → Unprivileged c.regs := by
  have hemp : AllOk Sys.empty := by
    intro pid c hc
    cases hc
  have hall : AllOk s := hrun.invariant (I := AllOk) (fun _ _ _ hi hs => Step.allOk hi hs.1 hs.2) hemp
  intro pid c hc
  exact (hall pid c hc).regs

/-! ## The path that does not -/

/-- A frame as a delivery to a running task saves it. -/
def honestFrame : Sigframe :=
  (PtRegs.saveFrame { PtRegs.zero with
    rip := 0x400000, cs := USER_CS, rflags := 0x202, rsp := 0x500000
    ss := USER_DS, ds := USER_DS, es := USER_DS } 0)

/-- A frame a task writes to its own stack: it asks for an I/O privilege level of 3. -/
def forgedFrame : Sigframe := { honestFrame with rflags := 0x3202 }

/-- Memory of a new task whose stack holds a given frame at `0x500000`. -/
def stackWith (frame : Sigframe) : Mem := Mem.write (fun _ => 0) 0x500000 frame.toBytes

/-- A task spawned with that stack. -/
def taskWith (frame : Sigframe) : Ctx :=
  spawnUserTask 2 0x400000 0x500000 0 0 0 (stackWith frame)

lemma frameAt_taskWith (frame : Sigframe) : frameAt (taskWith frame) = frame := by
  have hr : (taskWith frame).mem.read 0x500000 size = frame.toBytes := by
    have hs := Mem.read_write_self (fun _ => 0) 0x500000 frame.toBytes
    rwa [length_toBytes] at hs
  have hrsp : (taskWith frame).regs.rsp.toNat = 0x500000 := rfl
  rw [frameAt, hrsp, hr, ofBytes_toBytes]

/-- A frame with the user code selector at a mapped stack pointer is accepted. -/
lemma taskWith_accepted {frame : Sigframe} (hcs : frame.cs &&& 3 = 3) :
    SigreturnAccepted freeAccess (taskWith frame) := by
  refine ⟨?_, rfl, ?_⟩
  · have hlim : (taskWith frame).task.addrLimit = USER_ADDR_LIMIT := rfl
    have hrsp : (taskWith frame).regs.rsp = 0x500000 := rfl
    rw [syscallCheckUserRange, hlim, hrsp]
    decide
  · rw [frameAt_taskWith]
    exact hcs

/-- The run of a task that is spawned and calls `sigreturn` on the frame its stack holds. -/
lemma run_taskWith (ok : Sys → Event → Prop) (frame : Sigframe)
    (hspawn : ok Sys.empty (.spawn 2 0x400000 0x500000 0 0 0 (stackWith frame)))
    (hsig : ok (update Sys.empty 2 (some (taskWith frame))) (.sigreturn 2 freeAccess)) :
    Run (guarded Step ok) Sys.empty
      [.spawn 2 0x400000 0x500000 0 0 0 (stackWith frame), .sigreturn 2 freeAccess]
      (update (update Sys.empty 2 (some (taskWith frame))) 2
        (some (sysSigreturn freeAccess (taskWith frame)))) :=
  .cons ⟨hspawn, .spawn rfl⟩ (.single ⟨hsig, .sigreturn (update_self _ _ _)⟩)

/-- A task reaches a frame with I/O privilege level 3 by a forged signal frame. -/
theorem sigreturn_loads_iopl : ∃ es s c, Run Step Sys.empty es s ∧ s 2 = some c ∧
      c.regs.rflags.getLsbD 12 = true ∧ c.regs.rflags.getLsbD 13 = true ∧ ¬ Unprivileged c.regs := by
  have hrun := run_taskWith (fun _ _ => True) forgedFrame trivial trivial
  refine ⟨_, _, _, hrun.of_guarded, update_self _ _ _, ?_⟩
  have hacc : SigreturnAccepted freeAccess (taskWith forgedFrame) := taskWith_accepted rfl
  rw [sysSigreturn_accepted hacc, frameAt_taskWith]
  unfold Unprivileged
  decide

/-- The theorem for a `sigreturn` with the frame of a user task. -/
theorem returns_unprivileged_honest :
    ∃ es s c, Run (guarded Step FramesUnprivileged) Sys.empty es s ∧ s 2 = some c ∧
      SigreturnAccepted freeAccess (taskWith honestFrame) ∧ Unprivileged c.regs := by
  have hok : FramesUnprivileged (update Sys.empty 2 (some (taskWith honestFrame)))
      (.sigreturn 2 freeAccess) := by
    intro c hc _
    cases hc
    rw [frameAt_taskWith]
    unfold UnprivilegedFrame
    decide
  have hrun := run_taskWith FramesUnprivileged honestFrame trivial hok
  have hall := returns_unprivileged hrun 2 _ (update_self _ _ _)
  exact ⟨_, _, _, hrun, update_self _ _ _, taskWith_accepted rfl, hall⟩

end OS01.Intr.Privilege
