import OS01.Intr.Delivery
import OS01.Lib.Run

/-!
# Nested handlers

A run of one task through deliveries, handlers and returns. The state carries the task's context
together with a history that the code does not keep: the stack of the frames whose handlers have
not returned, and the two reasons a signal can be blocked, what `sigprocmask` asked for and what
unfinished handlers hold.

The run's events are everything that can happen to the task while it keeps the ABI's discipline:
user code, other system calls, `sigaction`, `sigprocmask`, signals raised by anyone, calls of the
delivery loop (several may follow each other before user code runs), the terminal's null-frame
call, and returns of the innermost handler through its restorer with its saved frame unmodified.
The registers are those of the register frame; the kernel's signal code never touches the
floating-point state, which is saved only by the context switch.
-/

namespace OS01.Intr

open List Lib Sigframe

/-! ## The signal system calls -/

/-- The `how` argument of `sigprocmask`; other values change nothing. -/
inductive How
  | block
  | unblock
  | setmask
  | other
deriving DecidableEq, Repr

/-- The mask update of `SYS_sigprocmask`. -/
def sigprocmask (blocked : Word) (how : How) (set : Word) : Word :=
  match how with
  | .block => blocked ||| set
  | .unblock => blocked &&& ~~~set
  | .setmask => set
  | .other => blocked

/-- The installation part of `SYS_signal`: the table afterwards and the result. -/
def sysSignal (t : Task) (signum : Nat) (act : Sigaction) : Task × Int :=
  if signum < 1 || NSIG ≤ signum then (t, -EINVAL)
  else if signum = SIGKILL ∨ signum = SIGSTOP then (t, 0)
  else if t.addrLimit ≤ act.saRestorer ∨ t.addrLimit ≤ act.saHandler then (t, -EINVAL)
  else ({ t with sighand := Function.update t.sighand signum act }, 0)

/-- `SYS_signal` on the whole context: the result is written back. -/
def doSysSignal (c : Ctx) (signum : Nat) (act : Sigaction) : Ctx :=
  let (t, result) := sysSignal c.task signum act
  writeback { c with task := t } result

/-! ## The state of a run -/

/-- A handler that has not returned: where its frame lies, and what it interrupted. -/
structure Saved where
  /-- Address of the saved frame. -/
  addr : Word
  /-- Registers interrupted by the delivery. -/
  regs : PtRegs
  /-- Mask interrupted by the delivery. -/
  blocked : Word
  /-- What `sigprocmask` had blocked. -/
  procmask : Word
  /-- What the handlers unfinished at that time held. -/
  held : Word

/-- A task with its history. -/
structure Proc where
  ctx : Ctx
  /-- Unfinished handlers, innermost first. -/
  stack : List Saved
  /-- Signals blocked through `sigprocmask`. -/
  procmask : Word
  /-- Signals held by the number or the mask of an unfinished handler, those excepted that the task
  has since unblocked itself. -/
  held : Word

namespace Proc

/-- The record of a delivery that interrupts the task now. -/
def saved (p : Proc) : Saved where
  addr := newRsp p.ctx.regs.rsp + 8
  regs := p.ctx.regs
  blocked := p.ctx.task.blocked
  procmask := p.procmask
  held := p.held

/-- The task inside the handler of `sig`, with the context `c`. -/
def enter (p : Proc) (sig : Nat) (c : Ctx) : Proc where
  ctx := c
  stack := p.saved :: p.stack
  procmask := p.procmask
  held := (p.held ||| bit64 (sig - 1)) ||| (p.ctx.task.sighand sig).saMask

/-- The task after the handler recorded by `f` has returned. -/
def leave (f : Saved) (rest : List Saved) (c : Ctx) : Proc where
  ctx := c
  stack := rest
  procmask := f.procmask
  held := f.held

@[simp] lemma leave_ctx (f : Saved) (rest : List Saved) (c : Ctx) : (leave f rest c).ctx = c := rfl

/-- What `sigprocmask` does to the two reasons. -/
def remask (p : Proc) (how : How) (set : Word) : Proc where
  ctx := writeback { p.ctx with task := { p.ctx.task with
    blocked := sigprocmask p.ctx.task.blocked how set } } 0
  stack := p.stack
  procmask := sigprocmask p.procmask how set
  held :=
    match how with
    | .block | .other => p.held
    | .unblock => p.held &&& ~~~set
    | .setmask => p.held &&& set

end Proc

/-- What can happen to the task. -/
inductive Event
  /-- User code runs and leaves these registers and this memory. -/
  | user (regs : PtRegs) (mem : Mem)
  /-- Another system call returns, having written this memory. -/
  | syscall (result : Int) (mem : Mem)
  /-- `SYS_signal` with a readable action. -/
  | sigaction (signum : Nat) (act : Sigaction)
  /-- `SYS_sigprocmask` with a readable set. -/
  | sigprocmask (how : How) (set : Word)
  /-- Someone sends the task a signal. -/
  | raise (sig : Nat)
  /-- One call of `arch_do_signal_delivery(regs)` on the way back to user mode. -/
  | deliver (env : Nat → Uaccess)
  /-- One call of `arch_do_signal_delivery(NULL)`. -/
  | deliverNull
  /-- The innermost handler returns through its restorer. -/
  | sigreturn (u : Uaccess)

/-- One step of a task whose handlers return through their restorers with their saved frames
unmodified. A task killed by a delivery takes no further step. -/
inductive Step : Proc → Event → Proc → Prop
  | user {p regs mem} (hcs : regs.cs &&& 3 = 3) :
      Step p (.user regs mem) { p with ctx := { p.ctx with regs := regs, mem := mem } }
  | syscall {p result mem} :
      Step p (.syscall result mem) { p with ctx := writeback { p.ctx with mem := mem } result }
  | sigaction {p signum act} :
      Step p (.sigaction signum act) { p with ctx := doSysSignal p.ctx signum act }
  | sigprocmask {p how set} : Step p (.sigprocmask how set) (p.remask how set)
  | raise {p sig} :
      Step p (.raise sig)
        { p with ctx := { p.ctx with
            task := { p.ctx.task with signal := p.ctx.task.signal ||| bit64 sig } } }
  | deliverCont {p env c} (h : archDoSignalDelivery env p.ctx = .cont c) :
      Step p (.deliver env) { p with ctx := c }
  | deliverEnter {p env sig c} (h : archDoSignalDelivery env p.ctx = .delivered sig c) :
      Step p (.deliver env) (p.enter sig c)
  | deliverNull {p c} (h : archDoSignalDeliveryNull p.ctx = .cont c) :
      Step p .deliverNull { p with ctx := c }
  | sigreturnOk {p u f rest} (hstack : p.stack = f :: rest) (hrsp : p.ctx.regs.rsp = f.addr)
      (hframe : p.ctx.mem.read f.addr.toNat size
        = (f.regs.saveFrame f.blocked).toBytes)
      (hret : (archSyscallSigreturn u p.ctx).2 = 0) :
      Step p (.sigreturn u) (.leave f rest (sysSigreturn u p.ctx))
  | sigreturnFail {p u f rest} (hstack : p.stack = f :: rest) (hrsp : p.ctx.regs.rsp = f.addr)
      (hret : (archSyscallSigreturn u p.ctx).2 ≠ 0) :
      Step p (.sigreturn u) { p with ctx := sysSigreturn u p.ctx }

/-! ## The invariant of a run -/

/-- What holds of a task in every state of a run. -/
structure Proc.Inv (p : Proc) : Prop where
  /-- It is a user task. -/
  addrLimit : p.ctx.task.addrLimit = USER_ADDR_LIMIT
  /-- Its frame returns to ring 3. -/
  ring3 : p.ctx.regs.cs &&& 3 = 3
  /-- The mask is exactly what `sigprocmask` and unfinished handlers block. -/
  blocked : p.ctx.task.blocked = p.procmask ||| p.held
  /-- Every interrupted frame returned to ring 3. -/
  saved_ring3 : ∀ f ∈ p.stack, f.regs.cs &&& 3 = 3
  /-- Every interrupted mask was made up in the same way. -/
  saved_blocked : ∀ f ∈ p.stack, f.blocked = f.procmask ||| f.held

/-- A task before its first signal: no handler is running. -/
structure Proc.Start (p : Proc) : Prop where
  addrLimit : p.ctx.task.addrLimit = USER_ADDR_LIMIT
  ring3 : p.ctx.regs.cs &&& 3 = 3
  stack : p.stack = []
  procmask : p.procmask = p.ctx.task.blocked
  held : p.held = 0

variable {p q : Proc} {c c' : Ctx} {f : Saved} {e : Event} {es : List Event} {inner rest : List Saved}
  {sig fuel : Nat}

lemma Proc.Start.inv (h : p.Start) : p.Inv where
  addrLimit := h.addrLimit
  ring3 := h.ring3
  blocked := by rw [h.procmask, h.held]; simp
  saved_ring3 f hf := by simp [h.stack] at hf
  saved_blocked f hf := by simp [h.stack] at hf

/-- The null-frame loop changes neither registers nor mask nor the address limit. -/
lemma clearLoop_cont {pending : Word} {sigs : List Nat} (h : clearLoop pending sigs c = .cont c') :
    c'.regs = c.regs ∧ c'.task.blocked = c.task.blocked ∧ c'.task.addrLimit = c.task.addrLimit := by
  induction sigs generalizing c with
  | nil =>
    cases h
    exact ⟨rfl, rfl, rfl⟩
  | cons n sigs ih =>
    rw [clearLoop] at h
    split at h
    · next d hd =>
        have hone : d.regs = c.regs ∧ d.task.blocked = c.task.blocked ∧
            d.task.addrLimit = c.task.addrLimit := by
          unfold clearSignal at hd
          simp only at hd
          split_ifs at hd <;> cases hd <;> exact ⟨rfl, rfl, rfl⟩
        obtain ⟨hr, hblk, hlim⟩ := ih h
        exact ⟨hr.trans hone.1, hblk.trans hone.2.1, hlim.trans hone.2.2⟩
    all_goals cases h

/-- So the null-frame call does not either. -/
lemma archDoSignalDeliveryNull_cont (h : archDoSignalDeliveryNull c = .cont c') :
    c'.regs = c.regs ∧ c'.task.blocked = c.task.blocked ∧ c'.task.addrLimit = c.task.addrLimit := by
  unfold archDoSignalDeliveryNull at h
  split_ifs at h
  · cases h
    exact ⟨rfl, rfl, rfl⟩
  · exact clearLoop_cont h

/-- The frame words a ring-3 check reads: user selectors have RPL 3. -/
lemma user_cs_ring3 : USER_CS &&& 3 = 3 := by decide

/-- Splitting the mask into its two reasons commutes with `sigprocmask`. -/
lemma remask_blocked (p : Proc) (how : How) (set : Word) (h : p.ctx.task.blocked = p.procmask ||| p.held) :
    (p.remask how set).ctx.task.blocked = (p.remask how set).procmask ||| (p.remask how set).held := by
  cases how with
  | block =>
    change p.ctx.task.blocked ||| set = (p.procmask ||| set) ||| p.held
    rw [h, BitVec.or_assoc, BitVec.or_assoc, BitVec.or_comm p.held]
  | unblock =>
    change p.ctx.task.blocked &&& ~~~set = (p.procmask &&& ~~~set) ||| (p.held &&& ~~~set)
    rw [h]
    ext i hi
    simp [Bool.and_or_distrib_right]
  | setmask =>
    change set = set ||| (p.held &&& set)
    ext i hi
    simp only [BitVec.getElem_and, BitVec.getElem_or]
    cases set[i] <;> simp
  | other => exact h

/-- An unmodified frame at the stack pointer decodes to what was saved. -/
lemma frameAt_of_unmodified (hrsp : c.regs.rsp = f.addr)
    (hfrm : c.mem.read f.addr.toNat size = (f.regs.saveFrame f.blocked).toBytes) :
    frameAt c = f.regs.saveFrame f.blocked := by
  rw [frameAt, hrsp, hfrm, ofBytes_toBytes]

/-- **Step lemma.** Every step keeps the invariant. -/
lemma Step.inv (hp : p.Inv) (h : Step p e q) : q.Inv := by
  cases h with
  | user hcs => exact ⟨hp.addrLimit, hcs, hp.blocked, hp.saved_ring3, hp.saved_blocked⟩
  | @sigaction signum act =>
    have hsm : (sysSignal p.ctx.task signum act).1.addrLimit = p.ctx.task.addrLimit ∧
        (sysSignal p.ctx.task signum act).1.blocked = p.ctx.task.blocked := by
      unfold sysSignal
      split_ifs <;> exact ⟨rfl, rfl⟩
    exact ⟨hsm.1.trans hp.addrLimit, hp.ring3, hsm.2.trans hp.blocked, hp.saved_ring3, hp.saved_blocked⟩
  | @sigprocmask how set =>
    exact ⟨hp.addrLimit, hp.ring3, remask_blocked p how set hp.blocked, hp.saved_ring3, hp.saved_blocked⟩
  | syscall | raise => exact ⟨hp.addrLimit, hp.ring3, hp.blocked, hp.saved_ring3, hp.saved_blocked⟩
  | deliverCont h =>
    have hs := archDoSignalDelivery_cont hp.addrLimit h
    refine ⟨hs.addrLimit.trans hp.addrLimit, ?_, hs.blocked.trans hp.blocked,
      hp.saved_ring3, hp.saved_blocked⟩
    exact (congrArg (fun r : PtRegs => r.cs &&& 3) hs.regs).trans hp.ring3
  | @deliverEnter env sig c h =>
    have hdel := archDoSignalDelivery_delivered hp.addrLimit h
    refine ⟨hdel.addrLimit.trans hp.addrLimit, ?_, ?_, ?_, ?_⟩
    · change c.regs.cs &&& 3 = 3
      rw [hdel.regs]
      exact user_cs_ring3
    · change c.task.blocked = p.procmask |||
        ((p.held ||| bit64 (sig - 1)) ||| (p.ctx.task.sighand sig).saMask)
      rw [hdel.blocked, hp.blocked]
      simp [BitVec.or_assoc]
    · intro f hf
      obtain rfl | hf := mem_cons.1 hf
      · exact hp.ring3
      · exact hp.saved_ring3 f hf
    · intro f hf
      obtain rfl | hf := mem_cons.1 hf
      · exact hp.blocked
      · exact hp.saved_blocked f hf
  | deliverNull h =>
    obtain ⟨hrg, hblk, hlim⟩ := archDoSignalDeliveryNull_cont h
    refine ⟨hlim.trans hp.addrLimit, ?_, hblk.trans hp.blocked, hp.saved_ring3, hp.saved_blocked⟩
    exact (congrArg (fun r : PtRegs => r.cs &&& 3) hrg).trans hp.ring3
  | @sigreturnOk u f rest hstk hrsp hfrm hret =>
    have hacc := archSyscallSigreturn_eq_zero.1 hret
    have hmem : f ∈ p.stack := by rw [hstk]; exact mem_cons_self
    have hr : ∀ g ∈ rest, g ∈ p.stack := fun g hg => by
      rw [hstk]
      exact mem_cons_of_mem _ hg
    have hfr := frameAt_of_unmodified hrsp hfrm
    rw [sysSigreturn_accepted hacc]
    refine ⟨?_, ?_, ?_, fun g hg => hp.saved_ring3 g (hr g hg), fun g hg => hp.saved_blocked g (hr g hg)⟩
    · rw [Proc.leave_ctx, Ctx.restoreTo_addrLimit]
      exact hp.addrLimit
    · rw [Proc.leave_ctx]
      exact hacc.2.2
    · rw [hfr]
      exact hp.saved_blocked f hmem
  | @sigreturnFail u f rest hstk hrsp hret =>
    have hrej : ¬ SigreturnAccepted u p.ctx := fun hacc =>
      hret (archSyscallSigreturn_eq_zero.2 hacc)
    obtain ⟨err, herr⟩ := sysSigreturn_rejected hrej
    rw [herr]
    exact ⟨hp.addrLimit, hp.ring3, hp.blocked, hp.saved_ring3, hp.saved_blocked⟩

/-- **Run lemma.** The invariant holds in every state of a run. -/
lemma Proc.Start.inv_of_run (hp : p.Start) (h : Run Step p es q) : q.Inv :=
  h.invariant (fun _ _ _ hi hs => Step.inv hi hs) hp.inv

/-! ## Handlers return to what they interrupted -/

/-- The steps taken while a handler entered above `depth` is unfinished. -/
abbrev InHandler (depth : Nat) : Proc → Event → Proc → Prop :=
  guarded Step fun p _ => depth < p.stack.length

/-- A step taken inside a handler either keeps the handler's record in place, or it is the
handler's own return and gives back what the record holds. -/
lemma Step.within (hstk : p.stack = inner ++ f :: rest) (h : Step p e q) :
    (∃ inner', q.stack = inner' ++ f :: rest) ∨
      (q.stack = rest ∧ q.ctx.regs.SameRegisters f.regs ∧ q.ctx.task.blocked = f.blocked) := by
  cases h with
  | deliverEnter _ => exact .inl ⟨p.saved :: inner, congrArg (p.saved :: ·) hstk⟩
  | @sigreturnOk u g rest' hg hrsp hfrm hret =>
    rw [hg] at hstk
    cases inner with
    | cons a inner =>
      injection hstk with _ ht
      exact .inl ⟨inner, ht⟩
    | nil =>
      obtain ⟨rfl, rfl⟩ : g = f ∧ rest' = rest := by simpa using hstk
      right
      have hfr := frameAt_of_unmodified hrsp hfrm
      have hacc := archSyscallSigreturn_eq_zero.1 hret
      rw [sysSigreturn_accepted hacc]
      refine ⟨rfl, ?_, ?_⟩
      · rw [hfr]
        exact PtRegs.restore_save g.regs p.ctx.regs g.blocked
      · rw [hfr]
        rfl
  | _ => exact .inl ⟨inner, hstk⟩

/-- **Nesting.** From the entry of a handler to the first state in which it and everything above it
has returned, whatever happens in between, the task gets back the registers and the mask it was
interrupted with. -/
lemma returns_to_interrupted (hstk : p.stack = inner ++ f :: rest) (h : Run (InHandler rest.length) p es q)
    (hd : q.stack.length = rest.length) :
    q.ctx.regs.SameRegisters f.regs ∧ q.ctx.task.blocked = f.blocked := by
  induction h generalizing inner with
  | nil s =>
    rw [hstk, length_append, length_cons] at hd
    omega
  | @cons s t u e es hst hrun ih =>
    obtain ⟨inner', hin⟩ | ⟨hout, hr, hblk⟩ := hst.2.within hstk
    · exact ih hin hd
    -- the handler has returned, so the guarded run takes no further step
    cases hrun with
    | nil => exact ⟨hr, hblk⟩
    | cons hn _ =>
      have hguard : rest.length < t.stack.length := hn.1
      rw [hout] at hguard
      omega

/-! ## The return path -/

/-- Number of pending signals. -/
def pendingCount (signal : Word) : Nat := (List.range 64).countP fun n => signal.getLsbD n

/-- A delivery leaves fewer signals pending. -/
lemma Delivered.pendingCount_lt (h : Delivered c sig c') :
    pendingCount c'.task.signal < pendingCount c.task.signal := by
  have hsig : sig < 64 := BitVec.lt_of_getLsbD h.pending
  obtain ⟨l1, l2, hl⟩ := append_of_mem (mem_range.2 hsig)
  have hle : ∀ l : List Nat, l.countP (fun n => c'.task.signal.getLsbD n)
      ≤ l.countP (fun n => c.task.signal.getLsbD n) := fun l =>
    countP_mono_left fun n _ hn => h.pending_sub n hn
  have h1 := hle l1
  have h2 := hle l2
  rw [pendingCount, pendingCount, hl, countP_append, countP_append,
    countP_cons_of_neg (by simp [h.cleared]), countP_cons_of_pos (by simp [h.pending])]
  omega

/-- The `check_signal` loop ends: as many rounds as there are pending signals, and one more, are
always enough. -/
theorem checkSignal_ends (env : Nat → Nat → Uaccess)
    (hlim : c.task.addrLimit = USER_ADDR_LIMIT) (hf : pendingCount c.task.signal < fuel) :
    (checkSignal env fuel c).isSome = true := by
  induction fuel generalizing c with
  | zero => omega
  | succ fuel ih =>
    rw [checkSignal]
    split_ifs with hz
    · rfl
    split
    · rfl
    · next sig c' hdel =>
        have hd := archDoSignalDelivery_delivered hlim hdel
        have hlt := hd.pendingCount_lt
        exact ih (hd.addrLimit.trans hlim) (by omega)
    · rfl

/-! ## Delivery and sigreturn are inverse -/

/-- A delivery of `sig` that interrupts `p` and leaves the context `c`, as the handler and the
interrupted code may rely on it. -/
structure SoundDelivery (p : Proc) (sig : Nat) (c : Ctx) : Prop where
  /-- The handler gets the signal number. -/
  rdi : c.regs.rdi = BitVec.ofNat 64 sig
  /-- Its stack is aligned as after a call. -/
  rsp : c.regs.rsp.toNat % 16 = 8
  /-- The signal was pending and is so no longer. -/
  pending : p.ctx.task.signal.getLsbD sig = true ∧ c.task.signal.getLsbD sig = false
  /-- Neither `sigprocmask` nor an unfinished handler blocked it. -/
  unblocked : sig = SIGKILL ∨ sig = SIGSTOP ∨
    (p.procmask.getLsbD (sig - 1) = false ∧ p.held.getLsbD (sig - 1) = false)
  /-- From now on its handler holds its number and its mask. -/
  holds : c.task.blocked
    = (p.ctx.task.blocked ||| bit64 (sig - 1)) ||| (p.ctx.task.sighand sig).saMask
  /-- No byte at or above the interrupted stack pointer was written. -/
  above : ∀ x, p.ctx.regs.rsp.toNat ≤ x → c.mem x = p.ctx.mem x

lemma Delivered.sound (hp : p.Inv) (h : Delivered p.ctx sig c) : SoundDelivery p sig c where
  rdi := by rw [h.regs]; rfl
  rsp := by rw [h.regs]; exact newRsp_mod p.ctx.regs.rsp
  pending := ⟨h.pending, h.cleared⟩
  unblocked := by
    obtain hk | hs | hb := h.unblocked
    · exact .inl hk
    · exact .inr (.inl hs)
    · rw [hp.blocked, BitVec.getLsbD_or, Bool.or_eq_false_iff] at hb
      exact .inr (.inr hb)
  holds := h.blocked
  above := h.above

/-- **Delivery and sigreturn are inverse over any nesting.** In every state `q` of a run:
* a delivery from `q` is sound;
* an attempt to enter a handler whose frame cannot be written, and a call that delivers nothing,
  leave registers and mask alone, the attempt also the pending set;
* an unmodified, readable frame of the innermost handler is accepted by `sigreturn`;
* when a delivery interrupts `q` and, whatever happened since, all handlers entered after `q` have
  returned, the task has exactly the registers and the mask of `q`. -/
theorem delivery_sigreturn_inverse {p q : Proc} {es : List Event} (hp : p.Start) (hrun : Run Step p es q) :
    (∀ env sig c, archDoSignalDelivery env q.ctx = .delivered sig c → SoundDelivery q sig c) ∧
    (∀ u sig c, deliverHandler u q.ctx sig (q.ctx.task.sighand sig) = .cont c →
      c.regs = q.ctx.regs ∧ c.task = q.ctx.task ∧ ∀ x, q.ctx.regs.rsp.toNat ≤ x → c.mem x = q.ctx.mem x) ∧
    (∀ env c, archDoSignalDelivery env q.ctx = .cont c → Skipped q.ctx c) ∧
    (∀ u f rest, q.stack = f :: rest → q.ctx.regs.rsp = f.addr →
      q.ctx.mem.read f.addr.toNat size = (f.regs.saveFrame f.blocked).toBytes →
      syscallCheckUserRange u q.ctx.task f.addr size false = true →
      u.copyFault f.addr size = none → (archSyscallSigreturn u q.ctx).2 = 0) ∧
    (∀ env sig c fs r, archDoSignalDelivery env q.ctx = .delivered sig c →
      Run (InHandler q.stack.length) (q.enter sig c) fs r → r.stack.length = q.stack.length →
      r.ctx.regs.SameRegisters q.ctx.regs ∧ r.ctx.task.blocked = q.ctx.task.blocked) := by
  have hq : q.Inv := hp.inv_of_run hrun
  refine ⟨fun env sig c h => ?_, fun u sig c h => ?_, fun env c h => ?_,
    fun u f rest hstk hrsp hfrm hchk hc => ?_, fun env sig c fs r h hr hd => ?_⟩
  · exact (archDoSignalDelivery_delivered hq.addrLimit h).sound hq
  · exact deliverHandler_cont hq.addrLimit h
  · exact archDoSignalDelivery_cont hq.addrLimit h
  · refine archSyscallSigreturn_eq_zero.2 ⟨?_, ?_, ?_⟩
    · rwa [hrsp]
    · rwa [hrsp]
    · rw [frameAt_of_unmodified hrsp hfrm]
      exact hq.saved_ring3 f (by rw [hstk]; exact mem_cons_self)
  · have hstk : (q.enter sig c).stack = [] ++ q.saved :: q.stack := rfl
    exact returns_to_interrupted hstk hr hd

/-- An address space in which every access succeeds. -/
def freeAccess : Uaccess := ⟨fun _ _ _ => true, fun _ _ => none⟩

/-- A task with signal 1 pending, a handler for every signal and its stack pointer at
`0x500000`. -/
def exampleProc : Proc where
  ctx :=
    { regs := { PtRegs.zero with
        rax := 7, rip := 0x400100, cs := USER_CS, rflags := 0x202, rsp := 0x500000
        ss := USER_DS, ds := USER_DS, es := USER_DS }
      task :=
        { pid := 2, addrLimit := USER_ADDR_LIMIT, signal := bit64 1, blocked := bit64 4
          sighand := fun _ => ⟨0x401000, 0, 0x402000, 0⟩ }
      mem := fun _ => 0 }
  stack := []
  procmask := bit64 4
  held := 0

/-- The theorem for one signal, whose handler returns at once. -/
theorem delivery_sigreturn_inverse_example :
    ∃ c r fs, archDoSignalDelivery (fun _ => freeAccess) exampleProc.ctx = .delivered 1 c ∧
      Run (InHandler 0) (exampleProc.enter 1 c) fs r ∧ r.stack = [] ∧
      SoundDelivery exampleProc 1 c ∧ r.ctx.regs.SameRegisters exampleProc.ctx.regs ∧
      r.ctx.task.blocked = exampleProc.ctx.task.blocked := by
  have hst : exampleProc.Start := ⟨rfl, by decide, rfl, rfl, rfl⟩
  obtain ⟨hsnd, -, -, -, hbc⟩ := delivery_sigreturn_inverse hst (.nil exampleProc)
  obtain ⟨c, hc⟩ : ∃ c, archDoSignalDelivery (fun _ => freeAccess) exampleProc.ctx
      = .delivered 1 c := ⟨_, rfl⟩
  have hd := archDoSignalDelivery_delivered rfl hc
  -- the handler's `ret` pops the restorer, which then calls sigreturn
  have hrg : c.regs.cs &&& 3 = 3 := by
    rw [hd.regs]
    exact user_cs_ring3
  let atReturn : Proc := { exampleProc.enter 1 c with ctx := { c with
        regs := { c.regs with rsp := newRsp exampleProc.ctx.regs.rsp + 8 } } }
  have hu : Step (exampleProc.enter 1 c)
      (.user { c.regs with rsp := newRsp exampleProc.ctx.regs.rsp + 8 } c.mem) atReturn := .user hrg
  have hfr : frameAt atReturn.ctx = exampleProc.ctx.regs.saveFrame exampleProc.ctx.task.blocked :=
    frameAt_of_unmodified (f := exampleProc.saved) rfl hd.frame
  have hret : (archSyscallSigreturn freeAccess atReturn.ctx).2 = 0 := by
    refine archSyscallSigreturn_eq_zero.2 ⟨?_, rfl, ?_⟩
    · have hlim : atReturn.ctx.task.addrLimit = USER_ADDR_LIMIT := hd.addrLimit
      have hrsp : atReturn.ctx.regs.rsp = newRsp exampleProc.ctx.regs.rsp + 8 := rfl
      rw [syscallCheckUserRange, hlim, hrsp]
      decide
    · rw [hfr]
      decide
  have hsig : Step atReturn (.sigreturn freeAccess)
      (.leave exampleProc.saved [] (sysSigreturn freeAccess atReturn.ctx)) :=
    .sigreturnOk rfl rfl hd.frame hret
  have hrun : Run (InHandler 0) (exampleProc.enter 1 c) _ _ :=
    .cons ⟨Nat.one_pos, hu⟩ (.single ⟨Nat.one_pos, hsig⟩)
  obtain ⟨hr, hb⟩ := hbc _ 1 c _ _ hc hrun rfl
  exact ⟨c, _, _, hc, hrun, rfl, hsnd _ 1 c hc, hr, hb⟩

/-- One signal is pending, and two rounds are enough. -/
theorem checkSignal_ends_example :
    (checkSignal (fun _ _ => freeAccess) 2 exampleProc.ctx).isSome = true :=
  checkSignal_ends _ rfl (by decide)

end OS01.Intr
