import OS01.Abi
import OS01.Intr.Frame
import OS01.Lib.Bits

/-!
# Signal delivery and sigreturn

The two functions that move a register frame between the kernel and the user stack:
`arch_do_signal_delivery` (`kernel/arch/x86_64/intr/trap.c`) and `arch_syscall_sigreturn`
(`kernel/arch/x86_64/intr/syscall_frame.c`), over a context of one task: its register frame, the
signal fields of its `task_t` and the bytes of its address space.

What the page tables allow at the moment of an access is a parameter (`Uaccess`): whether the range
walk accepts a range and where, if anywhere, a fault-tolerant copy stops. Every result below holds
for all such parameters, and each loop iteration of a delivery gets one of its own.
-/

namespace OS01.Intr

open Lib Sigframe

/-! ## Signal numbers and the signal fields of a task -/

/-- Number of signals; valid ones are `1 .. NSIG - 1`. -/
def NSIG : Nat := 32

/-- Kill. -/
def SIGKILL : Nat := 9
/-- Child status changed. -/
def SIGCHLD : Nat := 17
/-- Continue. -/
def SIGCONT : Nat := 18
/-- Stop. -/
def SIGSTOP : Nat := 19
/-- Terminal stop. -/
def SIGTSTP : Nat := 20
/-- Background read. -/
def SIGTTIN : Nat := 21
/-- Background write. -/
def SIGTTOU : Nat := 22
/-- Urgent data. -/
def SIGURG : Nat := 23
/-- Window size changed. -/
def SIGWINCH : Nat := 28

/-- The default-action handler value. -/
def SIG_DFL : Word := 0
/-- The ignoring handler value. -/
def SIG_IGN : Word := 1

/-- `struct sigaction`. -/
structure Sigaction where
  (saHandler saFlags saRestorer saMask : Word)
deriving DecidableEq, Repr

/-- The fields of `task_t` that the signal code reads and writes. -/
structure Task where
  /-- Process id; `1` is init, which default actions do not kill. -/
  pid : Nat
  /-- First address that is not a user address. -/
  addrLimit : Word
  /-- Pending signals: bit `n` for signal `n`. -/
  signal : Word
  /-- Blocked signals: bit `n - 1` for signal `n`. -/
  blocked : Word
  /-- Registered actions, by signal number. -/
  sighand : Nat → Sigaction

/-- The address limit every user task is created with. -/
def USER_ADDR_LIMIT : Word := 0x00007FFFFFFFFFFF

/-- One task as the return path sees it: the frame it will be resumed with, its signal fields
and its memory. -/
structure Ctx where
  regs : PtRegs
  task : Task
  mem : Mem

namespace Ctx

/-- `current->signal &= ~(1ULL << sig)`. -/
def clearPending (c : Ctx) (sig : Nat) : Ctx :=
  { c with task := { c.task with signal := c.task.signal &&& ~~~bit64 sig } }

@[simp] lemma clearPending_signal (c : Ctx) (sig : Nat) :
    (c.clearPending sig).task.signal = c.task.signal &&& ~~~bit64 sig := rfl

end Ctx

/-! ## User memory access -/

/-- What the address space answers to the accesses of one kernel step. -/
structure Uaccess where
  /-- The page walk of `syscall_check_user_range`: the range is mapped for user mode, and for a
  write its leaves are writable or copy-on-write under a writable area. -/
  accessible : Word → Nat → Bool → Bool
  /-- The number of bytes after which a fault-tolerant copy stops; `none` when it completes.
  `some 0` covers a failed `prepare_user_write_range`. -/
  copyFault : Word → Nat → Option Nat

variable (u : Uaccess)

/-- `syscall_check_user_range`. -/
def syscallCheckUserRange (t : Task) (addr : Word) (len : Nat)
    (writable : Bool) : Bool :=
  len == 0 ||
    (!(decide (addr < .ofNat 64 USER_MIN_ADDR) || decide (t.addrLimit ≤ addr) ||
        decide ((t.addrLimit - addr).toNat < len)) && u.accessible addr len writable)

/-- `copy_to_user_ft`: the memory afterwards, and whether every byte was copied. The copy runs
upwards, so a fault leaves a written beginning. -/
def copyToUserFt (m : Mem) (dst : Word) (bs : List UInt8) : Mem × Bool :=
  match u.copyFault dst bs.length with
  | none => (m.write dst.toNat bs, true)
  | some k => (m.write dst.toNat (bs.take k), false)

/-- `copy_from_user_ft`: the bytes read, or `none` on a fault. -/
def copyFromUserFt (m : Mem) (src : Word) (n : Nat) : Option (List UInt8) :=
  match u.copyFault src n with
  | none => some (m.read src.toNat n)
  | some _ => none

/-! ## Delivery -/

/-- How one iteration of the delivery loop, or the whole call, ends. -/
inductive SigStep
  /-- The loop goes on; at the end of the loop the call returns 0. -/
  | cont (c : Ctx)
  /-- A handler frame was installed for `sig`; the call returns 1. -/
  | delivered (sig : Nat) (c : Ctx)
  /-- `do_exit(code)`, which does not return. -/
  | exited (c : Ctx) (code : Nat)

/-- The signals whose default action leaves the task running. -/
def defaultIgnored (sig : Nat) : Bool :=
  sig ∈ [SIGCHLD, SIGURG, SIGWINCH, SIGCONT, SIGTSTP, SIGTTIN, SIGTTOU]

/-- `sizeof(frame) + 8`: the frame and the return address below it. -/
def frameTotal : Nat := size + 8

/-- `((regs->rsp - total - 8) & ~15UL) + 8`. -/
def newRsp (rsp : Word) : Word :=
  ((rsp - BitVec.ofNat 64 frameTotal - 8) &&& ~~~15#64) + 8

/-- The rewritten frame that enters the handler. -/
def handlerEntry (regs : PtRegs) (sig : Nat) (handler : Word) : PtRegs :=
  { regs with
    rdi := BitVec.ofNat 64 sig
    rip := handler
    rsp := newRsp regs.rsp
    cs := USER_CS
    ss := USER_DS
    ds := USER_DS
    es := USER_DS }

variable (c : Ctx)

/-- The commit of a delivery: registers rewritten, the signal and the action's mask blocked, the
pending bit cleared. -/
def commitDelivery (m : Mem) (sig : Nat) (act : Sigaction) : Ctx where
  regs := handlerEntry c.regs sig act.saHandler
  task := { c.task with
    blocked := (c.task.blocked ||| bit64 (sig - 1)) ||| act.saMask
    signal := c.task.signal &&& ~~~bit64 sig }
  mem := m

/-- The registered-handler part of the loop body. -/
def deliverHandler (c : Ctx) (sig : Nat) (act : Sigaction) : SigStep :=
  if c.regs.cs &&& 3 = 0 then .cont c
  else if act.saRestorer = 0 then .exited (c.clearPending sig) sig
  else if !syscallCheckUserRange u c.task (newRsp c.regs.rsp) frameTotal true then .cont c
  else
    match copyToUserFt u c.mem (newRsp c.regs.rsp) (leBytes 8 act.saRestorer.toNat) with
    | (m, false) => .cont { c with mem := m }
    | (m, true) =>
      match copyToUserFt u m (newRsp c.regs.rsp + 8)
          (c.regs.saveFrame c.task.blocked).toBytes with
      | (m', false) => .cont { c with mem := m' }
      | (m', true) => .delivered sig (commitDelivery c m' sig act)

/-- One iteration of the loop of `arch_do_signal_delivery`; `pending` is the set read on entry. -/
def deliverSignal (pending : Word) (c : Ctx) (sig : Nat) : SigStep :=
  if !testBit64 pending sig then .cont c
  else if sig != SIGKILL && sig != SIGSTOP && testBit64 c.task.blocked (sig - 1) then .cont c
  else
    let act := c.task.sighand sig
    if act.saHandler = SIG_IGN then .cont (c.clearPending sig)
    else if act.saHandler = SIG_DFL then
      if defaultIgnored sig || c.task.pid == 1 then .cont (c.clearPending sig)
      else .exited (c.clearPending sig) sig
    else deliverHandler u c sig act

/-- The loop of `arch_do_signal_delivery` over the signals still to be looked at. -/
def deliverLoop (env : Nat → Uaccess) (pending : Word) : List Nat → Ctx → SigStep
  | [], c => .cont c
  | sig :: sigs, c =>
    match deliverSignal (env sig) pending c sig with
    | .cont c' => deliverLoop env pending sigs c'
    | .delivered n c' => .delivered n c'
    | .exited c' code => .exited c' code

/-- The signal numbers in the order the loops visit them. -/
def signals : List Nat := List.range' 1 (NSIG - 1)

/-- `arch_do_signal_delivery(regs)`. -/
def archDoSignalDelivery (env : Nat → Uaccess) (c : Ctx) : SigStep :=
  if c.task.signal = 0 then .cont c
  else deliverLoop env c.task.signal signals c

/-- One iteration of the loop for a null frame: registered handlers stay pending. -/
def clearSignal (pending : Word) (c : Ctx) (sig : Nat) : SigStep :=
  if !testBit64 pending sig then .cont c
  else
    let act := c.task.sighand sig
    if act.saHandler = SIG_IGN then .cont (c.clearPending sig)
    else if act.saHandler = SIG_DFL then
      if defaultIgnored sig || c.task.pid == 1 then .cont (c.clearPending sig)
      else .exited (c.clearPending sig) sig
    else .cont c

/-- The loop of `arch_do_signal_delivery(NULL)`. -/
def clearLoop (pending : Word) : List Nat → Ctx → SigStep
  | [], c => .cont c
  | sig :: sigs, c =>
    match clearSignal pending c sig with
    | .cont c' => clearLoop pending sigs c'
    | .delivered n c' => .delivered n c'
    | .exited c' code => .exited c' code

/-- `arch_do_signal_delivery(NULL)`, as the terminal code calls it. -/
def archDoSignalDeliveryNull : SigStep :=
  if c.task.signal = 0 then .cont c
  else clearLoop c.task.signal signals c

/-- The `check_signal` loop of the entry code: it calls the delivery until nothing more is
delivered. `env i` is what the address space answers in round `i`; `none` means that `fuel` rounds
were not enough. -/
def checkSignal (env : Nat → Nat → Uaccess) : Nat → Ctx → Option SigStep
  | 0, _ => none
  | fuel + 1, c =>
    if c.task.signal = 0 then some (.cont c)
    else
      match archDoSignalDelivery (env fuel) c with
      | .cont c' => some (.cont c')
      | .delivered _ c' => checkSignal env fuel c'
      | .exited c' code => some (.exited c' code)

/-! ## Sigreturn -/

/-- The record at the user stack pointer. -/
def frameAt : Sigframe := .ofBytes (c.mem.read c.regs.rsp.toNat size)

/-- The restore of `arch_syscall_sigreturn`: mask and registers from the frame. -/
def Ctx.restoreTo (frame : Sigframe) : Ctx :=
  { c with
    regs := c.regs.restoreFrame frame
    task := { c.task with blocked := frame.blocked } }

@[simp] lemma Ctx.restoreTo_regs (frame : Sigframe) :
    (c.restoreTo frame).regs = c.regs.restoreFrame frame := rfl
@[simp] lemma Ctx.restoreTo_addrLimit (frame : Sigframe) :
    (c.restoreTo frame).task.addrLimit = c.task.addrLimit := rfl

/-- `arch_syscall_sigreturn`: the context afterwards and the result. -/
def archSyscallSigreturn (c : Ctx) : Ctx × Int :=
  if !syscallCheckUserRange u c.task c.regs.rsp size false then (c, -EFAULT)
  else
    match copyFromUserFt u c.mem c.regs.rsp size with
    | none => (c, -EFAULT)
    | some bs =>
      let frame := ofBytes bs
      if frame.cs &&& 3 ≠ 3 then (c, -EINVAL)
      else (c.restoreTo frame, 0)

/-- `regs->rax = (uint64_t)result` of `do_system_call`. -/
def writeback (result : Int) : Ctx :=
  { c with regs := { c.regs with rax := BitVec.ofInt 64 result } }

/-- The `SYS_sigreturn` case of the system call path: a successful return suppresses the
write-back of the result. -/
def sysSigreturn (c : Ctx) : Ctx :=
  match archSyscallSigreturn u c with
  | (c', 0) => c'
  | (c', err) => writeback c' err

end OS01.Intr
