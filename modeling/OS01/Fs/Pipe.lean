import Mathlib.Algebra.Group.Nat.Defs
import Mathlib.Algebra.Group.Int.Defs
import OS01.Abi
import OS01.Lib.Ring
import OS01.Lib.Run

/-!
# Pipes

`pipe_read_internal` and `pipe_write_internal` (`kernel/fs/file.c`). A call is cut at its locked
sections: what a task does while it holds `p->lock` or `p->read_busy_lock` is one step, and between
two steps of one task any steps of others may come. The point a call has reached, with its local
variables, is a `Pc`.

Sleeping and waking are not modelled: a task may go on whenever it is scheduled, so every order of
wake-ups is covered. Copies from and to user memory, `kmalloc` and the check for a fatal signal have
their outcome given with the step (`Choice`).

Two logs record what the claims about whole runs speak of: `accepted` are the bytes put into the ring,
`delivered` those a committed read took out, each tagged with the task and the number of its call.
-/

namespace OS01.Fs

open Function Lib

/-- Size of the ring. -/
def PIPE_SIZE : Nat := 512

/-- `pipe_t`. -/
structure Pipe where
  ring : Ring UInt8 PIPE_SIZE
  readers : Nat
  writers : Nat
  /-- A reader is between reserving and releasing. -/
  readBusy : Bool

/-- The conversion of a count to the signed result. -/
def toInt64 (n : Nat) : Int := if n < 2 ^ 63 then n else (n : Int) - 2 ^ 64

/-- The point a task has reached. The buffer of a write is the list of its bytes. `out` is what a read
has copied to its user buffer. -/
inductive Pc
  | idle
  /-- `pipe_read_reserve`. -/
  | reserve (size : Nat)
  /-- The first check of the waiting loop. -/
  | await (size : Nat)
  /-- The second check, with the task queued. -/
  | recheck (size : Nat)
  /-- Woken, or not put to sleep. -/
  | woken (size : Nat)
  | peek (size : Nat)
  /-- `copy_to_user_ft_res`. -/
  | copy (bounce : List UInt8)
  | commit (bounce : List UInt8)
  /-- `out_release`. -/
  | release (result : Int) (out : List UInt8)
  | readDone (result : Int) (out : List UInt8)
  /-- `copy_from_user_ft`. -/
  | stage (buf : List UInt8) (total : Nat)
  | drain (buf : List UInt8) (total : Nat) (bounce : List UInt8)
  /-- The second check of a writer. -/
  | wrecheck (buf : List UInt8) (total : Nat)
  | wwoken (buf : List UInt8) (total : Nat)
  | writeDone (buf : List UInt8) (result : Int)
deriving DecidableEq, Repr

/-- The task is not inside a call. -/
def Pc.outside : Pc → Bool
  | idle => true
  | readDone _ _ => true
  | writeDone _ _ => true
  | _ => false

/-- Outcomes the step does not decide. -/
structure Choice where
  /-- The user copy faults. -/
  fault : Bool := false
  kmalloc : Bool := true
  /-- A fatal signal is pending. -/
  fatal : Bool := false

/-- One pipe and the tasks that use it. -/
structure PipeSystem (τ : Type*) where
  pipe : Pipe
  pc : τ → Pc
  /-- How many calls a task has made. -/
  calls : τ → Nat
  accepted : List ((τ × Nat) × UInt8)
  delivered : List ((τ × Nat) × UInt8)

/-- What may happen next. -/
inductive PipeEvent (τ : Type*)
  /-- `pipe_read_internal` is called. -/
  | read (t : τ) (size : Nat)
  /-- `pipe_write_internal` is called; the size has 64 bits, and `kmalloc` says whether it gets its bounce buffer. -/
  | write (t : τ) (buf : List UInt8) (size : buf.length < 2 ^ 64) (kmalloc : Bool)
  /-- The task goes on. -/
  | run (t : τ) (o : Choice)
  /-- Ends are opened and closed. -/
  | ends (readers writers : Nat)

namespace PipeSystem

variable {τ : Type*} [DecidableEq τ] (s : PipeSystem τ)

/-- Move a task. -/
def goto (t : τ) (pc : Pc) : PipeSystem τ := { s with pc := update s.pc t pc }

/-- Replace the pipe. -/
def withPipe (p : Pipe) : PipeSystem τ := { s with pipe := p }

/-- A new call of a task. -/
def call (t : τ) (pc : Pc) : PipeSystem τ :=
  { s.goto t pc with calls := update s.calls t (s.calls t + 1) }

/-- Tag bytes with the current call of a task. -/
def tag (t : τ) (bytes : List UInt8) : List ((τ × Nat) × UInt8) :=
  bytes.map fun b => ((t, s.calls t), b)

/-- `pipe_read_release`. -/
def readRelease : PipeSystem τ := s.withPipe { s.pipe with readBusy := false }

/-- The locked section of the writer: it moves bytes into the ring while there is room. -/
def drain (t : τ) (buf : List UInt8) (total : Nat) (bounce : List UInt8) : PipeSystem τ :=
  let (ring, written) := s.pipe.ring.pushAll bounce
  let s' := { s.withPipe { s.pipe with ring } with
    accepted := s.accepted ++ s.tag t (bounce.take written) }
  if 0 < written then
    if total + written = buf.length then s'.goto t (.writeDone buf (toInt64 (total + written)))
    else s'.goto t (.stage buf (total + written))
  else if s.pipe.readers = 0 then s'.goto t (.writeDone buf (-EPIPE))
  else s'.goto t (.wrecheck buf total)

/-- The next locked section of a task. -/
def run (t : τ) (o : Choice) : PipeSystem τ :=
  match s.pc t with
  | .reserve size =>
    if s.pipe.readBusy then s
    else (s.withPipe { s.pipe with readBusy := true }).goto t (.await size)
  | .await size =>
    if !s.pipe.ring.empty then s.goto t (.peek size)
    else if s.pipe.writers = 0 then s.goto t (.release 0 [])
    else s.goto t (.recheck size)
  | .recheck size =>
    if s.pipe.writers = 0 && s.pipe.ring.empty then s.goto t (.release 0 [])
    else s.goto t (.woken size)
  | .woken size => if o.fatal then s.goto t (.release (-EINTR) []) else s.goto t (.await size)
  | .peek size =>
    if !o.kmalloc then s.goto t (.release (-ENOMEM) [])
    else s.goto t (.copy (s.pipe.ring.peek (min s.pipe.ring.avail size)))
  | .copy bounce =>
    -- the fault callback releases the reservation
    if o.fault then s.readRelease.goto t (.readDone (-EFAULT) [])
    else s.goto t (.commit bounce)
  | .commit bounce =>
    ({ s.withPipe { s.pipe with ring := s.pipe.ring.drop bounce.length } with
      delivered := s.delivered ++ s.tag t bounce }).goto t (.release bounce.length bounce)
  | .release result out => s.readRelease.goto t (.readDone result out)
  | .stage buf total =>
    if o.fault then s.goto t (.writeDone buf (if total = 0 then -EFAULT else toInt64 total))
    else s.goto t (.drain buf total ((buf.drop total).take (min (buf.length - total) PIPE_SIZE)))
  | .drain buf total bounce => s.drain t buf total bounce
  | .wrecheck buf total =>
    if s.pipe.readers = 0 then s.goto t (.writeDone buf (-EPIPE)) else s.goto t (.wwoken buf total)
  | .wwoken buf total =>
    if o.fatal then s.goto t (.writeDone buf (-EINTR)) else s.goto t (.stage buf total)
  | _ => s

/-- The steps of the system. -/
def next : PipeEvent τ → PipeSystem τ
  | .read t size =>
    if (s.pc t).outside then
      s.call t (if size = 0 then .readDone (-1) [] else .reserve size)
    else s
  | .write t buf _ kmalloc =>
    if (s.pc t).outside then
      s.call t (if buf = [] then .writeDone buf (-1) else if !kmalloc then .writeDone buf (-ENOMEM) else .stage buf 0)
    else s
  | .run t o => s.run t o
  | .ends readers writers => s.withPipe { s.pipe with readers, writers }

end PipeSystem

end OS01.Fs
