import Mathlib.Data.Finset.Prod
import OS01.Abi
import OS01.Lib.Count
import OS01.Lib.Run

/-!
# File descriptors

The descriptor tables and the reference counts of open files (`kernel/fs/file.c`): `file_get`,
`file_put`, `file_free` with the counts of a pipe's ends, `fd_alloc_limit`, `fd_dup`, `fd_dupfd`,
`fd_dup2`, `fd_close`, `files_dup`, `files_pin`, `files_unpin`, `files_get_file`, `do_pipe`, and the
`F_SETFL` case of `fcntl` (`kernel/syscall/sys_fs.c`).

Open files, pipes and tables are named by numbers that are never used again. Of an open file the model
keeps the reference count, the flags and the pipe; terminals, sockets and file-system nodes, which
`file_free` also gives up, have no part in the accounting.

Three counters are not in the source. `held` counts the references to a file outside the tables: a
reference is held by whoever allocated the file or looked it up, until it is put back or moves into a
slot. `fileFrees` and `pipeFrees` count how often an object was freed.
-/

namespace OS01.Fs

open Function Lib

/-- Slots of a table. -/
def NOFILE : Nat := 16

/-- The flags of an open file: the access mode, `O_APPEND`, and the other bits. -/
structure OpenFlags where
  accmode : Nat := 0
  append : Bool := false
  other : Nat := 0
deriving DecidableEq, Repr

/-- Open for reading. -/
def O_RDONLY : OpenFlags := { accmode := 0 }

/-- Open for writing. -/
def O_WRONLY : OpenFlags := { accmode := 1 }

/-- `file_t`; `pipe` is set for the type `FD_PIPE`. -/
structure File where
  /-- 32 bits. -/
  refcount : Nat
  flags : OpenFlags
  pipe : Option Nat
deriving DecidableEq, Repr

/-- The counters of a `pipe_t`. -/
structure PipeEnds where
  readers : Int
  writers : Int
deriving DecidableEq, Repr

/-- All tables, open files and pipes. -/
structure FdState where
  file : Nat → Option File
  pipe : Nat → Option PipeEnds
  /-- The reference counts of the tables; 32 bits. -/
  table : Nat → Option Nat
  /-- The slots of the tables. -/
  slot : Nat × Nat → Option Nat
  /-- The next unused names. -/
  files : Nat
  pipes : Nat
  tables : Nat
  held : Nat → Nat
  fileFrees : Nat → Nat
  pipeFrees : Nat → Nat

namespace FdState

variable (s : FdState)

/-! ## Open files -/

/-- `file_alloc`, with the reference its caller gets. -/
def fileAlloc (flags : OpenFlags) (pipe : Option Nat) : FdState :=
  { s with
    file := update s.file s.files (some { refcount := 1, flags, pipe })
    held := update s.held s.files 1
    files := s.files + 1 }

/-- `pipe_alloc`. -/
def pipeAlloc : FdState :=
  { s with
    pipe := update s.pipe s.pipes (some { readers := 1, writers := 1 })
    pipes := s.pipes + 1 }

/-- `pipe_free`. -/
def pipeFree (p : Nat) : FdState :=
  { s with
    pipe := update s.pipe p none
    pipeFrees := update s.pipeFrees p (s.pipeFrees p + 1) }

/-- The counters after one end is closed: the flags say which. -/
def PipeEnds.close (e : PipeEnds) (flags : OpenFlags) : PipeEnds :=
  if flags = O_RDONLY then { e with readers := e.readers - 1 }
  else { e with writers := e.writers - 1 }

/-- The pipe branch of `file_free`. -/
def closeEnd (flags : OpenFlags) (p : Nat) : FdState :=
  match s.pipe p with
  | none => s
  | some e =>
    let e' := PipeEnds.close e flags
    if e'.readers = 0 ∧ e'.writers = 0 then s.pipeFree p
    else { s with pipe := update s.pipe p (some e') }

/-- `file_free`. -/
def fileFree (f : Nat) : FdState :=
  match s.file f with
  | none => s
  | some x =>
    let s := x.pipe.elim s (s.closeEnd x.flags)
    { s with
      file := update s.file f none
      held := update s.held f 0
      fileFrees := update s.fileFrees f (s.fileFrees f + 1) }

/-- `file_get`. -/
def fileGet (f : Nat) : FdState :=
  match s.file f with
  | none => s
  | some x =>
    { s with
      file := update s.file f (some { x with refcount := (x.refcount + 1) % 2 ^ 32 })
      held := update s.held f (s.held f + 1) }

/-- `file_put`. -/
def filePut (f : Nat) : FdState :=
  match s.file f with
  | none => s
  | some x =>
    let refcount := (x.refcount + (2 ^ 32 - 1)) % 2 ^ 32
    if refcount = 0 then s.fileFree f
    else
      { s with
        file := update s.file f (some { x with refcount })
        held := update s.held f (s.held f - 1) }

/-! ## Slots -/

/-- Store a file in a free slot: a reference outside the tables moves into it. -/
def install (t i f : Nat) : FdState :=
  { s with
    slot := update s.slot (t, i) (some f)
    held := update s.held f (s.held f - 1) }

/-- Empty a slot that holds a file: its reference moves out. -/
def remove (t i f : Nat) : FdState :=
  { s with
    slot := update s.slot (t, i) none
    held := update s.held f (s.held f + 1) }

/-- The first free slot that a loop from `lo` below `hi` finds. -/
def lowestFree (t lo hi : Nat) : Option Nat :=
  (List.range' lo (hi - lo)).find? fun i => (s.slot (t, i)).isNone

/-- `fd_alloc_limit`. -/
def fdAllocLimit (t f minFd limit : Nat) : FdState × Int :=
  match s.lowestFree t minFd (min limit NOFILE) with
  | none => (s, -EMFILE)
  | some i => (s.install t i f, i)

/-- A slot emptied and its reference put back. -/
def closeSlot (t i : Nat) : FdState :=
  match s.slot (t, i) with
  | none => s
  | some f => (s.remove t i f).filePut f

/-- A descriptor number that is in range. -/
def inRange (fd : Int) : Bool := decide (0 ≤ fd) && decide (fd < NOFILE)

/-- `fd_close`. -/
def fdClose (t : Nat) (fd : Int) : FdState :=
  if inRange fd then s.closeSlot t fd.toNat else s

/-- `fd_dup_install`. -/
def fdDupInstall (t oldfd minFd limit : Nat) : FdState × Int :=
  match s.slot (t, oldfd) with
  | none => (s, -EBADF)
  | some f =>
    match s.lowestFree t minFd limit with
    | none => (s, -EMFILE)
    | some i => ((s.fileGet f).install t i f, i)

/-- `fd_dup`. -/
def fdDup (t : Nat) (oldfd : Int) (soft : Nat) : FdState × Int :=
  if !inRange oldfd then (s, -EBADF) else s.fdDupInstall t oldfd.toNat 0 (min soft NOFILE)

/-- `fd_dupfd`. -/
def fdDupfd (t : Nat) (oldfd minFd : Int) (soft : Nat) : FdState × Int :=
  if minFd < 0 then (s, -EINVAL)
  else if min soft NOFILE ≤ minFd.toNat then (s, -EINVAL)
  else if !inRange oldfd then (s, -EBADF)
  else s.fdDupInstall t oldfd.toNat minFd.toNat (min soft NOFILE)

/-- `fd_dup2`. -/
def fdDup2 (t : Nat) (oldfd newfd : Int) (soft : Nat) : FdState × Int :=
  if !inRange oldfd || !inRange newfd then (s, -EBADF)
  else if oldfd = newfd then
    (s, if (s.slot (t, oldfd.toNat)).isSome then newfd else -EBADF)
  else if (soft : Int) ≤ newfd then (s, -EBADF)
  else
    match s.slot (t, oldfd.toNat) with
    | none => (s, -EBADF)
    | some f =>
      let s := s.fileGet f
      match s.slot (t, newfd.toNat) with
      | none => (s.install t newfd.toNat f, newfd)
      | some old => (((s.remove t newfd.toNat old).install t newfd.toNat f).filePut old, newfd)

/-! ## Tables -/

/-- The loop of `files_dup` over one slot. -/
def dupSlot (t t' : Nat) (s : FdState) (i : Nat) : FdState :=
  match s.slot (t, i) with
  | none => s
  | some f => (s.fileGet f).install t' i f

/-- A new table. -/
def tableAlloc : FdState :=
  { s with table := update s.table s.tables (some 1), tables := s.tables + 1 }

/-- `files_dup`; `ok` says whether its allocations succeed. -/
def filesDup (t : Nat) (ok : Bool) : FdState :=
  if ok then (List.range NOFILE).foldl (dupSlot t s.tables) s.tableAlloc else s

/-- `files_free`. -/
def filesFree (t : Nat) : FdState :=
  let s := (List.range NOFILE).foldl (fun s i => s.closeSlot t i) s
  { s with table := update s.table t none }

/-- `files_pin`. -/
def filesPin (t : Nat) : FdState :=
  match s.table t with
  | none => s
  | some n => { s with table := update s.table t (some ((n + 1) % 2 ^ 32)) }

/-- `files_unpin`. -/
def filesUnpin (t : Nat) : FdState :=
  match s.table t with
  | none => s
  | some n =>
    let n' := (n + (2 ^ 32 - 1)) % 2 ^ 32
    if n' = 0 then s.filesFree t
    else { s with table := update s.table t (some n') }

/-- `files_get_file`. -/
def filesGetFile (t : Nat) (fd : Int) : FdState :=
  if inRange fd then (s.slot (t, fd.toNat)).elim s s.fileGet else s

/-- `fcntl(F_SETFL)`: only `O_APPEND` changes. -/
def setFl (t : Nat) (fd : Int) (append : Bool) : FdState × Int :=
  if !inRange fd then (s, -EBADF)
  else
    match s.slot (t, fd.toNat) with
    | none => (s, -EBADF)
    | some f =>
      match s.file f with
      | none => (s, 0)
      | some x =>
        let x := { x with flags := { x.flags with append := append } }
        ({ s with file := update s.file f (some x) }, 0)

/-! ## Pipes -/

/-- Outcomes of the allocations of `do_pipe` and of its copy to the user. -/
structure PipeEnv where
  (pipe reader writer copy : Bool)

/-- The part of `do_pipe` that needs both files: they get two slots, or go again. -/
def pipeInstall (t rf wf soft : Nat) (copy : Bool) : FdState × Int :=
  let limit := min soft NOFILE
  let (s, rfd) := s.fdAllocLimit t rf 0 limit
  let (s, wfd) := s.fdAllocLimit t wf 0 limit
  if rfd < 0 ∨ wfd < 0 then
    let s := if 0 ≤ rfd then s.fdClose t rfd else s.filePut rf
    let s := if 0 ≤ wfd then s.fdClose t wfd else s.filePut wf
    (s, -EMFILE)
  else if copy then (s, 0)
  else ((s.fdClose t rfd).fdClose t wfd, -EFAULT)

/-- `do_pipe`. -/
def doPipe (t soft : Nat) (env : PipeEnv) : FdState × Int :=
  if !env.pipe then (s, -ENOMEM)
  else
    let p := s.pipes
    let rf := s.files
    let s := s.pipeAlloc
    if !env.reader then (s.pipeFree p, -ENOMEM)
    else
      let s := s.fileAlloc O_RDONLY (some p)
      if !env.writer then ((s.fileFree rf).pipeFree p, -ENOMEM)
      else (s.fileAlloc O_WRONLY (some p)).pipeInstall t rf (rf + 1) soft env.copy

end FdState

/-- The calls. -/
inductive FdEvent
  /-- An open file of another type is made, held by its caller. -/
  | openFile (flags : OpenFlags)
  | filesAlloc
  | fdAllocLimit (t f minFd limit : Nat)
  | fdDup (t : Nat) (oldfd : Int) (soft : Nat)
  | fdDupfd (t : Nat) (oldfd minFd : Int) (soft : Nat)
  | fdDup2 (t : Nat) (oldfd newfd : Int) (soft : Nat)
  | fdClose (t : Nat) (fd : Int)
  | filesDup (t : Nat) (ok : Bool)
  | filesPin (t : Nat)
  | filesUnpin (t : Nat)
  | filesGetFile (t : Nat) (fd : Int)
  | filesPutFile (f : Nat)
  | setFl (t : Nat) (fd : Int) (append : Bool)
  | doPipe (t soft : Nat) (env : FdState.PipeEnv)

namespace FdState

/-- The table a call works on, for which its caller holds a reference. -/
def callTable : FdEvent → Option Nat
  | .fdAllocLimit t _ _ _ | .fdDup t _ _ | .fdDupfd t _ _ _ | .fdDup2 t _ _ _ | .fdClose t _
  | .filesDup t _ | .filesPin t | .filesUnpin t | .filesGetFile t _ | .setFl t _ _
  | .doPipe t _ _ => some t
  | .openFile _ | .filesAlloc | .filesPutFile _ => none

/-- The file to which the caller brings a reference. -/
def callFile : FdEvent → Option Nat
  | .fdAllocLimit _ f _ _ | .filesPutFile f => some f
  | _ => none

/-- The caller has what it calls with. -/
def Enabled (s : FdState) (e : FdEvent) : Prop :=
  (∀ t, callTable e = some t → (s.table t).isSome) ∧ ∀ f, callFile e = some f → 0 < s.held f

/-- A call, with its result. -/
def call (s : FdState) : FdEvent → FdState × Int
  | .openFile flags => (s.fileAlloc flags none, 0)
  | .filesAlloc => (s.tableAlloc, 0)
  | .fdAllocLimit t f minFd limit => s.fdAllocLimit t f minFd limit
  | .fdDup t oldfd soft => s.fdDup t oldfd soft
  | .fdDupfd t oldfd minFd soft => s.fdDupfd t oldfd minFd soft
  | .fdDup2 t oldfd newfd soft => s.fdDup2 t oldfd newfd soft
  | .fdClose t fd => (s.fdClose t fd, 0)
  | .filesDup t ok => (s.filesDup t ok, 0)
  | .filesPin t => (s.filesPin t, 0)
  | .filesUnpin t => (s.filesUnpin t, 0)
  | .filesGetFile t fd => (s.filesGetFile t fd, 0)
  | .filesPutFile f => (s.filePut f, 0)
  | .setFl t fd append => s.setFl t fd append
  | .doPipe t soft env => s.doPipe t soft env

/-- The steps: a call by someone who has the references it needs. -/
def Step (s : FdState) (e : FdEvent) (s' : FdState) : Prop := s.Enabled e ∧ s' = (s.call e).1

end FdState

end OS01.Fs
