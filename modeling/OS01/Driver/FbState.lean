import Mathlib.Algebra.Group.Nat.Defs
import OS01.Lib.Run
import OS01.Driver.InputRoute

/-!
# The display coordinator

`kernel/driver/fb_state.c`: who may draw, in which mode, and which view holds the physical input. A writer holds
a lease while it draws. A call that changes the owner or the mode holds the display mutex; it looks at the
state, closes admission and waits for the writers to leave, looks again and commits.

The model takes one step for each section under the display state lock, so that other calls and writers come
between the sections of a call. `Control` is the call that holds the mutex and where it is in its body. What a
step returns to its caller is part of the functions of the sections; the pixels, the mapping and the hardware
registers are left out, except for the outcome of `bga_apply_mode`, which comes with the event.

`g_active_writers` has 32 bits and is a natural number here: it is the number of leases that are held (`Leased.count` of
`OS01.Driver.FbLeases`), which are on the stacks of tasks in a call, and there is no memory for `2 ^ 32` of these. The
generations have 64 bits and go up by one with a commit.
-/

namespace OS01.Driver

open Lib

/-- `struct fb_info`, as far as a mode is compared. -/
structure FbInfo where
  width : Nat
  height : Nat
  bpp : Nat
  deriving DecidableEq, Repr

/-- The states of the record of the input lease. -/
inductive InputLeaseState
  | none | live | revoked
  deriving DecidableEq, Repr

/-- `g_input_lease`. -/
structure InputLease where
  state : InputLeaseState
  view : Option View
  generation : Nat
  deriving DecidableEq, Repr

/-- The state under the display locks, and the input route it controls. -/
structure Display where
  initialized : Bool
  info : FbInfo
  generation : Nat
  mapped : Bool
  mappedSize : Nat
  vramCapacity : Nat
  modes : List FbInfo
  activeWriters : Nat
  (transitioning backendReady backendFailed rawMmapSeen rawWritableMmapSeen : Bool)
  owner : Option View
  fallback : Option View
  ownerGeneration : Nat
  inputLease : InputLease
  consoleActive : Bool
  surrendered : Bool
  route : Route

namespace Display

/-! ## Writers -/

variable (d : Display)

/-- The part of `fb_writer_begin` and `fb_gfx_writer_begin` that they share: `refused` is the test for the class
of the writer and its error. The result is the mode generation of the lease's snapshot. -/
def beginLease (refused : Option Int) (expected : Nat) : Except Int Nat × Display :=
  if ¬ d.initialized then (.error (- EAGAIN), d)
  else if d.backendFailed then (.error (- EIO), d)
  else if d.transitioning then (.error (- EAGAIN), d)
  else if ¬ d.mapped ∨ d.mappedSize = 0 then (.error (- EAGAIN), d)
  else
    match refused with
    | some e => (.error (- e), d)
    | none =>
      if expected ≠ 0 ∧ expected ≠ d.generation then (.error (- ESTALE), d)
      else (.ok d.generation, { d with activeWriters := d.activeWriters + 1 })

/-- `fb_writer_begin`. -/
def fbWriterBegin (expectedGeneration : Nat) : Except Int Nat × Display :=
  d.beginLease (if d.owner ≠ none then some EBUSY else none) expectedGeneration

/-- `fb_gfx_writer_begin`. -/
def fbGfxWriterBegin (modeSeq : Nat) (cookie : Option View) : Except Int Nat × Display :=
  d.beginLease (if cookie = none ∨ d.owner ≠ cookie then some EACCES else none) modeSeq

/-- `fb_writer_end`, of a lease that is held. -/
def fbWriterEnd : Display :=
  if 0 < d.activeWriters then { d with activeWriters := d.activeWriters - 1 } else d

/-! ## Transitions -/

/-- The first section of `fb_transition_begin`: whether the writers have already left. -/
def fbTransitionBegin : Except Int Bool × Display :=
  if ¬ d.initialized then (.error (- EAGAIN), d)
  else if d.backendFailed then (.error (- EIO), d)
  else if d.transitioning then (.error (- EBUSY), d)
  else (.ok (decide (d.activeWriters = 0)), { d with transitioning := true })

/-- A section of the loop of `fb_transition_begin`, where `late` says that the deadline has passed. -/
def fbDrain (late : Bool) : Except Int Bool × Display :=
  if d.activeWriters = 0 then (.ok true, d)
  else if late then (.error (- EBUSY), { d with transitioning := false })
  else (.ok false, d)

/-- `fb_transition_end`. -/
def fbTransitionEnd : Display :=
  if d.backendFailed then d else { d with transitioning := false }

/-- `fb_update_console_ownership_locked`. -/
def fbUpdateConsoleOwnership : Display :=
  if d.owner = none then { d with consoleActive := true, surrendered := false }
  else { d with consoleActive := false, surrendered := true }

/-! ## The input lease -/

/-- `fb_input_revoke_locked`. -/
def fbInputRevoke (reason : Int) : Display :=
  if d.inputLease.state ≠ .live then d
  else
    { d with
      inputLease := { d.inputLease with state := .revoked }
      route := d.route.unbind d.inputLease.view d.inputLease.generation reason }

/-- `fb_input_lease_blocks_locked`. -/
def fbInputLeaseBlocks : Bool × Display :=
  if d.inputLease.state ≠ .live then (false, d)
  else if d.route.leaseLive then (true, d)
  else (false, { d with inputLease := ⟨.none, none, 0⟩ })

/-- `fb_input_bind`: the generation of the lease and the Caps latch, or an error. -/
def fbInputBind (view : Option View) (expectedMode : Nat) (kbd mouse : Option RouteFile) :
    Except Int (Nat × Bool) × Display :=
  if view = none ∨ kbd = none then (.error (- EINVAL), d)
  else if ¬ d.initialized then (.error (- EAGAIN), d)
  else if d.backendFailed then (.error (- EIO), d)
  else if d.owner ≠ view then (.error (- EACCES), d)
  else if expectedMode ≠ 0 ∧ expectedMode ≠ d.generation then (.error (- ESTALE), d)
  else
    match d.fbInputLeaseBlocks with
    | (true, d₁) => (.error (- EBUSY), d₁)
    | (false, d₁) =>
      match d₁.route.bind view kbd mouse with
      | (.error e, route) => (.error e, { d₁ with route })
      | (.ok (generation, mods), route) =>
        (.ok (generation, mods.caps), { d₁ with route, inputLease := ⟨.live, view, generation⟩ })

/-- `fb_input_unbind`. -/
def fbInputUnbind (view : Option View) (generation : Nat) (reason : Int) : Display :=
  if view = none then d
  else if d.inputLease.state ≠ .none ∧ d.inputLease.view = view ∧
      (generation = 0 ∨ generation = d.inputLease.generation) then
    { d with
      inputLease := ⟨.none, none, 0⟩
      route := d.route.unbind view (if generation ≠ 0 then generation else d.inputLease.generation) reason }
  else d

/-! ## Commits -/

/-- The owner is set to `view`, and the console follows. -/
def commitOwner (view : Option View) : Display :=
  fbUpdateConsoleOwnership { d with owner := view, ownerGeneration := d.ownerGeneration + 1 }

/-- `fb_mark_failed`. -/
def fbMarkFailed : Display :=
  commitOwner
    { fbInputRevoke { d with backendFailed := true, backendReady := false, transitioning := true } EIO with
      fallback := none } none

/-- `fb_commit_layout_locked`. -/
def fbCommitLayout (info : Option FbInfo) (redrawInvalidated : Bool) : Display :=
  let moves := info.isSome || redrawInvalidated
  let d₁ := if moves then d.fbInputRevoke ESTALE else d
  { d₁ with info := info.getD d₁.info, generation := if moves then d₁.generation + 1 else d₁.generation }

end Display

/-! ## Calls that hold the mutex -/

/-- The outcomes of `bga_apply_mode`. -/
inductive BgaResult
  | applied | rolledBack | failed
  deriving DecidableEq, Repr

/-- The calls that drain the writers. A null view is refused before the mutex is taken, and is left out. -/
inductive ControlOp
  | setMode (width height bpp : Nat)
  | registerFallback (cookie : View) (expectedMode : Nat)
  | acquire (cookie : View) (expectedMode : Nat)
  | release (cookie : View)
  | replaceFallback (old new : View) (expectedMode : Nat)
  deriving DecidableEq, Repr

/-- Where a call is: before its first section, before or in `fb_transition_begin`, before the section that commits,
or before its end. `closed` says that it has closed admission. -/
inductive Phase
  | entered
  | checked
  | draining
  | ready (closed : Bool)
  | ending (closed : Bool) (rc : Int)
  deriving DecidableEq, Repr

/-- The call that holds the display mutex. -/
structure Control where
  op : ControlOp
  phase : Phase
  deriving DecidableEq, Repr

/-- A call that has returned, or goes on in a phase. -/
inductive Outcome
  | returns (rc : Int)
  | goes (phase : Phase)
  deriving DecidableEq, Repr

namespace Display

variable (d : Display)

/-- The view is of a mode that has gone. -/
def staleMode (expectedMode : Nat) : Prop := expectedMode ≠ 0 ∧ expectedMode ≠ d.generation

instance (d : Display) (expectedMode : Nat) : Decidable (d.staleMode expectedMode) :=
  inferInstanceAs (Decidable (_ ∧ _))

/-- The checks that a call makes with the mutex, outside the state lock. -/
def enter : ControlOp → Outcome
  | .setMode width height bpp =>
    if bpp ≠ 0 ∧ bpp ≠ 32 then .returns (- EINVAL)
    else if width = 0 ∨ height = 0 then .returns (- EINVAL)
    else if ¬ d.initialized then .returns (- EAGAIN)
    else if d.backendFailed then .returns (- EIO)
    else if ¬ d.backendReady then .returns (- ENODEV)
    else if ¬ d.modes.any (fun m => m.width == width && m.height == height) then .returns (- EINVAL)
    else if min d.vramCapacity d.mappedSize < width * height * 4 % 2 ^ 64 then .returns (- EINVAL)
    else if d.info.width = width ∧ d.info.height = height ∧ d.info.bpp = 32 then .returns 0
    else if d.rawMmapSeen then .returns (- EBUSY)
    else .goes .checked
  | _ =>
    if ¬ d.initialized then .returns (- EAGAIN)
    else if d.backendFailed then .returns (- EIO)
    else .goes .entered

/-- The first section of a call under the state lock. -/
def check : ControlOp → Outcome
  | .setMode _ _ _ => .goes .checked
  | .registerFallback cookie expectedMode =>
    if d.rawWritableMmapSeen then .returns (- EBUSY)
    else if d.staleMode expectedMode then .returns (- ESTALE)
    else if d.fallback ≠ none ∧ d.fallback ≠ some cookie then .returns (- EBUSY)
    else if d.fallback = some cookie ∧ (d.owner = some cookie ∨ d.owner ≠ none) then .returns 0
    else if d.owner = none then .goes .checked
    else .goes (.ready false)
  | .acquire cookie expectedMode =>
    if d.rawWritableMmapSeen then .returns (- EBUSY)
    else if d.staleMode expectedMode then .returns (- ESTALE)
    else if d.owner = some cookie then .returns 0
    else if d.owner ≠ none ∧ d.owner ≠ d.fallback then .returns (- EBUSY)
    else .goes .checked
  | .release cookie =>
    if d.owner ≠ some cookie ∨ d.owner = d.fallback then .returns 0 else .goes .checked
  | .replaceFallback old new expectedMode =>
    if d.staleMode expectedMode then .returns (- ESTALE)
    else if d.fallback ≠ some old then .returns (- EINVAL)
    else if old = new then .returns 0
    else if d.owner = some old then .goes .checked
    else .goes (.ready false)

/-- The section of a call that commits: its code and the state. -/
def commit (bga : BgaResult) : ControlOp → Int × Display
  | .setMode width height _ =>
    match bga with
    | .applied => (0, d.fbCommitLayout (some ⟨width, height, 32⟩) false)
    | .rolledBack => (- EIO, d.fbCommitLayout none true)
    | .failed => (- EIO, d.fbMarkFailed)
  | .registerFallback cookie expectedMode =>
    if d.backendFailed then (- EIO, d)
    else if d.rawWritableMmapSeen then (- EBUSY, d)
    else if d.staleMode expectedMode then (- ESTALE, d)
    else if d.fallback ≠ none ∧ d.fallback ≠ some cookie then (- EBUSY, d)
    else
      let d₁ := { d with fallback := some cookie }
      if d.owner = none then (0, d₁.commitOwner (some cookie))
      else if d.fallback ≠ some cookie then (0, d₁.commitOwner d.owner)
      else (0, d₁)
  | .acquire cookie expectedMode =>
    if d.backendFailed then (- EIO, d)
    else if d.rawWritableMmapSeen then (- EBUSY, d)
    else if d.staleMode expectedMode then (- ESTALE, d)
    else if d.owner ≠ none ∧ d.owner ≠ d.fallback ∧ d.owner ≠ some cookie then (- EBUSY, d)
    else if d.owner ≠ some cookie then (0, (d.fbInputRevoke EACCES).commitOwner (some cookie))
    else (0, d)
  | .release cookie =>
    if d.backendFailed then (- EIO, d)
    else if d.owner = some cookie ∧ d.owner ≠ d.fallback then
      (0, (d.fbInputRevoke EACCES).commitOwner d.fallback)
    else (0, d)
  | .replaceFallback old new expectedMode =>
    if d.backendFailed then (- EIO, d)
    else if d.staleMode expectedMode then (- ESTALE, d)
    else if d.fallback ≠ some old then (- EINVAL, d)
    else
      let d₁ := { d with fallback := some new }
      if d.owner = some old then (0, (d₁.fbInputRevoke EACCES).commitOwner (some new))
      else (0, d₁.commitOwner d.owner)

/-- `fb_owner_detach`. -/
def fbOwnerDetach (cookie : View) : Display :=
  let d₁ := if d.fallback = some cookie then { d with fallback := none } else d
  if d.owner = some cookie then (d₁.fbInputRevoke EACCES).commitOwner d₁.fallback
  else if d.fallback = some cookie then d₁.commitOwner d.owner
  else d

end Display

/-! ## The system -/

/-- A lease that a writer holds: the view it draws for (`none` for the console) and the mode generation of its
snapshot. -/
structure HeldLease where
  id : Nat
  client : Option View
  generation : Nat
  deriving DecidableEq, Repr

/-- The coordinator, the leases that are held, the call that holds the mutex, and the mode generation at the
last bind of the input. -/
structure FbSystem where
  display : Display
  held : List HeldLease
  control : Option Control
  boundMode : Nat

/-- The sections that are taken one at a time. -/
inductive FbEvent
  | consoleBegin (id expected : Nat)
  | gfxBegin (id : Nat) (cookie : Option View) (modeSeq : Nat)
  | writerEnd (id : Nat)
  | enter (op : ControlOp)
  | check
  | closeAdmission
  | drain (late : Bool)
  | commit (bga : BgaResult)
  | finish
  | detach (cookie : View)
  | markFailed
  | inputBind (view : Option View) (expectedMode : Nat) (kbd mouse : Option RouteFile)
  | inputUnbind (view : Option View) (generation : Nat) (reason : Int)
  | openFile (device : InputDevice) (f : RouteFile)
  | closeFile (f : RouteFile)
  | rawMmap (writable : Bool)

namespace FbSystem

variable (s : FbSystem)

/-- A writer asks for a lease on a record `id` that it does not hold. -/
def beginWriter (id : Nat) (client : Option View) (r : Except Int Nat × Display) :
    Option FbSystem :=
  if s.held.any (fun l => l.id == id) then none
  else
    match r with
    | (.error _, d) => some { s with display := d }
    | (.ok generation, d) => some { s with display := d, held := s.held ++ [⟨id, client, generation⟩] }

/-- The call goes on as its section says. -/
def goOn (op : ControlOp) : Outcome → FbSystem
  | .returns _ => { s with control := none }
  | .goes phase => { s with control := some ⟨op, phase⟩ }

/-- The call after a section of `fb_transition_begin`. -/
def afterDrain (op : ControlOp) : Except Int Bool × Display → FbSystem
  | (.error _, d) => { s with display := d, control := none }
  | (.ok true, d) => { s with display := d, control := some ⟨op, .ready true⟩ }
  | (.ok false, d) => { s with display := d, control := some ⟨op, .draining⟩ }

/-- The call after the section that commits. Where `fb_set_mode` has marked the backend failed it keeps admission
closed. -/
def afterCommit (op : ControlOp) (closed : Bool) (bga : BgaResult) (r : Int × Display) :
    FbSystem :=
  match op, bga with
  | .setMode _ _ _, .failed => { s with display := r.2, control := some ⟨op, .ending false r.1⟩ }
  | _, _ => { s with display := r.2, control := some ⟨op, .ending closed r.1⟩ }

/-- One section; `none` where it cannot be taken. -/
def next : FbEvent → Option FbSystem
  | .consoleBegin id expected => s.beginWriter id none (s.display.fbWriterBegin expected)
  | .gfxBegin id cookie modeSeq => s.beginWriter id cookie (s.display.fbGfxWriterBegin modeSeq cookie)
  | .writerEnd id =>
    if s.held.any (fun l => l.id == id) then
      some { s with display := s.display.fbWriterEnd, held := s.held.eraseP fun l => l.id == id }
    else some s
  | .enter op =>
    match s.control with
    | none => some (s.goOn op (s.display.enter op))
    | some _ => none
  | .check =>
    match s.control with
    | some ⟨op, .entered⟩ => some (s.goOn op (s.display.check op))
    | _ => none
  | .closeAdmission =>
    match s.control with
    | some ⟨op, .checked⟩ => some (s.afterDrain op s.display.fbTransitionBegin)
    | _ => none
  | .drain late =>
    match s.control with
    | some ⟨op, .draining⟩ => some (s.afterDrain op (s.display.fbDrain late))
    | _ => none
  | .commit bga =>
    match s.control with
    | some ⟨op, .ready closed⟩ => some (s.afterCommit op closed bga (s.display.commit bga op))
    | _ => none
  | .finish =>
    match s.control with
    | some ⟨_, .ending closed _⟩ =>
      some { s with
        display := if closed then s.display.fbTransitionEnd else s.display, control := none }
    | _ => none
  | .detach cookie =>
    match s.control with
    | none => some { s with display := s.display.fbOwnerDetach cookie }
    | some _ => none
  | .markFailed => some { s with display := s.display.fbMarkFailed }
  | .inputBind view expectedMode kbd mouse =>
    match s.control with
    | none =>
      match s.display.fbInputBind view expectedMode kbd mouse with
      | (.error _, d) => some { s with display := d }
      | (.ok _, d) => some { s with display := d, boundMode := d.generation }
    | some _ => none
  | .inputUnbind view generation reason =>
    match s.control with
    | none => some { s with display := s.display.fbInputUnbind view generation reason }
    | some _ => none
  | .openFile device f =>
    if (s.display.route.files f).isNone then
      some { s with display := { s.display with route := s.display.route.openFile device f } }
    else none
  | .closeFile f => some { s with display := { s.display with route := s.display.route.releaseFile f } }
  | .rawMmap writable =>
    some { s with
      display := { s.display with
        rawMmapSeen := true, rawWritableMmapSeen := s.display.rawWritableMmapSeen || writable } }

end FbSystem

/-- The sections as steps. -/
def fbStep (s : FbSystem) (e : FbEvent) (t : FbSystem) : Prop := s.next e = some t

/-- The coordinator after it has been set up, before the first call: no owner, no writer, no lease of the input,
and the console enabled. -/
structure Booted (s : FbSystem) : Prop where
  owner : s.display.owner = none
  fallback : s.display.fallback = none
  writers : s.display.activeWriters = 0
  console : s.display.consoleActive = true
  lease : s.display.inputLease.state = .none
  route : s.display.route.leaseActive = false
  held : s.held = []
  control : s.control = none

end OS01.Driver
