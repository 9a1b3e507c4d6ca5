import OS01.Lib.Ring
import OS01.Abi
import OS01.Driver.Ps2Framer

/-!
# The input route

`kernel/driver/input_route.c` stands between the keyboard and mouse drivers and their readers. It frames the
keyboard bytes, keeps the physical state of the keys, and publishes each complete scan sequence either to the
NORMAL path or, while a view holds the input lease, to the ACTIVE queue that only the leased file reads.

A file of the route is its endpoint, `dev_private`; the endpoint is gone when the file is closed. The route
calls the NORMAL path through the sinks that the drivers register: what it publishes there is the result of
the function that publishes, and a read that it hands on is `ReadResult.normal`. Waiting, waking and the log
messages are left out. Generations and epochs have 64 bits and are natural numbers here: each goes up by one with a
bind or its end, and `2 ^ 64` of these do not happen while a machine runs.
-/

namespace OS01.Driver

open Lib
open Function (update)

/-- A display view, which is only compared. -/
abbrev View : Type := Nat

/-- A file of the route. -/
abbrev RouteFile : Type := Nat

/-- The devices. -/
inductive InputDevice
  | keyboard | mouse
  deriving DecidableEq, Repr

/-- `struct route_endpoint`. -/
structure RouteEndpoint where
  device : InputDevice
  generation : Nat
  error : Int
  revoked : Bool

/-- `mouse_event_t`. -/
structure MouseEvent where
  buttons : UInt8
  wheel : Int8
  dx : Int16
  dy : Int16

/-! Bytes in the keyboard queue, events in the mouse queue, and codes of keys. -/

def ROUTE_KBD_QUEUE_USABLE : Nat := 255
def ROUTE_MOUSE_QUEUE_SLOTS : Nat := 64
def ROUTE_KEY_SLOTS : Nat := 512

def KBD_SHIFT_L : Nat := 0x2A
def KBD_SHIFT_R : Nat := 0x36
def KBD_CTRL_L : Nat := 0x1D
def KBD_CTRL_R : Nat := PS2_KEY_E0 ||| 0x1D
def KBD_ALT_L : Nat := 0x38
def KBD_ALT_R : Nat := PS2_KEY_E0 ||| 0x38
def KBD_CAPS : Nat := 0x3A

/-- The modifier bits. -/
structure Modifiers where
  (shift ctrl alt caps : Bool)
  deriving DecidableEq, Repr

/-- The route state. The keyboard queue is a ring with one cell reserved, so that `kbd_count` is the number
of its filled cells; the mouse queue is a list of at most 64 events. -/
structure Route where
  leaseActive : Bool
  view : Option View
  generation : Nat
  nextGeneration : Nat
  epoch : Nat
  kbdEp : Option RouteFile
  mouseEp : Option RouteFile
  physDown : Nat → Bool
  isolated : Nat → Bool
  capsOn : Bool
  logicalDown : Nat → Bool
  framer : FrameState
  frame : Frame
  kbdQueue : Ring UInt8 256
  kbdOverflow : Bool
  kbdDesync : Bool
  mouseQueue : List MouseEvent
  mouseOverflow : Bool
  mouseButtons : UInt8
  mouseIsolated : UInt8
  files : RouteFile → Option RouteEndpoint

namespace Route

/-- The modifiers among the keys that are down. -/
def modifiersOf (down : Nat → Bool) (capsOn : Bool) : Modifiers where
  shift := down KBD_SHIFT_L || down KBD_SHIFT_R
  ctrl := down KBD_CTRL_L || down KBD_CTRL_R
  alt := down KBD_ALT_L || down KBD_ALT_R
  caps := capsOn

variable (r : Route)

/-- `route_physical_modifiers_locked`. -/
def physicalModifiers : Modifiers := modifiersOf r.physDown r.capsOn

/-- `route_logical_snapshot_locked`. -/
def logicalSnapshot : Modifiers := modifiersOf r.logicalDown r.capsOn

/-- `route_endpoint_is_owner_locked`. -/
def endpointIsOwner (f : RouteFile) : Bool :=
  r.leaseActive && (r.kbdEp == some f || r.mouseEp == some f)

/-- `route_device_is_leased_locked`. -/
def deviceIsLeased (ep : RouteEndpoint) : Bool :=
  r.leaseActive && (if ep.device = .keyboard then r.kbdEp.isSome else r.mouseEp.isSome)

/-! ## The ACTIVE queues -/

/-- `route_kbd_queue_reset_locked`. -/
def kbdQueueReset : Route :=
  { r with kbdQueue := ⟨r.kbdQueue.buf, 0, 0, by decide, by decide⟩, kbdOverflow := false }

/-- `route_mouse_queue_reset_locked`. -/
def mouseQueueReset : Route := { r with mouseQueue := [], mouseOverflow := false }

/-- `route_kbd_push_locked`. -/
def kbdPush (bytes : List UInt8) : Route :=
  if bytes.length = 0 then r
  else if ROUTE_KBD_QUEUE_USABLE < r.kbdQueue.avail + bytes.length then { r with kbdOverflow := true }
  else { r with kbdQueue := bytes.foldl Ring.push r.kbdQueue }

/-- `route_mouse_push_locked`. -/
def mousePush (event : MouseEvent) : Route :=
  if ROUTE_MOUSE_QUEUE_SLOTS ≤ r.mouseQueue.length then { r with mouseOverflow := true }
  else { r with mouseQueue := r.mouseQueue ++ [event] }

/-- What a read gives: bytes or events of the ACTIVE queues, what the NORMAL path of a device has, or an
error. -/
inductive ReadResult
  | keys (bytes : List UInt8)
  | events (es : List MouseEvent)
  | normal (device : InputDevice)
  | error (e : Int)

/-- `route_active_read_locked`; the size of a mouse event is 8 bytes. -/
def activeRead (ep : RouteEndpoint) (size : Nat) : ReadResult × Route :=
  match ep.device with
  | .keyboard =>
    if r.kbdDesync then (.error (- EOVERFLOW), r)
    else if r.kbdOverflow then (.error (- EOVERFLOW), r)
    else if r.kbdQueue.avail = 0 then (.error (- EAGAIN), r)
    else
      let n := if size < r.kbdQueue.avail then size else r.kbdQueue.avail
      (.keys ((List.range n).map fun i => r.kbdQueue.buf ((r.kbdQueue.tail + i) % 256)),
        { r with kbdQueue := r.kbdQueue.drop n })
  | .mouse =>
    if r.mouseOverflow then (.error (- EOVERFLOW), r)
    else if r.mouseQueue.length = 0 then (.error (- EAGAIN), r)
    else if size < 8 then (.error (- EINVAL), r)
    else
      let n := min (size / 8) r.mouseQueue.length
      (.events (r.mouseQueue.take n), { r with mouseQueue := r.mouseQueue.drop n })

/-! ## The lease -/

/-- An endpoint of a lease that ends. -/
def revokeEndpoint (generation : Nat) (reason : Int) (ep : RouteEndpoint) : RouteEndpoint :=
  if reason ≠ 0 then { ep with generation, revoked := true, error := reason } else { ep with generation }

/-- The endpoint of a file is changed, where the file has one. -/
def updateEndpoint (files : RouteFile → Option RouteEndpoint) (f : Option RouteFile)
    (change : RouteEndpoint → RouteEndpoint) : RouteFile → Option RouteEndpoint :=
  match f with
  | none => files
  | some f => update files f ((files f).map change)

/-- `route_revoke_locked`. -/
def revoke (reason : Int) : Route :=
  if ¬ r.leaseActive then r
  else
    let change := revokeEndpoint r.generation reason
    let ended : Route :=
      { r with
        files := updateEndpoint (updateEndpoint r.files r.kbdEp change) r.mouseEp change
        isolated := fun key => r.isolated key || (decide (key < ROUTE_KEY_SLOTS) && r.physDown key)
        mouseIsolated := if r.mouseEp.isSome then r.mouseIsolated ||| r.mouseButtons else r.mouseIsolated
        leaseActive := false
        view := none
        kbdEp := none
        mouseEp := none
        logicalDown := fun _ => false
        epoch := r.epoch + 1 }
    ended.kbdQueueReset.mouseQueueReset

/-- `input_route_open`, where `f` is the new file. -/
def openFile (device : InputDevice) (f : RouteFile) : Route :=
  { r with files := update r.files f (some ⟨device, 0, 0, false⟩) }

/-- `input_route_release_file`. -/
def releaseFile (f : RouteFile) : Route :=
  match r.files f with
  | none => r
  | some _ =>
    let r₁ := if r.leaseActive && (r.kbdEp == some f || r.mouseEp == some f) then r.revoke 0 else r
    { r₁ with
      kbdEp := if r₁.kbdEp = some f then none else r₁.kbdEp
      mouseEp := if r₁.mouseEp = some f then none else r₁.mouseEp
      files := update r₁.files f none }

/-- A file that can be leased as `device`. -/
def leasable (device : InputDevice) (f : RouteFile) : Bool :=
  match r.files f with
  | none => false
  | some ep => decide (ep.device = device) && !ep.revoked

/-- An endpoint of a lease that starts. -/
def joinEndpoint (generation : Nat) (ep : RouteEndpoint) : RouteEndpoint :=
  { ep with generation, error := 0, revoked := false }

/-- A new bind replaces the live lease. -/
def replaced : Route := if r.leaseActive then r.revoke ESTALE else r

/-- `input_route_bind`: the generation of the lease and the modifiers held, or an error. -/
def bind (view : Option View) (kbd mouse : Option RouteFile) :
    Except Int (Nat × Modifiers) × Route :=
  match view, kbd with
  | some view, some kbd =>
    if ¬ r.leasable .keyboard kbd then (.error (- EINVAL), r)
    else if ¬ mouse.all (r.leasable .mouse) then (.error (- EINVAL), r)
    else
      let r₁ := r.replaced
      let generation := r₁.nextGeneration + 1
      let join := joinEndpoint generation
      let r₂ : Route :=
        { r₁ with
          leaseActive := true
          view := some view
          generation
          nextGeneration := generation
          epoch := r₁.epoch + 1
          kbdEp := some kbd
          mouseEp := mouse
          files := updateEndpoint (updateEndpoint r₁.files (some kbd) join) mouse join
          isolated := fun key => r₁.isolated key || (decide (key < ROUTE_KEY_SLOTS) && r₁.physDown key)
          kbdDesync := false
          mouseIsolated := if mouse.isSome then r₁.mouseButtons else r₁.mouseIsolated
          logicalDown := fun _ => false }
      (.ok (generation, r₁.physicalModifiers), r₂)
  | _, _ => (.error (- EINVAL), r)

/-- `input_route_lease_live`. -/
def leaseLive : Bool := r.leaseActive

/-- `input_route_unbind`. -/
def unbind (view : Option View) (generation : Nat) (reason : Int) : Route :=
  if view = none then r
  else if ¬ r.leaseActive then r
  else if r.view ≠ view then r
  else if generation ≠ 0 ∧ generation ≠ r.generation then r
  else r.revoke reason

/-- `input_route_read`. -/
def read (f : RouteFile) (size : Nat) : ReadResult × Route :=
  match r.files f with
  | none => (.error (- EINVAL), r)
  | some ep =>
    if ep.revoked ∧ ep.error ≠ 0 then (.error (- ep.error), r)
    else if r.deviceIsLeased ep ∧ ¬ r.endpointIsOwner f then (.error (- EBUSY), r)
    else if r.endpointIsOwner f then r.activeRead ep size
    else (.normal ep.device, r)

/-! ## The producer -/

/-- Step 1 of `route_publish_frame_locked`: the physical state. -/
def trackKey (frame : Frame) : Route :=
  let key := frame.physicalKey
  if ¬ frame.isSpecial ∧ key < ROUTE_KEY_SLOTS then
    if frame.isMake then
      if ¬ r.physDown key then
        { r with
          physDown := update r.physDown key true
          capsOn := if key = KBD_CAPS then !r.capsOn else r.capsOn }
      else r
    else { r with physDown := update r.physDown key false }
  else r

/-- `route_publish_frame_locked`: what is published to the NORMAL path, and the route. -/
def publishFrame (frame : Frame) : Option (Frame × Modifiers) × Route :=
  let key := frame.physicalKey
  let ordinary := !frame.isSpecial && decide (key < ROUTE_KEY_SLOTS)
  let r₁ := r.trackKey frame
  if frame.startEpoch ≠ r₁.epoch then
    (none,
      { r₁ with
        kbdDesync := if r₁.leaseActive then true else r₁.kbdDesync
        isolated := if ordinary then update r₁.isolated key frame.isMake else r₁.isolated })
  else if ordinary && r₁.isolated key then
    (none, if ¬ frame.isMake then { r₁ with isolated := update r₁.isolated key false } else r₁)
  else
    let r₂ : Route :=
      if ordinary then { r₁ with logicalDown := update r₁.logicalDown key frame.isMake } else r₁
    if r₂.leaseActive then (none, r₂.kbdPush frame.payload)
    else (some (frame, r₂.logicalSnapshot), r₂)

/-- `input_route_keyboard_byte`. -/
def keyboardByte (byte : UInt8) : Option (Frame × Modifiers) × Route :=
  match frameFeed r.framer byte r.epoch r.frame with
  | (rc, framer, frame) =>
    let r₁ := { r with framer, frame }
    if rc = .complete then r₁.publishFrame frame else (none, r₁)

/-- `input_route_mouse_event`: what is published to the NORMAL path, and the route. -/
def mouseEvent (event : MouseEvent) : Option MouseEvent × Route :=
  let out : MouseEvent :=
    if r.mouseIsolated ≠ 0 then { event with buttons := event.buttons &&& ~~~r.mouseIsolated } else event
  let r₁ : Route :=
    { r with
      mouseIsolated := if r.mouseIsolated ≠ 0 then r.mouseIsolated &&& event.buttons else r.mouseIsolated
      mouseButtons := event.buttons }
  if r₁.leaseActive && r₁.mouseEp.isSome then (none, r₁.mousePush out) else (some out, r₁)

end Route

/-- `input_route_init`, before any file is open. -/
def routeInit : Route where
  leaseActive := false
  view := none
  generation := 0
  nextGeneration := 0
  epoch := 1
  kbdEp := none
  mouseEp := none
  physDown := fun _ => false
  isolated := fun _ => false
  capsOn := false
  logicalDown := fun _ => false
  framer := frameReset ⟨.idle, 0, 0, 0⟩
  frame := ⟨fun _ => 0, 0, 0, false, false, 0, 0⟩
  kbdQueue := ⟨fun _ => 0, 0, 0, by decide, by decide⟩
  kbdOverflow := false
  kbdDesync := false
  mouseQueue := []
  mouseOverflow := false
  mouseButtons := 0
  mouseIsolated := 0
  files := fun _ => none

end OS01.Driver
