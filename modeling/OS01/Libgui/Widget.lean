import OS01.Lib.Count
import OS01.Lib.Run

/-!
# Widget handles

`libgui/src/widget.c`: the registry of the widgets of a platform. A handle is an identifier, taken from a counter of the
process; a slot of the registry says which native object belongs to it. Deleting a native object deletes everything below
it, and the back end tells the registry about each object by a callback (`gui_widget_on_native_delete`). The back end is
LVGL, which is not among the sources: it is a parameter (`Lvgl`), with what the registry relies on (`Lvgl.Documented`).

The calls are followed with everything that may go wrong in them; the history of the successful calls says what the
handles should mean (`HandleValid`).
-/

namespace OS01.Libgui

open Function Lib List

/-- `GUI_WIDGET_REGISTRY_CAPACITY`. No proof depends on the number. -/
@[irreducible] def GUI_WIDGET_REGISTRY_CAPACITY : Nat := 1024

/-- `gui_widget_slot_state_t`. -/
inductive SlotState
  | free | reserved | live | destroying
deriving DecidableEq, Repr

/-- `gui_widget_kind_t`. -/
inductive WidgetKind
  | container | label | button
deriving DecidableEq, Repr

/-- The values of `errno`. -/
inductive WidgetError
  | EINVAL | EBUSY | ENOSPC | EOVERFLOW | ENOMEM | EOPNOTSUPP
deriving DecidableEq, Repr

/-- `gui_widget_slot_t`, without the caches for layout and appearance. -/
structure WidgetSlot where
  state : SlotState
  id : Nat
  /-- The native object; 0 is `NULL`. -/
  obj : Nat
  parentId : Nat
  kind : WidgetKind
  pendingFree : Bool
deriving DecidableEq, Repr

/-- What `slot_reset` leaves. -/
def WidgetSlot.reset : WidgetSlot := ⟨.free, 0, 0, 0, .container, false⟩

/-- Store `slot->state`. -/
def WidgetSlot.setState (slot : WidgetSlot) (state : SlotState) : WidgetSlot := { slot with state }

/-- Store `slot->pending_free`. -/
def WidgetSlot.setPending (slot : WidgetSlot) : WidgetSlot := { slot with pendingFree := true }

/-- `gui_widget_registry_t`. -/
structure WidgetRegistry where
  slots : Nat → WidgetSlot
  (count peak cursor deleteDepth : Nat)

/-- A native object: what it hangs under, and the slot whose observer it carries. -/
structure Native where
  parent : Nat
  observer : Option Nat
deriving DecidableEq, Repr

/-- An object is another one or hangs below it. -/
def Below (natives : Nat → Option Native) : Nat → Nat → Prop :=
  Relation.ReflTransGen fun a b => ∃ n, natives b = some n ∧ n.parent = a

/-- The back end: its state, the objects that there are in it, and the calls that the registry makes. -/
structure Lvgl where
  Objects : Type
  /-- Before any call. -/
  start : Objects
  /-- The objects that were created and not deleted. None is numbered 0, which is the active screen as a parent. -/
  natives : Objects → Nat → Option Native
  /-- `lv_obj_create`, `lv_label_create` and `lv_button_create`, below another object. -/
  create : Objects → WidgetKind → Nat → Objects × Nat
  /-- `lv_obj_add_event_cb` with the observer of a slot. -/
  addEventCb : Objects → Nat → Nat → Objects
  /-- `lv_obj_delete`, with the slots whose observers it calls, in turn. -/
  delete : Objects → Nat → Objects × List Nat

/-- What the registry relies on. The numbers of deleted objects may be used again, and the order of the callbacks is not
known. -/
structure Lvgl.Documented (lv : Lvgl) : Prop where
  start : ∀ o, lv.natives lv.start o = none
  /-- A created object is new. -/
  new : ∀ x kind parent, (lv.create x kind parent).2 ≠ 0 ∧ lv.natives x (lv.create x kind parent).2 = none
  create : ∀ x kind parent, lv.natives (lv.create x kind parent).1 =
    update (lv.natives x) (lv.create x kind parent).2 (some ⟨parent, none⟩)
  addEventCb : ∀ x obj n index, lv.natives x obj = some n →
    lv.natives (lv.addEventCb x obj index) = update (lv.natives x) obj (some ⟨n.parent, some index⟩)
  /-- The whole subtree goes, and nothing else. -/
  delete : ∀ x obj, (lv.natives x obj).isSome → ∀ o, (Below (lv.natives x) obj o → lv.natives (lv.delete x obj).1 o = none) ∧
    (¬Below (lv.natives x) obj o → lv.natives (lv.delete x obj).1 o = lv.natives x o)
  /-- Each delete callback of the subtree runs once. -/
  called : ∀ x obj, (lv.natives x obj).isSome → ∃ objs : List Nat, objs.Nodup ∧
    (∀ o, o ∈ objs ↔ (lv.natives x o).isSome ∧ Below (lv.natives x) obj o) ∧
    (lv.delete x obj).2 = objs.filterMap fun o => (lv.natives x o).bind Native.observer

/-- A platform, with its back end and the counter of the process. -/
structure GuiPlatform (lv : Lvgl) where
  reg : WidgetRegistry
  objects : lv.Objects
  /-- `g_widget_last_id`. -/
  lastId : Nat
  (statWidgetsCreated statWidgetsDestroyed statWidgetsLive : Nat)

variable {lv : Lvgl}

/-! ## The registry -/

namespace WidgetRegistry

variable (reg : WidgetRegistry)

/-- Store a slot. -/
def setSlot (i : Nat) (slot : WidgetSlot) : WidgetRegistry :=
  { reg with slots := update reg.slots i slot }

/-- `registry_find`. -/
def find (reg : WidgetRegistry) (id : Nat) : Option Nat :=
  if id = 0 then none
  else (range GUI_WIDGET_REGISTRY_CAPACITY).find? fun i => (reg.slots i).state ≠ .free ∧ (reg.slots i).id = id

/-- `slot_release`. -/
def release (i : Nat) : WidgetRegistry :=
  if (reg.slots i).state = .free then reg
  else { reg.setSlot i .reset with cursor := i, count := if 0 < reg.count then reg.count - 1 else reg.count }

/-- `registry_reap`. -/
def reap : WidgetRegistry :=
  if 0 < reg.deleteDepth then reg
  else
    (range GUI_WIDGET_REGISTRY_CAPACITY).foldl
      (fun reg i => if (reg.slots i).state = .destroying ∧ (reg.slots i).pendingFree then reg.release i else reg) reg

/-- `registry_reserve`. -/
def reserve : Option (WidgetRegistry × Nat) :=
  match (range GUI_WIDGET_REGISTRY_CAPACITY).find? fun k =>
      (reg.slots ((reg.cursor + k) % GUI_WIDGET_REGISTRY_CAPACITY)).state = .free with
  | none => none
  | some k =>
    let index := (reg.cursor + k) % GUI_WIDGET_REGISTRY_CAPACITY
    let count := reg.count + 1
    some ({ reg.setSlot index (WidgetSlot.reset.setState .reserved) with
      cursor := (index + 1) % GUI_WIDGET_REGISTRY_CAPACITY, count,
      peak := if reg.peak < count then count else reg.peak }, index)

/-- `widget_mark_subtree`; `none` is a recursion that does not end. -/
def markSubtree : Nat → WidgetRegistry → Nat → Option WidgetRegistry
  | 0, _, _ => none
  | depth + 1, reg, index =>
    if (reg.slots index).state ≠ .live then some reg
    else
      let id := (reg.slots index).id
      (range GUI_WIDGET_REGISTRY_CAPACITY).foldlM
        (fun reg i =>
          if (reg.slots i).state = .live ∧ (reg.slots i).parentId = id then markSubtree depth reg i else some reg)
        (reg.setSlot index ((reg.slots index).setState .destroying))

end WidgetRegistry

/-! ## The back end -/

namespace GuiPlatform

variable (p : GuiPlatform lv)

/-- The objects of the platform. -/
def natives : Nat → Option Native := lv.natives p.objects

/-- `gui_widget_on_native_delete`, for the slot that its user data names. -/
def onNativeDelete (index : Nat) : GuiPlatform lv :=
  let slot := p.reg.slots index
  if GUI_WIDGET_REGISTRY_CAPACITY ≤ index then p
  else if slot.state = .free then p
  else
    -- a slot that was never published counts for nothing
    let counted := slot.pendingFree = false ∧ slot.id ≠ 0
    { p with
      reg := p.reg.setSlot index (slot.setPending.setState .destroying)
      statWidgetsDestroyed := if counted then p.statWidgetsDestroyed + 1 else p.statWidgetsDestroyed
      statWidgetsLive :=
        if counted ∧ 0 < p.statWidgetsLive then p.statWidgetsLive - 1 else p.statWidgetsLive }

/-- A call of `lv_obj_delete`, with the callbacks that run before it returns. -/
def lvObjDelete (obj : Nat) : GuiPlatform lv :=
  (lv.delete p.objects obj).2.foldl onNativeDelete { p with objects := (lv.delete p.objects obj).1 }

/-! ## The calls -/

/-- `gui_widget_is_valid`. -/
def isValid (w : Nat) : Bool :=
  match p.reg.find w with
  | none => false
  | some i => (p.reg.slots i).state = .live

/-- The slot of a handle that a call may use. -/
def liveSlot (w : Nat) : Option Nat :=
  match p.reg.find w with
  | none => none
  | some i => if (p.reg.slots i).state = .live then some i else none

/-- `widget_destroy_subtree`. -/
def destroySubtree (root : Nat) : Option (GuiPlatform lv) :=
  match p.reg.markSubtree (GUI_WIDGET_REGISTRY_CAPACITY + 1) root with
  | none => none
  | some reg =>
    let p := { p with reg }
    let obj := (reg.slots root).obj
    if obj ≠ 0 then
      let p := lvObjDelete { p with reg := { p.reg with deleteDepth := p.reg.deleteDepth + 1 } } obj
      let reg := { p.reg with deleteDepth := p.reg.deleteDepth - 1 }
      some { p with reg := reg.reap }
    else
      -- no object, so no callback will come
      let reg := (range GUI_WIDGET_REGISTRY_CAPACITY).foldl
        (fun reg i =>
          if (reg.slots i).state = .destroying then reg.setSlot i (reg.slots i).setPending else reg)
        p.reg
      some { p with reg := reg.reap }

/-- What the back end does in one call of `gui_widget_create`, and whether the call comes from a callback of the
application (`callback_depth`). -/
structure CreateEnv where
  (busy screen native observer bridge : Bool)
deriving DecidableEq, Repr

/-- The object that a new widget hangs under: that of its parent, or the active screen. -/
def parentObject (parentSlot : Option Nat) (screen : Bool) : Option Nat :=
  match parentSlot with
  | some i => if (p.reg.slots i).obj = 0 then none else some (p.reg.slots i).obj
  | none => if screen then some 0 else none

/-- The handle of the parent, 0 for a root. -/
def parentId (parentSlot : Option Nat) : Nat :=
  match parentSlot with
  | some i => (p.reg.slots i).id
  | none => 0

/-- The end of `gui_widget_create`, from the slot that was reserved. -/
def createIn (parentSlot : Option Nat) (kind : WidgetKind) (index : Nat) (env : CreateEnv) :
    GuiPlatform lv × Except WidgetError Nat :=
  let fail (p : GuiPlatform lv) (e : WidgetError) : GuiPlatform lv × Except WidgetError Nat :=
    ({ p with reg := p.reg.release index }, .error e)
  if p.lastId = 2 ^ 64 - 1 then fail p .EOVERFLOW
  else
    let id := p.lastId + 1
    let p := { p with lastId := id }
    match p.parentObject parentSlot env.screen with
    | none => fail p .ENOMEM
    | some parent =>
      if !env.native then fail p .ENOMEM
      else
        let (objects, obj) := lv.create p.objects kind parent
        let p := { p with objects }
        if !env.observer then fail (p.lvObjDelete obj) .ENOMEM
        else
          let p := { p with objects := lv.addEventCb p.objects obj index }
          if !env.bridge then fail (p.lvObjDelete obj) .ENOMEM
          else
            let slot := { p.reg.slots index with
              state := .live, id, obj, parentId := p.parentId parentSlot, kind }
            ({ p with
              reg := p.reg.setSlot index slot
              statWidgetsCreated := p.statWidgetsCreated + 1
              statWidgetsLive := p.statWidgetsLive + 1 }, .ok id)

/-- The slot of the parent: it must be able to have children; only a container may be a root. -/
def parentSlot (parent : Nat) (kind : WidgetKind) : Except WidgetError (Option Nat) :=
  if parent ≠ 0 then
    match p.liveSlot parent with
    | none => .error .EINVAL
    | some i =>
      if (p.reg.slots i).kind ≠ .container ∧ (p.reg.slots i).kind ≠ .button then .error .EINVAL else .ok (some i)
  else if kind ≠ .container then .error .EINVAL
  else .ok none

/-- `gui_widget_create`, after it has reaped. -/
def createReaped (parent : Nat) (kind : WidgetKind) (env : CreateEnv) :
    GuiPlatform lv × Except WidgetError Nat :=
  match p.parentSlot parent kind with
  | .error e => (p, .error e)
  | .ok parentSlot =>
    match p.reg.reserve with
    | none => (p, .error .ENOSPC)
    | some (reg, index) => createIn { p with reg } parentSlot kind index env

/-- `gui_widget_create`; a kind outside the enumeration is `none`. -/
def create (parent : Nat) (kind : Option WidgetKind) (env : CreateEnv) :
    GuiPlatform lv × Except WidgetError Nat :=
  match kind with
  | none => (p, .error .EINVAL)
  | some kind =>
    if env.busy then (p, .error .EBUSY) else createReaped { p with reg := p.reg.reap } parent kind env

/-- `gui_widget_destroy`. -/
def destroy (w : Nat) (busy : Bool) : Option (GuiPlatform lv × Except WidgetError Unit) :=
  if busy then some (p, .error .EBUSY)
  else
    match p.liveSlot w with
    | none => some (p, .error .EINVAL)
    | some i => (p.destroySubtree i).map fun p => (p, .ok ())

/-- The loop of `gui_widget_clear`. -/
def clearLoop (w : Nat) : Option (GuiPlatform lv) :=
  (range GUI_WIDGET_REGISTRY_CAPACITY).foldlM
    (fun p i => if (p.reg.slots i).state = .live ∧ (p.reg.slots i).parentId = w then p.destroySubtree i else some p) p

/-- `gui_widget_clear`. -/
def clear (w : Nat) (busy : Bool) : Option (GuiPlatform lv × Except WidgetError Unit) :=
  if busy then some (p, .error .EBUSY)
  else
    match p.liveSlot w with
    | none => some (p, .error .EINVAL)
    | some i =>
      if (p.reg.slots i).kind ≠ .container then some (p, .error .EOPNOTSUPP)
      else (p.clearLoop w).map fun p => (p, .ok ())

/-- A platform that starts; other platforms of the process may have taken identifiers before. -/
def init (lastId : Nat) : GuiPlatform lv := ⟨⟨fun _ => .reset, 0, 0, 0, 0⟩, lv.start, lastId, 0, 0, 0⟩

end GuiPlatform

/-! ## Histories -/

/-- A call that succeeded. -/
inductive WidgetOp
  | created (w parent : Nat)
  | destroyed (w : Nat)
  | cleared (w : Nat)
deriving DecidableEq, Repr

/-- The identifiers that were returned. -/
def createdIds (log : List WidgetOp) : List Nat :=
  log.filterMap fun op =>
    match op with
    | .created w _ => some w
    | _ => none

/-- `a` is `w` or an ancestor of it. -/
def Ancestor (log : List WidgetOp) (a w : Nat) : Prop :=
  Relation.ReflTransGen (fun p c => WidgetOp.created c p ∈ log) a w

/-- What a handle should mean, by the history (the last call first): it was returned, and since then neither it nor an
ancestor was destroyed, nor a proper ancestor cleared. -/
def HandleValid (log : List WidgetOp) (w : Nat) : Prop :=
  ∃ since before p, log = since ++ .created w p :: before ∧
    (∀ a, WidgetOp.destroyed a ∈ since → ¬Ancestor log a w) ∧
    ∀ a, WidgetOp.cleared a ∈ since → a ≠ w → ¬Ancestor log a w

/-- A platform with the history of its widgets. -/
structure GuiSystem (lv : Lvgl) where
  platform : GuiPlatform lv
  log : List WidgetOp

/-- A call on the platform; another platform of the process may take an identifier. -/
inductive WidgetCall
  | create (parent : Nat) (kind : Option WidgetKind) (env : GuiPlatform.CreateEnv)
  | destroy (w : Nat) (busy : Bool)
  | clear (w : Nat) (busy : Bool)
  | elsewhere
deriving DecidableEq, Repr

namespace GuiSystem

/-- A call, which is recorded if it succeeds. -/
def next (s : GuiSystem lv) : WidgetCall → Option (GuiSystem lv)
  | .create parent kind env =>
    match s.platform.create parent kind env with
    | (p, .ok w) => some ⟨p, .created w parent :: s.log⟩
    | (p, .error _) => some ⟨p, s.log⟩
  | .destroy w busy =>
    (s.platform.destroy w busy).map fun
      | (p, .ok ()) => ⟨p, .destroyed w :: s.log⟩
      | (p, .error _) => ⟨p, s.log⟩
  | .clear w busy =>
    (s.platform.clear w busy).map fun
      | (p, .ok ()) => ⟨p, .cleared w :: s.log⟩
      | (p, .error _) => ⟨p, s.log⟩
  | .elsewhere =>
    some { s with platform := { s.platform with
      lastId := if s.platform.lastId = 2 ^ 64 - 1 then s.platform.lastId else s.platform.lastId + 1 } }

/-- A step of the system. -/
def Step (s : GuiSystem lv) (c : WidgetCall) (t : GuiSystem lv) : Prop := s.next c = some t

/-- The property of the handles. -/
structure WidgetsOk (s : GuiSystem lv) : Prop where
  new : (createdIds s.log).Nodup ∧ 0 ∉ createdIds s.log
  valid : ∀ w, s.platform.isValid w = true ↔ HandleValid s.log w
  count : s.platform.reg.count =
    countOn (Finset.range GUI_WIDGET_REGISTRY_CAPACITY) (fun slot => slot.state ≠ .free) s.platform.reg.slots
  live : ∃ handles : Finset Nat, (∀ w, w ∈ handles ↔ s.platform.isValid w = true) ∧
    s.platform.statWidgetsLive = handles.card
  full : ∀ parent kind env p, s.platform.create parent kind env = (p, .error .ENOSPC) →
    ∀ i < GUI_WIDGET_REGISTRY_CAPACITY,
      (s.platform.reg.slots i).state = .live ∧ s.platform.isValid (s.platform.reg.slots i).id = true

end GuiSystem

end OS01.Libgui
