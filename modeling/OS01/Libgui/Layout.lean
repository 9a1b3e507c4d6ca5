import OS01.Libgui.WidgetRuns

/-!
# Sizes of widgets

`libgui/src/layout.c`: on each axis a widget takes its size from a number of pixels, from its content or from its parent.
`gui_widget_set_geometry` looks at the parent and the children only; that no chain of sizes closes follows from the rank
of the widgets that it keeps (`LayoutSystem.rank`).
-/

namespace OS01.Libgui

open Function Lib WidgetRegistry GuiPlatform

/-- `gui_size_mode_t`. -/
inductive SizeMode
  | px | content | fill
deriving DecidableEq, Repr

/-- The fields of `gui_widget_slot_t` that say where a widget takes its size from. -/
structure SlotSizes where
  modeW : SizeMode
  modeH : SizeMode
  valueW : Int
  valueH : Int
  absolutePos : Bool
deriving DecidableEq, Repr

/-- What `slot_reset` leaves. -/
def SlotSizes.reset : SlotSizes := ⟨.content, .content, 0, 0, false⟩

/-- The mode on an axis. -/
def SlotSizes.mode (sizes : SlotSizes) (widthAxis : Bool) : SizeMode := if widthAxis then sizes.modeW else sizes.modeH

/-- `gui_size_t`; a mode outside the enumeration is `none`. -/
structure GuiSize where
  mode : Option SizeMode
  value : Int
deriving DecidableEq, Repr

/-- `gui_geometry_t`, without the position, which goes to the back end only. -/
structure Geometry where
  width : GuiSize
  height : GuiSize
deriving DecidableEq, Repr

/-- `px_value_expressible`. -/
def pxValueExpressible (value : Int) : Bool := 0 ≤ value ∧ value ≤ 0x1FFFFFFF

/-- A platform with the sizes in its slots. -/
structure LayoutSystem (lv : Lvgl) where
  gui : GuiSystem lv
  sizes : Nat → SlotSizes
  width : BitVec 32
  height : BitVec 32

/-- A call on the platform; a geometry that is `NULL` is `none`. -/
inductive LayoutCall
  | registry (c : WidgetCall)
  | setGeometry (w : Nat) (geometry : Option Geometry)
deriving DecidableEq, Repr

variable {lv : Lvgl}

namespace LayoutSystem

variable (s : LayoutSystem lv)

/-- The slot of a widget. -/
abbrev slot (i : Nat) : WidgetSlot := s.gui.platform.reg.slots i

/-- A slot holds a widget. -/
abbrev LiveAt (i : Nat) : Prop := s.gui.platform.LiveAt i

/-- `parent_is_content`. -/
def parentIsContent (i : Nat) (widthAxis : Bool) : Bool :=
  let parentId := (s.slot i).parentId
  if parentId = 0 then false
  else
    match s.gui.platform.reg.find parentId with
    | none => false
    | some parent => (s.sizes parent).mode widthAxis = .content

/-- `has_filling_child`. -/
def hasFillingChild (i : Nat) (widthAxis : Bool) : Bool :=
  (List.range GUI_WIDGET_REGISTRY_CAPACITY).any fun child =>
    (s.slot child).state = .live ∧ (s.slot child).parentId = (s.slot i).id ∧ (s.sizes child).mode widthAxis = .fill

/-- `would_create_size_cycle`. -/
def wouldCreateSizeCycle (i : Nat) (modeW modeH : SizeMode) : Bool :=
  if modeW = .fill ∧ s.parentIsContent i true then true
  else if modeH = .fill ∧ s.parentIsContent i false then true
  else if modeW = .content ∧ s.hasFillingChild i true then true
  else if modeH = .content ∧ s.hasFillingChild i false then true
  else false

/-- `gui_widget_set_geometry`. -/
def setGeometry (w : Nat) (geometry : Option Geometry) : LayoutSystem lv × Except WidgetError Unit :=
  match geometry, s.gui.platform.liveSlot w with
  | some ⟨⟨some modeW, valueW⟩, ⟨some modeH, valueH⟩⟩, some i =>
    if modeW = .px ∧ !pxValueExpressible valueW then (s, .error .EINVAL)
    else if modeH = .px ∧ !pxValueExpressible valueH then (s, .error .EINVAL)
    else if s.wouldCreateSizeCycle i modeW modeH then (s, .error .EINVAL)
    else ({ s with sizes := update s.sizes i ⟨modeW, modeH, valueW, valueH, true⟩ }, .ok ())
  | _, _ => (s, .error .EINVAL)

/-- The sizes that `gui_widget_create` publishes: a root covers the screen. -/
def published (slot : WidgetSlot) : SlotSizes :=
  if slot.parentId = 0 then ⟨.px, .px, s.width.toInt, s.height.toInt, false⟩ else .reset

/-- The sizes in a slot after a call on the registry: only `slot_reset` and the publication of a widget set them. -/
def resized (gui : GuiSystem lv) (i : Nat) : SlotSizes :=
  let slot := gui.platform.reg.slots i
  if slot.state = .free then .reset
  else if s.gui.platform.lastId < slot.id then s.published slot
  else s.sizes i

/-- A call. -/
def next : LayoutCall → Option (LayoutSystem lv)
  | .registry c => (s.gui.next c).map fun gui => { s with gui, sizes := s.resized gui }
  | .setGeometry w geometry => some (s.setGeometry w geometry).1

/-- A step of the system. -/
def Step (s : LayoutSystem lv) (c : LayoutCall) (t : LayoutSystem lv) : Prop := s.next c = some t

/-- A platform that starts. -/
def init (lastId : Nat) (width height : BitVec 32) : LayoutSystem lv :=
  ⟨⟨.init lastId, []⟩, fun _ => .reset, width, height⟩

/-- The size of the widget in slot `i` is computed from that of the widget in slot `j`. -/
def Depends (widthAxis : Bool) (i j : Nat) : Prop :=
  s.LiveAt i ∧ s.LiveAt j ∧
    ((s.sizes i).mode widthAxis = .content ∧ (s.slot j).parentId = (s.slot i).id ∨
      (s.sizes i).mode widthAxis = .fill ∧ (s.slot i).parentId = (s.slot j).id)

/-- The widgets are in order, and none fills a parent that takes its size from its content. -/
structure Ok : Prop where
  sound : s.gui.Sound
  apart : ∀ widthAxis i j, s.LiveAt i → s.LiveAt j → (s.slot j).parentId = (s.slot i).id →
    (s.sizes i).mode widthAxis = .content → (s.sizes j).mode widthAxis ≠ .fill

/-- Filling widgets stand above all others, and the deeper the higher; among the others the root is the highest. -/
def rank (widthAxis : Bool) (i : Nat) : Int :=
  if (s.sizes i).mode widthAxis = .fill then (s.slot i).id + 1 else -(s.slot i).id

end LayoutSystem

/-! ## Identifiers -/

namespace GuiSystem.Sound

variable {s : GuiSystem lv} {i : Nat} (hs : s.Sound) (hi : s.platform.LiveAt i)
include hs hi

lemma parentId_lt : (s.platform.reg.slots i).parentId < (s.platform.reg.slots i).id :=
  hs.shaped.parents _ _ (hs.shaped.slot i hi).2

/-- A widget is found by its identifier. -/
lemma find_id : s.platform.reg.find (s.platform.reg.slots i).id = some i := by
  have hv := hs.shaped.isValid_iff.2 ⟨i, hi, rfl⟩
  unfold isValid at hv
  cases hf : s.platform.reg.find (s.platform.reg.slots i).id with
  | none =>
    rw [hf] at hv
    cases hv
  | some k =>
    rw [hf] at hv
    obtain ⟨hcap, -, hid⟩ := find_eq_some hf
    rw [hs.shaped.ids k i ⟨hcap, of_decide_eq_true hv⟩ hi hid]

end GuiSystem.Sound

/-! ## Steps -/

namespace LayoutSystem

variable {s t : LayoutSystem lv} {widthAxis : Bool} {i j : Nat}

lemma published_ne_fill (slot : WidgetSlot) : (s.published slot).mode widthAxis ≠ .fill := by
  unfold published
  cases widthAxis
  all_goals
    split_ifs
    all_goals exact SizeMode.noConfusion

/-- What `gui_widget_set_geometry` does: nothing, or it stores sizes that get on with the parent and the children. -/
lemma setGeometry_cases (w : Nat) (geometry : Option Geometry) :
    (∃ e, s.setGeometry w geometry = (s, .error e)) ∨
      ∃ i sizes, s.LiveAt i ∧ s.setGeometry w geometry = ({ s with sizes := update s.sizes i sizes }, .ok ()) ∧
        ∀ widthAxis, (sizes.mode widthAxis = .fill → ¬s.parentIsContent i widthAxis) ∧
          (sizes.mode widthAxis = .content → ¬s.hasFillingChild i widthAxis) := by
  unfold setGeometry
  split
  · rename_i modeW valueW modeH valueH i hl
    split_ifs with hw hh hc
    · exact .inl ⟨_, rfl⟩
    · exact .inl ⟨_, rfl⟩
    · exact .inl ⟨_, rfl⟩
    refine .inr ⟨i, _, (liveSlot_eq_some hl).1, rfl, fun widthAxis => ?_⟩
    simp only [wouldCreateSizeCycle, Bool.if_true_left, Bool.or_eq_true, decide_eq_true_iff, not_or] at hc
    obtain ⟨hpw, hph, hcw, hch, -⟩ := hc
    cases widthAxis with
    | true => exact ⟨fun h => not_and.1 hpw h, fun h => not_and.1 hcw h⟩
    | false => exact ⟨fun h => not_and.1 hph h, fun h => not_and.1 hch h⟩
  · exact .inl ⟨_, rfl⟩

namespace Ok

variable (hs : s.Ok)
include hs

/-- A widget whose parent takes its size from its content sees it. -/
lemma parentIsContent (hi : s.LiveAt i) (hp : (s.slot j).parentId = (s.slot i).id)
    (hc : (s.sizes i).mode widthAxis = .content) : s.parentIsContent j widthAxis = true := by
  have hpos := hs.sound.shaped.id_pos hi
  simp only [LayoutSystem.parentIsContent, hp, if_neg hpos.ne', hs.sound.find_id hi, hc, decide_true]

/-- **A geometry.** The checks against the parent and against the children keep the modes apart. -/
lemma setGeometry (w : Nat) (geometry : Option Geometry) : (s.setGeometry w geometry).1.Ok := by
  obtain ⟨e, he⟩ | ⟨k, sizes, hk, he, hsz⟩ := setGeometry_cases (s := s) w geometry
  · rw [he]
    exact hs
  rw [he]
  refine ⟨hs.sound, ?_⟩
  dsimp only [slot]
  intro widthAxis i j hi hj hp hc
  by_cases hik : i = k
  · subst hik
    rw [update_self] at hc
    have hji : j ≠ i := by
      rintro rfl
      exact absurd (hs.sound.parentId_lt hj) (by omega)
    rw [update_of_ne hji]
    intro hf
    apply (hsz widthAxis).2 hc
    exact List.any_eq_true.2 ⟨j, List.mem_range.2 hj.1, decide_eq_true ⟨hj.2, hp, hf⟩⟩
  · rw [update_of_ne hik] at hc
    by_cases hjk : j = k
    · subst hjk
      rw [update_self]
      intro hf
      apply (hsz widthAxis).1 hf
      exact hs.parentIsContent hi hp hc
    · rw [update_of_ne hjk]
      exact hs.apart widthAxis i j hi hj hp hc

/-- **A call on the registry.** A new widget has no children and does not fill its parent. -/
lemma registry {gui : GuiSystem lv} (hsnd : gui.Sound) (hkp : s.gui.Keeps gui) :
    Ok { s with gui, sizes := s.resized gui } := by
  have hold : ∀ i, gui.platform.LiveAt i → (gui.platform.reg.slots i).id ≤ s.gui.platform.lastId →
      s.LiveAt i ∧ gui.platform.reg.slots i = s.slot i ∧ s.resized gui i = s.sizes i := by
    intro i hi hle
    obtain ⟨hl, hsl⟩ | hid := hkp i hi
    · refine ⟨hl, hsl, ?_⟩
      simp only [resized, hi.2, reduceCtorEq, if_false, if_neg hle.not_gt]
    · omega
  refine ⟨hsnd, ?_⟩
  dsimp only [slot, LiveAt]
  intro widthAxis i j hi hj hp hc hf
  by_cases hlj : s.gui.platform.lastId < (gui.platform.reg.slots j).id
  · simp only [resized, hj.2, reduceCtorEq, if_false, if_pos hlj] at hf
    exact published_ne_fill _ hf
  have hlt := hsnd.parentId_lt hj
  obtain ⟨hj', hslj, hszj⟩ := hold j hj (not_lt.1 hlj)
  obtain ⟨hi', hsli, hszi⟩ := hold i hi (by omega)
  rw [hszi] at hc
  rw [hszj] at hf
  rw [hslj, hsli] at hp
  exact hs.apart widthAxis i j hi' hj' hp hc hf

/-- **Step.** -/
lemma exists_next (hlv : lv.Documented) (c : LayoutCall) : ∃ t, s.next c = some t ∧ t.Ok := by
  cases c with
  | registry c =>
    obtain ⟨gui, hn, hsnd, hkp⟩ := hs.sound.leads hlv c
    exact ⟨_, by rw [next, hn]; rfl, hs.registry hsnd hkp⟩
  | setGeometry w geometry => exact ⟨_, rfl, hs.setGeometry w geometry⟩

/-- A size is computed from sizes of lower rank. -/
lemma rank_lt (h : s.Depends widthAxis i j) : s.rank widthAxis j < s.rank widthAxis i := by
  obtain ⟨hi, hj, ⟨hc, hp⟩ | ⟨hf, hp⟩⟩ := h
  · have hlt : (s.slot j).parentId < (s.slot j).id := hs.sound.parentId_lt hj
    have hne := hs.apart widthAxis i j hi hj hp hc
    rw [rank, rank, if_neg hne, if_neg (by rw [hc]; exact SizeMode.noConfusion)]
    omega
  · have hlt : (s.slot i).parentId < (s.slot i).id := hs.sound.parentId_lt hi
    rw [rank, rank, if_pos hf]
    split_ifs
    all_goals omega

lemma rank_lt_of_transGen (h : Relation.TransGen (s.Depends widthAxis) i j) :
    s.rank widthAxis j < s.rank widthAxis i := by
  induction h with
  | single h => exact hs.rank_lt h
  | tail _ h ih => exact (hs.rank_lt h).trans ih

end Ok

/-! ## Runs -/

lemma ok_init (hlv : lv.Documented) (lastId : Nat) (width height : BitVec 32) :
    (init lastId width height : LayoutSystem lv).Ok := by
  refine ⟨GuiSystem.sound_init hlv lastId, ?_⟩
  rintro widthAxis i j ⟨-, hi⟩
  cases hi

/-- Every sequence of calls is a run. -/
lemma exists_run (hlv : lv.Documented) (lastId : Nat) (width height : BitVec 32) (cs : List LayoutCall) :
    ∃ t, Run Step (init lastId width height : LayoutSystem lv) cs t := by
  obtain ⟨t, ht, -⟩ :=
    Run.exists_foldlM (fun s c _ (hs : s.Ok) => hs.exists_next hlv c) (ok_init hlv lastId width height)
  exact ⟨t, Run.of_foldlM ht⟩

end LayoutSystem

/-- **Sizes are never circular**, in every run over a back end that does what is documented, and a geometry that is
rejected changes nothing; every call returns. -/
theorem sizes_acyclic (hlv : lv.Documented) {lastId : Nat} {width height : BitVec 32} {cs : List LayoutCall}
    {t : LayoutSystem lv} (hrun : Run LayoutSystem.Step (.init lastId width height) cs t) :
    (∀ widthAxis i, ¬Relation.TransGen (t.Depends widthAxis) i i) ∧
      (∀ w geometry e, (t.setGeometry w geometry).2 = .error e → (t.setGeometry w geometry).1 = t) ∧
      ∀ c, ∃ u, t.next c = some u := by
  have hok : t.Ok := by
    refine hrun.invariant ?_ (LayoutSystem.ok_init hlv lastId width height)
    intro s c t hs hst
    obtain ⟨u, hu, hok⟩ := hs.exists_next hlv c
    obtain rfl : u = t := Option.some_injective _ (hu.symm.trans hst)
    exact hok
  refine ⟨fun widthAxis i h => ?_, fun w geometry e he => ?_, fun c => ?_⟩
  · apply lt_irrefl (t.rank widthAxis i)
    exact hok.rank_lt_of_transGen h
  · obtain ⟨e', h⟩ | ⟨i, sizes, -, h, -⟩ := LayoutSystem.setGeometry_cases (s := t) w geometry
    · rw [h]
    · rw [h] at he
      cases he
  · obtain ⟨u, hu, -⟩ := hok.exists_next hlv c
    exact ⟨u, hu⟩

/-- A label fills a root, which then asks for the size of its content. -/
theorem sizes_acyclic_label : ∃ t : LayoutSystem mapLvgl, Run LayoutSystem.Step (.init 0 640 480)
      [.registry (.create 0 (some .container) allGranted), .registry (.create 1 (some .label) allGranted),
        .setGeometry 2 (some ⟨⟨some .fill, 0⟩, ⟨some .fill, 0⟩⟩),
        .setGeometry 1 (some ⟨⟨some .content, 0⟩, ⟨some .px, 480⟩⟩)] t ∧
      ∀ widthAxis i, ¬Relation.TransGen (t.Depends widthAxis) i i := by
  apply (LayoutSystem.exists_run mapLvgl_documented 0 640 480 _).imp
  intro t hrun
  exact ⟨hrun, (sizes_acyclic mapLvgl_documented hrun).1⟩

end OS01.Libgui
