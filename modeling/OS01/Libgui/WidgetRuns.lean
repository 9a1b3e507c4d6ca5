import Mathlib.Data.Finset.Lattice.Fold
import Mathlib.Order.Lattice.Nat
import OS01.Libgui.WidgetTree

/-!
# Runs of the widget calls

Creating a widget adds one leaf to the tree, or leaves everything as it was, whichever of its steps fails
(`Shaped.create`). With what destroying and clearing do, every call keeps the tree and the meaning of the handles, and so
does every run.
-/

namespace OS01.Libgui

open WidgetSlot GuiPlatform Nat Function List Lib WidgetRegistry GuiSystem WidgetOp

variable {lv : Lvgl} {p : GuiPlatform lv} {log : List WidgetOp} {reg reg' : WidgetRegistry} {i w index : Nat}

/-! ## Finding a slot -/

/-- The slot that is found has the handle. -/
lemma find_eq_some (h : reg.find w = some i) :
    i < GUI_WIDGET_REGISTRY_CAPACITY ∧ (reg.slots i).state ≠ .free ∧ (reg.slots i).id = w := by
  unfold WidgetRegistry.find at h
  split_ifs at h with hw
  have hsl : (reg.slots i).state ≠ .free ∧ (reg.slots i).id = w := by simpa using find?_some h
  exact ⟨mem_range.1 (mem_of_find?_eq_some h), hsl⟩

/-- It is that of a published widget. -/
lemma liveSlot_eq_some (h : p.liveSlot w = some i) : p.LiveAt i ∧ (p.reg.slots i).id = w := by
  unfold liveSlot at h
  cases hf : p.reg.find w with
  | none =>
    rw [hf] at h
    cases h
  | some j =>
    obtain ⟨hcap, -, hid⟩ := find_eq_some hf
    rw [hf] at h
    dsimp only at h
    split_ifs at h with hl
    cases h
    exact ⟨⟨hcap, hl⟩, hid⟩

/-- A handle is valid if a published widget has it. -/
lemma Shaped.isValid_iff (hs : Shaped p log) : p.isValid w = true ↔ ∃ i, p.LiveAt i ∧ (p.reg.slots i).id = w := by
  unfold isValid
  cases hf : p.reg.find w with
  | some i =>
    obtain ⟨hcap, hu, hid⟩ := find_eq_some hf
    have hl := (hs.states i hcap).resolve_left hu
    simp only [hl, decide_true, true_iff]
    exact ⟨i, ⟨hcap, hl⟩, hid⟩
  | none =>
    simp only [Bool.false_eq_true, false_iff]
    rintro ⟨i, hi, hid⟩
    have hpos := hs.id_pos hi
    rw [WidgetRegistry.find, if_neg (by omega)] at hf
    have hnot := find?_eq_none.1 hf i (mem_range.2 hi.1)
    simp [hi.2, hid] at hnot

/-! ## Reserving a slot -/

/-- The slot that `registry_reserve` takes. -/
lemma reserve_eq_some (h : reg.reserve = some (reg', index)) :
    index < GUI_WIDGET_REGISTRY_CAPACITY ∧ (reg.slots index).state = .free ∧
      reg'.slots = update reg.slots index (reset.setState .reserved) ∧
      reg'.count = reg.count + 1 ∧ reg'.deleteDepth = reg.deleteDepth := by
  unfold reserve at h
  split at h
  · cases h
  rename_i k hf
  cases h
  have hk := mem_range.1 (mem_of_find?_eq_some hf)
  have hfr : (reg.slots ((reg.cursor + k) % GUI_WIDGET_REGISTRY_CAPACITY)).state = .free := by
    simpa using find?_some hf
  exact ⟨mod_lt _ (by omega), hfr, rfl, rfl, rfl⟩

/-- A search in a ring reaches every place, wherever it begins. -/
lemma exists_offset {n : Nat} (c : Nat) (hi : i < n) : ∃ k < n, (c + k) % n = i := by
  have hlt := mod_lt c (show 0 < n by omega)
  have hsum : c % n + (i + (n - c % n)) = i + n := by omega
  refine ⟨(i + (n - c % n)) % n, mod_lt _ (by omega), ?_⟩
  rw [add_mod_mod, ← mod_add_mod, hsum, add_mod_right, mod_eq_of_lt hi]

/-- It fails only if no slot is free. -/
lemma reserve_eq_none (h : reg.reserve = none) (hi : i < GUI_WIDGET_REGISTRY_CAPACITY) : (reg.slots i).state ≠ .free := by
  unfold reserve at h
  split at h
  · rename_i hf
    obtain ⟨k, hk, hidx⟩ := exists_offset reg.cursor hi
    have hp := find?_eq_none.1 hf k (mem_range.2 hk)
    rw [hidx] at hp
    simpa using hp
  · cases h

/-- A reserved slot is counted as used only. -/
lemma WidgetRegistry.Tallied.reserve {live : Nat} (ht : reg.Tallied live) (h : reg.reserve = some (reg', index)) :
    reg'.Tallied live := by
  obtain ⟨hcap, hf, hsl, hcnt, -⟩ := reserve_eq_some h
  have hwas : (reg.slots index).used = false ∧ (reg.slots index).counted = false := by
    simp [used, counted, hf]
  refine ht.set hcap hsl ?_ ?_
  · rw [hwas.1, hcnt]
    rfl
  · rw [hwas.2]
    rfl

/-! ## Creating a widget -/

variable {q : GuiPlatform lv} {parent : Nat} {parentSlot : Option Nat} {e : WidgetError} {kind : WidgetKind}

/-- The widgets of a platform are those of another one. -/
def SameWidgets (p p' : GuiPlatform lv) : Prop :=
  ∀ i, (p'.LiveAt i ↔ p.LiveAt i) ∧ (p.LiveAt i → p'.reg.slots i = p.reg.slots i)

/-- What a call of `gui_widget_create` may come to. -/
def Creates (p : GuiPlatform lv) (log : List WidgetOp) (parent : Nat) (r : GuiPlatform lv × Except WidgetError Nat) :
    Prop :=
  (∃ p' e, r = (p', .error e) ∧ (e = .ENOSPC → ∀ i < GUI_WIDGET_REGISTRY_CAPACITY, p.LiveAt i) ∧ Shaped p' log ∧
    SameWidgets p p') ∨
  ∃ p' index, r = (p', .ok (p.lastId + 1)) ∧ Shaped p' (.created (p.lastId + 1) parent :: log) ∧
    (∀ i, p'.LiveAt i ↔ p.LiveAt i ∨ i = index) ∧ (p'.reg.slots index).id = p.lastId + 1 ∧
    ∀ i, p.LiveAt i → p'.reg.slots i = p.reg.slots i

/-- A creation under way in a free slot: nothing else has changed. -/
structure Draft (p q : GuiPlatform lv) (index : Nat) : Prop where
  slots : ∀ i, i ≠ index → q.reg.slots i = p.reg.slots i
  hidden : (q.reg.slots index).counted = false
  depth : q.reg.deleteDepth = 0
  tallied : q.reg.Tallied q.statWidgetsLive
  natives : q.natives = p.natives
  lastId : p.lastId ≤ q.lastId

/-- The object that a new one hangs under. -/
def UnderParent (p : GuiPlatform lv) (parentSlot : Option Nat) (parent : Nat) : Prop :=
  parentSlot = none ∧ parent = 0 ∨ ∃ i, parentSlot = some i ∧ p.LiveAt i ∧ parent = (p.reg.slots i).obj

/-- The parent keeps its handle. -/
lemma parentId_eq (hpar : ∀ i ∈ parentSlot, p.LiveAt i)
    (hq : ∀ i, p.LiveAt i → q.reg.slots i = p.reg.slots i) : q.parentId parentSlot = p.parentId parentSlot := by
  cases parentSlot with
  | none => rfl
  | some i => exact congrArg WidgetSlot.id (hq i (hpar i rfl))

/-- The parent that a call finds is the one that it was given. -/
lemma parentSlot_eq_ok {slot : Option Nat} (h : p.parentSlot parent kind = .ok slot) :
    (∀ i ∈ slot, p.LiveAt i) ∧ p.parentId slot = parent := by
  unfold parentSlot at h
  split_ifs at h with hr hk
  · cases hl : p.liveSlot parent with
    | none =>
      rw [hl] at h
      cases h
    | some i =>
      obtain ⟨hi, hid⟩ := liveSlot_eq_some hl
      rw [hl] at h
      dsimp only at h
      split_ifs at h
      cases h
      refine ⟨fun j hj => ?_, hid⟩
      cases hj
      exact hi
  · cases h
    exact ⟨by simp, (not_not.1 hr).symm⟩

/-- A bad parent is not reported as a full registry. -/
lemma parentSlot_ne_ENOSPC (h : p.parentSlot parent kind = .error e) : e ≠ .ENOSPC := by
  unfold parentSlot at h
  split_ifs at h
  · split at h
    · cases h
      decide
    · split_ifs at h
      cases h
      decide
  · cases h
    decide

section

variable (hs : Shaped p log)
include hs

/-- A platform whose widgets are those of another one, and that may have used identifiers and objects since. -/
lemma Shaped.of_same (hf : ∀ i < GUI_WIDGET_REGISTRY_CAPACITY,
    q.reg.slots i = p.reg.slots i ∨ (p.reg.slots i).state = .free ∧ (q.reg.slots i).state = .free)
    (hdep : q.reg.deleteDepth = 0) (htal : q.reg.Tallied q.statWidgetsLive)
    (hnat : q.natives = p.natives) (hls : p.lastId ≤ q.lastId) :
    Shaped q log ∧ SameWidgets p q := by
  have hsl : ∀ i, p.LiveAt i → q.reg.slots i = p.reg.slots i := by
    intro i hi
    refine (hf i hi.1).resolve_right fun h => ?_
    rw [hi.2] at h
    cases h.1
  have hl : ∀ i, q.LiveAt i ↔ p.LiveAt i := by
    intro i
    constructor
    · rintro ⟨hcap, hl⟩
      obtain hsm | ⟨-, hf⟩ := hf i hcap
      · exact ⟨hcap, by rw [← hsm]; exact hl⟩
      · rw [hf] at hl
        cases hl
    · intro hi
      exact ⟨hi.1, by rw [hsl i hi]; exact hi.2⟩
  refine ⟨⟨?_, hdep, htal, ?_, ?_, ?_, ?_, by rw [hnat]; exact hs.screen, fun w hw => (hs.issued w hw).trans hls,
    hs.parents, hs.once⟩, fun i => ⟨hl i, hsl i⟩⟩
  · intro i hcap
    obtain hsm | ⟨-, hf⟩ := hf i hcap
    · rw [hsm]
      exact hs.states i hcap
    · exact .inl hf
  · intro i hi
    have hi := (hl i).1 hi
    rw [hsl i hi]
    exact hs.slot i hi
  · intro i j hi hj hid
    have hi := (hl i).1 hi
    have hj := (hl j).1 hj
    rw [hsl i hi, hsl j hj] at hid
    exact hs.ids i j hi hj hid
  · intro i hi
    have hi := (hl i).1 hi
    obtain ⟨n, hn, hobs, hpar⟩ := hs.native i hi
    rw [hsl i hi, hnat]
    refine ⟨n, hn, hobs, hpar.imp_right ?_⟩
    rintro ⟨j, hj, hid, hobj⟩
    exact ⟨j, (hl j).2 hj, by rw [hsl j hj]; exact hid, by rw [hsl j hj]; exact hobj⟩
  · intro o n hn
    rw [hnat] at hn
    obtain ⟨i, hi, hobs, hobj⟩ := hs.objects o n hn
    exact ⟨i, (hl i).2 hi, hobs, by rw [hsl i hi]; exact hobj⟩

/-- A creation that is given up: the slot is free again. -/
lemma Shaped.undo (hcap : index < GUI_WIDGET_REGISTRY_CAPACITY)
    (hf : (p.reg.slots index).state = .free) (hd : Draft p q index) (he : e ≠ .ENOSPC) :
    Creates p log parent ({ q with reg := q.reg.release index }, .error e) := by
  refine .inl ⟨_, e, rfl, fun h => absurd h he, hs.of_same (fun i _ => ?_) ?_ (hd.tallied.release hcap hd.hidden)
    hd.natives hd.lastId⟩
  · by_cases hi : i = index
    · subst hi
      refine .inr ⟨hf, ?_⟩
      rw [release_slots, update_self]
      split_ifs with hst
      · exact hst
      · rfl
    · refine .inl ?_
      rw [release_slots, update_of_ne hi, hd.slots i hi]
  · exact release_deleteDepth.trans hd.depth

/-- An object hangs under another one, or on the screen. -/
lemma Shaped.parent_alive {o : Nat} {n : Native} (hn : p.natives o = some n) :
    n.parent = 0 ∨ (p.natives n.parent).isSome := by
  obtain ⟨i, hi, -, rfl⟩ := hs.objects o n hn
  obtain ⟨n', hn', -, hpar⟩ := hs.native i hi
  obtain rfl : n = n' := Option.some_injective _ (hn.symm.trans hn')
  refine hpar.imp And.right ?_
  rintro ⟨j, hj, -, hobj⟩
  rw [hobj]
  exact hs.isSome_native hj

/-- Nothing hangs below a new object. -/
lemma Shaped.below_new {obj o : Nat} {n : Native} (hobj : obj ≠ 0) (hnew : p.natives obj = none) :
    Below (update p.natives obj (some n)) obj o ↔ o = obj := by
  refine ⟨fun h => ?_, fun h => h ▸ .refl⟩
  induction h with
  | refl => rfl
  | tail _ hst ih =>
    obtain ⟨m, hm, hpar⟩ := hst
    by_contra hne
    rw [update_of_ne hne] at hm
    have halive := hs.parent_alive hm
    rw [hpar, ih, hnew] at halive
    exact halive.elim hobj Bool.noConfusion

/-- Deleting a new object calls its own observer at most, and leaves no trace. -/
lemma Shaped.lvObjDelete_new (hlv : lv.Documented) {obj : Nat} {n : Native} (hobj : obj ≠ 0)
    (hnew : p.natives obj = none) (hq : q.natives = update p.natives obj (some n)) :
    lv.natives (lv.delete q.objects obj).1 = p.natives ∧ q.lvObjDelete obj =
      n.observer.toList.foldl onNativeDelete { q with objects := (lv.delete q.objects obj).1 } := by
  have hn : q.natives obj = some n := by rw [hq, update_self]
  have hsome : (q.natives obj).isSome := by rw [hn, Option.isSome_some]
  have hbelow : ∀ o, Below q.natives obj o ↔ o = obj := fun o => by rw [hq, hs.below_new hobj hnew]
  constructor
  · funext o
    obtain ⟨hin, hout⟩ := hlv.delete q.objects obj hsome o
    by_cases ho : o = obj
    · rw [hin ((hbelow o).2 ho), ho, hnew]
    · rw [hout (mt (hbelow o).1 ho)]
      exact (congrFun hq o).trans (update_of_ne ho _ _)
  · obtain ⟨objs, hnd, hmem, hcalled⟩ := hlv.called q.objects obj hsome
    have hone : objs = [obj] := by
      refine perm_singleton.1 ((perm_ext_iff_of_nodup hnd (nodup_singleton obj)).2 fun o => ?_)
      rw [hmem, mem_singleton, and_iff_right_of_imp (fun h => (hbelow o).1 h ▸ hsome)]
      exact hbelow o
    have hobserver : [obj].filterMap (fun o => (lv.natives q.objects o).bind Native.observer) = n.observer.toList := by
      rw [natives] at hn
      cases hobs : n.observer <;> simp [hn, hobs]
    rw [lvObjDelete, hcalled, hone, hobserver]

/-- There is no screen, or the object of the parent is found. -/
lemma Shaped.parentObject_cases (hpar : ∀ i ∈ parentSlot, p.LiveAt i)
    (hq : ∀ i, p.LiveAt i → q.reg.slots i = p.reg.slots i) (screen : Bool) :
    q.parentObject parentSlot screen = none ∨
      ∃ parent, q.parentObject parentSlot screen = some parent ∧ UnderParent p parentSlot parent := by
  cases parentSlot with
  | none =>
    cases screen with
    | false => exact .inl rfl
    | true => exact .inr ⟨0, rfl, .inl ⟨rfl, rfl⟩⟩
  | some i =>
    have hi := hpar i rfl
    rw [parentObject, hq i hi, if_neg (hs.obj_pos hi).ne']
    exact .inr ⟨_, rfl, .inr ⟨i, rfl, hi, rfl⟩⟩

/-- **A leaf is added.** -/
lemma Shaped.publish (hcap : index < GUI_WIDGET_REGISTRY_CAPACITY)
    (hf : (p.reg.slots index).state = .free) (hpar : UnderParent p parentSlot parent) (kind : WidgetKind)
    (hoth : ∀ i, i ≠ index → q.reg.slots i = p.reg.slots i)
    {obj : Nat} (hobj : obj ≠ 0) (hnew : p.natives obj = none)
    (hsl : q.reg.slots index = ⟨.live, p.lastId + 1, obj, p.parentId parentSlot, kind, false⟩)
    (hnat : q.natives = update p.natives obj (some ⟨parent, some index⟩))
    (hls : q.lastId = p.lastId + 1) (hdep : q.reg.deleteDepth = 0)
    (htal : q.reg.Tallied q.statWidgetsLive) :
    Shaped q (.created (p.lastId + 1) (p.parentId parentSlot) :: log) ∧
      ∀ i, q.LiveAt i ↔ p.LiveAt i ∨ i = index := by
  have hold : ∀ i, p.LiveAt i → i ≠ index := by
    rintro i ⟨-, hl⟩ rfl
    rw [hf] at hl
    cases hl
  have hl : ∀ i, q.LiveAt i ↔ p.LiveAt i ∨ i = index := by
    intro i
    unfold GuiPlatform.LiveAt
    by_cases hi : i = index
    · subst hi
      simp [hsl, hcap]
    · simp [hoth i hi, hi]
  have hbd : ∀ i, p.LiveAt i → (p.reg.slots i).id ≤ p.lastId ∧ (p.reg.slots i).obj ≠ obj := by
    refine fun i hi => ⟨hs.issued _ (mem_createdIds.2 ⟨_, (hs.slot i hi).2⟩), fun heq => ?_⟩
    have hsome := hs.isSome_native hi
    rw [heq, hnew] at hsome
    cases hsome
  have hparentId : p.parentId parentSlot ≤ p.lastId := by
    obtain ⟨rfl, -⟩ | ⟨i, rfl, hi, -⟩ := hpar
    · exact zero_le _
    · exact (hbd i hi).1
  have hid : p.lastId + 1 ∉ createdIds log := fun hmem => absurd (hs.issued _ hmem) (by omega)
  refine ⟨⟨?_, hdep, htal, ?_, ?_, ?_, ?_, ?_, ?_, ?_, nodup_cons.2 ⟨hid, hs.once⟩⟩, hl⟩
  · intro i hi
    by_cases hidx : i = index
    · subst hidx
      exact .inr (by rw [hsl])
    · rw [hoth i hidx]
      exact hs.states i hi
  · intro i hi
    obtain hi | rfl := (hl i).1 hi
    · rw [hoth i (hold i hi)]
      exact ⟨(hs.slot i hi).1, mem_cons_of_mem _ (hs.slot i hi).2⟩
    · rw [hsl]
      exact ⟨rfl, mem_cons_self⟩
  · intro i j hi hj hid
    obtain hi | rfl := (hl i).1 hi
    · obtain hj | rfl := (hl j).1 hj
      · rw [hoth i (hold i hi), hoth j (hold j hj)] at hid
        exact hs.ids i j hi hj hid
      · rw [hoth i (hold i hi), hsl] at hid
        have := (hbd i hi).1
        dsimp only at hid
        omega
    obtain hj | rfl := (hl j).1 hj
    · rw [hoth j (hold j hj), hsl] at hid
      have := (hbd j hj).1
      dsimp only at hid
      omega
    · rfl
  · intro i hi
    obtain hi | rfl := (hl i).1 hi
    · obtain ⟨n, hn, hobs, hup⟩ := hs.native i hi
      rw [hoth i (hold i hi), hnat, update_of_ne (hbd i hi).2]
      refine ⟨n, hn, hobs, hup.imp_right ?_⟩
      rintro ⟨j, hj, hid, hobj⟩
      refine ⟨j, (hl j).2 (.inl hj), ?_, ?_⟩ <;> rw [hoth j (hold j hj)]
      · exact hid
      · exact hobj
    rw [hsl, hnat, update_self]
    refine ⟨_, rfl, rfl, ?_⟩
    obtain ⟨rfl, rfl⟩ | ⟨j, rfl, hj, rfl⟩ := hpar
    · exact .inl ⟨rfl, rfl⟩
    · refine .inr ⟨j, (hl j).2 (.inl hj), ?_, ?_⟩ <;> rw [hoth j (hold j hj)]
      rfl
  · intro o n hn
    by_cases ho : o = obj
    · subst ho
      rw [hnat, update_self] at hn
      cases hn
      exact ⟨index, (hl index).2 (.inr rfl), rfl, by rw [hsl]⟩
    · rw [hnat, update_of_ne ho] at hn
      obtain ⟨i, hi, hobs, hobj⟩ := hs.objects o n hn
      exact ⟨i, (hl i).2 (.inl hi), hobs, by rw [hoth i (hold i hi)]; exact hobj⟩
  · rw [hnat, update_of_ne hobj.symm]
    exact hs.screen
  · intro w hw
    obtain rfl | hw := mem_cons.1 hw
    · exact hls.ge
    · exact (hs.issued w hw).trans (by omega)
  · intro c q' hc
    obtain heq | hc := mem_cons.1 hc
    · cases heq
      omega
    · exact hs.parents c q' hc

/-- **The end of `gui_widget_create`**: it is given up, or one leaf is added. -/
lemma Shaped.createIn (hlv : lv.Documented) (hreserve : p.reg.reserve = some (reg', index))
    (hpar : ∀ i ∈ parentSlot, p.LiveAt i) (kind : WidgetKind) (env : GuiPlatform.CreateEnv) :
    Creates p log (p.parentId parentSlot) (GuiPlatform.createIn { p with reg := reg' } parentSlot kind index env) := by
  obtain ⟨hcap, hf, hsl, hcnt, hdep⟩ := reserve_eq_some hreserve
  have htal := hs.tallied.reserve hreserve
  rw [hs.depth] at hdep
  have hoth : ∀ i, i ≠ index → reg'.slots i = p.reg.slots i := by
    intro i hi
    rw [hsl, update_of_ne hi]
  have hrsv : reg'.slots index = reset.setState .reserved := by rw [hsl, update_self]
  have hnot : (reg'.slots index).counted = false := by
    rw [hrsv]
    rfl
  have hk : ∀ i, p.LiveAt i → reg'.slots i = p.reg.slots i := by
    refine fun i hi => hoth i ?_
    rintro rfl
    rw [hi.2] at hf
    cases hf
  have hd : Draft p { p with reg := reg' } index := ⟨hoth, hnot, hdep, htal, rfl, le_rfl⟩
  unfold GuiPlatform.createIn
  dsimp only
  by_cases hmax : p.lastId = 2 ^ 64 - 1
  · rw [if_pos hmax]
    exact hs.undo hcap hf hd (by decide)
  rw [if_neg hmax]
  let p1 : GuiPlatform lv := { p with reg := reg', lastId := p.lastId + 1 }
  have hd1 : Draft p p1 index := { hd with lastId := le_succ _ }
  rcases hs.parentObject_cases hpar (q := p1) hk env.screen with hn | ⟨parent, hsm, hund⟩
  · rw [hn]
    exact hs.undo hcap hf hd1 (by decide)
  rw [hsm]
  cases hnative : env.native with
  | false => exact hs.undo hcap hf hd1 (by decide)
  | true =>
    let objects := (lv.create p.objects kind parent).1
    let obj := (lv.create p.objects kind parent).2
    obtain ⟨hobj, hnew⟩ : obj ≠ 0 ∧ p.natives obj = none := hlv.new p.objects kind parent
    have hcreate : lv.natives objects = update p.natives obj (some ⟨parent, none⟩) :=
      hlv.create p.objects kind parent
    cases hobserver : env.observer with
    | false =>
      -- the object has no observer yet
      obtain ⟨hnat, hg⟩ := hs.lvObjDelete_new (q := { p1 with objects }) hlv hobj hnew hcreate
      refine hs.undo (q := lvObjDelete { p1 with objects } obj) hcap hf ?_ (by decide)
      rw [hg]
      exact { hd1 with natives := hnat }
    | true =>
      let made : GuiPlatform lv := { p1 with objects := lv.addEventCb objects obj index }
      have hm : made.natives = update p.natives obj (some ⟨parent, some index⟩) := by
        refine (hlv.addEventCb objects obj ⟨parent, none⟩ index (by rw [hcreate, update_self])).trans ?_
        rw [hcreate, update_idem]
      cases hbridge : env.bridge with
      | false =>
        -- its observer is called once, for a slot that was not published
        obtain ⟨hnat, hg⟩ := hs.lvObjDelete_new hlv hobj hnew hm
        have hu : (made.reg.slots index).state ≠ .free := by
          change (reg'.slots index).state ≠ .free
          rw [hrsv]
          exact SlotState.noConfusion
        have hslot : ∀ j, (made.lvObjDelete obj).reg.slots j =
            if j = index then (reg'.slots j).setPending.setState .destroying else reg'.slots j := by
          intro j
          rw [hg]
          exact onNativeDelete_slots hcap hu
        obtain ⟨h1, h2, h3⟩ := @onNativeDelete_rest lv { made with objects := (lv.delete made.objects obj).1 } index
        refine hs.undo (q := made.lvObjDelete obj) hcap hf ⟨fun i hi => ?_, ?_, ?_, ?_, ?_, ?_⟩ (by decide)
        · rw [hslot, if_neg hi]
          exact hoth i hi
        · rw [hslot]
          simp [counted, setPending, setState]
        all_goals rw [hg]
        · exact h3.trans hdep
        · exact tallied_onNativeDelete htal
        · exact (congrArg lv.natives h1).trans hnat
        · exact h2.symm ▸ le_succ _
      | true =>
        let slot : WidgetSlot := ⟨.live, p.lastId + 1, obj, p.parentId parentSlot, kind, false⟩
        let q : GuiPlatform lv := { made with
            reg := reg'.setSlot index slot
            statWidgetsCreated := p.statWidgetsCreated + 1
            statWidgetsLive := p.statWidgetsLive + 1 }
        have htal' : q.reg.Tallied q.statWidgetsLive := by
          refine htal.set hcap rfl ?_ ?_
          · rw [hrsv]
            rfl
          · rw [hnot]
            simp [counted, q, slot]
        obtain ⟨hshp, hl⟩ := hs.publish (q := q) hcap hf hund kind
          (fun i hi => (setSlot_of_ne hi).trans (hoth i hi)) hobj hnew setSlot_self hm rfl hdep htal'
        refine .inr ⟨q, index, ?_, hshp, hl, ?_, fun i hi => ?_⟩
        · have hid : made.parentId parentSlot = p.parentId parentSlot := parentId_eq hpar hk
          have hslot : ({ reg'.slots index with
              state := .live, id := p.lastId + 1, obj, parentId := made.parentId parentSlot, kind } :
              WidgetSlot) = slot := by
            rw [hrsv, hid]
            rfl
          exact Prod.ext (congrArg (fun slot' => { q with reg := reg'.setSlot index slot' }) hslot) rfl
        · exact congrArg WidgetSlot.id setSlot_self
        · exact (setSlot_of_ne (by rintro rfl; rw [hi.2] at hf; cases hf)).trans (hk i hi)

/-- A call that fails at once. -/
lemma Shaped.fails (parent : Nat) (he : e ≠ .ENOSPC) : Creates p log parent (p, .error e) :=
  .inl ⟨p, e, rfl, fun h => absurd h he, hs, fun _ => ⟨Iff.rfl, fun _ => rfl⟩⟩

/-- **`gui_widget_create`**: it fails and changes nothing, or it adds a leaf. -/
theorem Shaped.create (hlv : lv.Documented) (parent : Nat) (kind : Option WidgetKind) (env : GuiPlatform.CreateEnv) :
    Creates p log parent (p.create parent kind env) := by
  cases kind with
  | none => exact hs.fails parent (by decide)
  | some kind =>
    unfold GuiPlatform.create
    dsimp only
    cases hb : env.busy with
    | true => exact hs.fails parent (by decide)
    | false =>
      have hr : p.reg.reap = p.reg := by
        refine reap_eq_self fun i hi hdying => ?_
        rcases hs.states i hi with hst | hst <;> rw [hst] at hdying <;> cases hdying
      have hsm : ({ p with reg := p.reg.reap } : GuiPlatform lv) = p := by rw [hr]
      rw [hsm, createReaped]
      cases hsl : p.parentSlot parent kind with
      | error e => exact hs.fails parent (parentSlot_ne_ENOSPC hsl)
      | ok slot =>
        obtain ⟨hpar, hid⟩ := parentSlot_eq_ok hsl
        cases hrsv : p.reg.reserve with
        | none =>
          refine .inl ⟨p, _, rfl, fun _ i hi => ⟨hi, ?_⟩, hs, fun _ => ⟨Iff.rfl, fun _ => rfl⟩⟩
          exact (hs.states i hi).resolve_left (reserve_eq_none hrsv hi)
        | some r =>
          rw [← hid]
          exact hs.createIn hlv hrsv hpar kind env

end

/-! ## Runs -/

/-- The platform is in order, and its handles mean what the history says. -/
structure GuiSystem.Sound (s : GuiSystem lv) : Prop where
  shaped : Shaped s.platform s.log
  valid : ∀ w, HandleValid s.log w ↔ ∃ i, s.platform.LiveAt i ∧ (s.platform.reg.slots i).id = w

namespace GuiSystem

variable {s t : GuiSystem lv}

/-- An operation that is no creation leaves the shape. -/
lemma shaped_cons (hs : Shaped p log) {op : WidgetOp} (hop : ∀ c q, op ≠ .created c q) : Shaped p (op :: log) := by
  have hmem : ∀ c q, created c q ∈ op :: log ↔ created c q ∈ log := by
    intro c q
    simp [(hop c q).symm]
  have hids : createdIds (op :: log) = createdIds log := by
    cases op with
    | created c q => exact absurd rfl (hop c q)
    | destroyed _ | cleared _ => rfl
  exact ⟨hs.states, hs.depth, hs.tallied, fun i hi => ⟨(hs.slot i hi).1, (hmem _ _).2 (hs.slot i hi).2⟩, hs.ids,
    hs.native, hs.objects, hs.screen, hids ▸ hs.issued, fun c q hc => hs.parents c q ((hmem c q).1 hc),
    hids ▸ hs.once⟩

/-- The widgets afterwards: some of those before, as they were, and perhaps a new one. -/
def Keeps (s t : GuiSystem lv) : Prop :=
  ∀ i, t.platform.LiveAt i → s.platform.LiveAt i ∧ t.platform.reg.slots i = s.platform.reg.slots i ∨
    (t.platform.reg.slots i).id = s.platform.lastId + 1

/-- Nothing has changed. -/
lemma keeps_self : s.Keeps s := fun _ hi => .inl ⟨hi, rfl⟩

/-- The call returns, and the system is in order afterwards. -/
def Leads (s : GuiSystem lv) (c : WidgetCall) : Prop := ∃ t, s.next c = some t ∧ t.Sound ∧ s.Keeps t

section

variable (hs : s.Sound)
include hs

/-- Some widgets are gone; the others are as before. -/
lemma Sound.valid_of_pruned {p' : GuiPlatform lv} (gone : Nat → Prop)
    (hl : ∀ i, p'.LiveAt i ↔ s.platform.LiveAt i ∧ ¬gone (s.platform.reg.slots i).id)
    (hsl : ∀ i, p'.LiveAt i → p'.reg.slots i = s.platform.reg.slots i) (w : Nat) :
    (∃ i, p'.LiveAt i ∧ (p'.reg.slots i).id = w) ↔ HandleValid s.log w ∧ ¬gone w := by
  rw [hs.valid]
  constructor
  · rintro ⟨i, hi, rfl⟩
    obtain ⟨hi', hg⟩ := (hl i).1 hi
    rw [hsl i hi]
    exact ⟨⟨i, hi', rfl⟩, hg⟩
  · rintro ⟨⟨i, hi, rfl⟩, hg⟩
    have hi' := (hl i).2 ⟨hi, hg⟩
    exact ⟨i, hi', congrArg WidgetSlot.id (hsl i hi')⟩

/-- An identifier is used elsewhere. -/
lemma leads_elsewhere : s.Leads .elsewhere := by
  refine ⟨_, rfl, ?_⟩
  obtain ⟨hshp, hsm⟩ := hs.shaped.of_same (q := { s.platform with
      lastId := if s.platform.lastId = 2 ^ 64 - 1 then s.platform.lastId else s.platform.lastId + 1 })
    (fun _ _ => .inl rfl) hs.shaped.depth hs.shaped.tallied rfl (by dsimp only; split_ifs <;> omega)
  exact ⟨⟨hshp, hs.valid⟩, fun _ hi => .inl ⟨hi, rfl⟩⟩

section

variable (hlv : lv.Documented)
include hlv

/-- `gui_widget_create`. -/
lemma leads_create (parent : Nat) (kind : Option WidgetKind) (env : GuiPlatform.CreateEnv) :
    s.Leads (.create parent kind env) := by
  rcases hs.shaped.create hlv parent kind env with ⟨p', e, hcl, -, hshp, hsm⟩ |
    ⟨p', index, hcl, hshp, hl, hid, hk⟩
  · refine ⟨⟨p', s.log⟩, by rw [next, hcl], ⟨hshp, fun w => ?_⟩, fun i hi => ?_⟩
    on_goal 2 => exact .inl ⟨(hsm i).1.1 hi, (hsm i).2 ((hsm i).1.1 hi)⟩
    rw [hs.valid]
    constructor
    · rintro ⟨i, hi, rfl⟩
      exact ⟨i, (hsm i).1.2 hi, congrArg WidgetSlot.id ((hsm i).2 hi)⟩
    · rintro ⟨i, hi, rfl⟩
      have hi' := (hsm i).1.1 hi
      exact ⟨i, hi', congrArg WidgetSlot.id ((hsm i).2 hi').symm⟩
  refine ⟨⟨p', .created (s.platform.lastId + 1) parent :: s.log⟩, by rw [next, hcl], ⟨hshp, fun w => ?_⟩,
    fun i hi => ?_⟩
  on_goal 2 => exact ((hl i).1 hi).imp (fun h => ⟨h, hk i h⟩) (by rintro rfl; exact hid)
  have hiss := hs.shaped.issued
  have hfr : ∀ c q, created c q ∈ s.log → q ≠ s.platform.lastId + 1 := by
    intro c q hc
    have hlt := hs.shaped.parents c q hc
    have hle := hiss c (mem_createdIds.2 ⟨q, hc⟩)
    omega
  have hnew : s.platform.lastId + 1 ∉ createdIds s.log := fun hmem => absurd (hiss _ hmem) (by omega)
  rw [handleValid_created hfr hnew, hs.valid]
  constructor
  · rintro (rfl | ⟨i, hi, rfl⟩)
    · exact ⟨index, (hl index).2 (.inr rfl), hid⟩
    · exact ⟨i, (hl i).2 (.inl hi), congrArg WidgetSlot.id (hk i hi)⟩
  · rintro ⟨i, hi, rfl⟩
    obtain hi | rfl := (hl i).1 hi
    · exact .inr ⟨i, hi, congrArg WidgetSlot.id (hk i hi).symm⟩
    · exact .inl hid

/-- `gui_widget_destroy`. -/
lemma leads_destroy (w : Nat) (busy : Bool) : s.Leads (.destroy w busy) := by
  cases busy with
  | true => exact ⟨s, rfl, hs, keeps_self⟩
  | false =>
    unfold Leads
    rw [next, destroy]
    cases hslot : s.platform.liveSlot w with
    | none => exact ⟨s, rfl, hs, keeps_self⟩
    | some r =>
      obtain ⟨hr, hid⟩ := liveSlot_eq_some hslot
      obtain ⟨p', hc, hshp, -, hl, hsl⟩ := hs.shaped.destroySubtree hlv hr
      rw [hid] at hl
      dsimp only
      rw [hc]
      refine ⟨⟨p', .destroyed w :: s.log⟩, rfl, ⟨shaped_cons hshp (by simp), fun v => ?_⟩,
        fun i hi => .inl ⟨((hl i).1 hi).1, hsl i hi⟩⟩
      rw [handleValid_cons (by simp), hs.valid_of_pruned (Ancestor s.log w) hl hsl]
      simp

/-- `gui_widget_clear`. -/
lemma leads_clear (w : Nat) (busy : Bool) : s.Leads (.clear w busy) := by
  cases busy with
  | true => exact ⟨s, rfl, hs, keeps_self⟩
  | false =>
    unfold Leads
    rw [next, clear]
    cases hslot : s.platform.liveSlot w with
    | none => exact ⟨s, rfl, hs, keeps_self⟩
    | some r =>
      obtain ⟨hr, hid⟩ := liveSlot_eq_some hslot
      dsimp only
      by_cases hk : (s.platform.reg.slots r).kind = .container
      · have hw : w ≠ 0 := hid ▸ (hs.shaped.id_pos hr).ne'
        obtain ⟨p', hc, hshp, -, hl, hsl⟩ := hs.shaped.clearLoop hlv hw
        have hl' : ∀ i, p'.LiveAt i ↔ s.platform.LiveAt i ∧
            ¬(w ≠ (s.platform.reg.slots i).id ∧ Ancestor s.log w (s.platform.reg.slots i).id) := by
          intro i
          rw [hl, not_and]
        rw [if_neg (not_not.2 hk), hc]
        refine ⟨⟨p', .cleared w :: s.log⟩, rfl, ⟨shaped_cons hshp (by simp), fun v => ?_⟩,
          fun i hi => .inl ⟨((hl i).1 hi).1, hsl i hi⟩⟩
        rw [handleValid_cons (by simp), hs.valid_of_pruned (fun v => w ≠ v ∧ Ancestor s.log w v) hl' hsl]
        simp
      · rw [if_pos hk]
        exact ⟨s, rfl, hs, keeps_self⟩

/-- **Step.** Every call returns and keeps the system in order. -/
lemma Sound.leads (c : WidgetCall) : s.Leads c := by
  cases c with
  | create parent kind env => exact leads_create hs hlv parent kind env
  | destroy w busy => exact leads_destroy hs hlv w busy
  | clear w busy => exact leads_clear hs hlv w busy
  | elsewhere => exact leads_elsewhere hs

end

end

/-- A platform starts without widgets. -/
lemma sound_init (hlv : lv.Documented) (lastId : Nat) : Sound (⟨init lastId, []⟩ : GuiSystem lv) := by
  have hno : ∀ i, ¬(init lastId : GuiPlatform lv).LiveAt i := by
    rintro i ⟨-, hl⟩
    cases hl
  have htally : ∀ kind : WidgetSlot → Bool, kind .reset = false →
      (init lastId : GuiPlatform lv).reg.tally kind = 0 := fun kind hk => countOn_eq_zero.2 fun _ _ => hk
  refine ⟨⟨fun _ _ => .inl rfl, rfl, ⟨(htally _ rfl).symm, (htally _ rfl).symm⟩, fun i hi => absurd hi (hno i),
    fun i j hi => absurd hi (hno i), fun i hi => absurd hi (hno i), ?_, hlv.start 0, ?_, ?_, nodup_nil⟩, ?_⟩
  · intro o n hn
    exact absurd ((hlv.start o).symm.trans hn) nofun
  · intro w hw
    cases hw
  · intro c q hc
    cases hc
  intro w
  constructor
  · intro h
    obtain ⟨p, hp⟩ := h.created
    cases hp
  · rintro ⟨i, hi, -⟩
    exact absurd hi (hno i)

/-- A system in order has the property. -/
lemma Sound.widgetsOk (hlv : lv.Documented) (hs : s.Sound) : s.WidgetsOk where
  new := by
    refine ⟨hs.shaped.once, fun hz => ?_⟩
    obtain ⟨q, hq⟩ := mem_createdIds.1 hz
    exact absurd (hs.shaped.parents _ _ hq) (not_lt_zero q)
  valid := fun w => hs.shaped.isValid_iff.trans (hs.valid w).symm
  count := hs.shaped.tallied.count
  live := by
    have hl : ∀ i < GUI_WIDGET_REGISTRY_CAPACITY,
        (s.platform.reg.slots i).counted = true ↔ s.platform.LiveAt i := by
      intro i hi
      constructor
      · intro hcnt
        exact ⟨hi, (hs.shaped.states i hi).resolve_left (of_decide_eq_true hcnt).1⟩
      · intro hl
        refine decide_eq_true ⟨?_, (hs.shaped.slot i hl).1, (hs.shaped.id_pos hl).ne'⟩
        rw [hl.2]
        exact SlotState.noConfusion
    refine ⟨((Finset.range GUI_WIDGET_REGISTRY_CAPACITY).filter fun i => (s.platform.reg.slots i).counted).image
      fun i => (s.platform.reg.slots i).id, fun w => ?_, ?_⟩
    · rw [hs.shaped.isValid_iff]
      simp only [Finset.mem_image, Finset.mem_filter, Finset.mem_range]
      constructor
      · rintro ⟨i, ⟨hi, hcnt⟩, rfl⟩
        exact ⟨i, (hl i hi).1 hcnt, rfl⟩
      · rintro ⟨i, hi, rfl⟩
        exact ⟨i, ⟨hi.1, (hl i hi.1).2 hi⟩, rfl⟩
    · rw [Finset.card_image_of_injOn]
      · exact hs.shaped.tallied.live
      · intro i hi j hj hid
        simp only [Finset.coe_filter, Finset.mem_range] at hi hj
        exact hs.shaped.ids i j ((hl i hi.1).1 hi.2) ((hl j hj.1).1 hj.2) hid
  full := by
    intro parent kind env p hc i hi
    obtain ⟨p', e, hc', hf, -⟩ | ⟨p', index, hc', -⟩ := hs.shaped.create hlv parent kind env
    · rw [hc] at hc'
      cases hc'
      have hl := hf rfl i hi
      exact ⟨hl.2, hs.shaped.isValid_iff.2 ⟨i, hl, rfl⟩⟩
    · rw [hc] at hc'
      cases hc'

end GuiSystem

/-- Every sequence of calls is a run. -/
lemma GuiSystem.exists_run (hlv : lv.Documented) (lastId : Nat) (cs : List WidgetCall) :
    ∃ t, Run GuiSystem.Step (⟨init lastId, []⟩ : GuiSystem lv) cs t := by
  have hst : ∀ s : GuiSystem lv, ∀ c ∈ cs, s.Sound → ∃ t, s.next c = some t ∧ t.Sound := by
    intro s c _ hs
    obtain ⟨t, ht, hsnd, -⟩ := hs.leads hlv c
    exact ⟨t, ht, hsnd⟩
  obtain ⟨t, ht, -⟩ := Run.exists_foldlM hst (sound_init hlv lastId)
  exact ⟨t, Run.of_foldlM ht⟩

/-- **Handles mean what the history says**, in every run over a back end that does what is documented, whatever it
refuses; and every call returns. -/
theorem widgets_ok (hlv : lv.Documented) {lastId : Nat} {cs : List WidgetCall} {t : GuiSystem lv}
    (hrun : Run GuiSystem.Step ⟨init lastId, []⟩ cs t) : t.WidgetsOk ∧ ∀ c, ∃ u, t.next c = some u := by
  have hsnd : t.Sound := by
    refine hrun.invariant ?_ (sound_init hlv lastId)
    intro s c t hs hst
    obtain ⟨u, hu, hsnd, -⟩ := hs.leads hlv c
    obtain rfl : u = t := Option.some_injective _ (hu.symm.trans hst)
    exact hsnd
  refine ⟨hsnd.widgetsOk hlv, fun c => ?_⟩
  obtain ⟨u, hu, -⟩ := hsnd.leads hlv c
  exact ⟨u, hu⟩

/-! ## A back end -/

/-- The objects of a back end in a finite map. -/
structure MapObjects where
  natives : Nat → Option Native
  live : Finset Nat
  mem : ∀ o, o ∈ live ↔ (natives o).isSome

/-- The number after the highest one in use. -/
def MapObjects.next (x : MapObjects) : Nat := x.live.sup (fun o => o) + 1

open Classical in
/-- A back end that keeps its objects in a map. Numbers of deleted objects come back, and the callbacks run in any
order. -/
noncomputable def mapLvgl : Lvgl where
  Objects := MapObjects
  start := ⟨fun _ => none, ∅, by simp⟩
  natives := MapObjects.natives
  create x _ parent :=
    (⟨update x.natives x.next (some ⟨parent, none⟩), insert x.next x.live, fun o => by
      by_cases ho : o = x.next <;> simp [ho, x.mem]⟩, x.next)
  addEventCb x obj index :=
    ⟨update x.natives obj ((x.natives obj).map fun n => ⟨n.parent, some index⟩), x.live, fun o => by
      by_cases ho : o = obj <;> simp [ho, x.mem]⟩
  delete x obj :=
    (⟨fun o => if Below x.natives obj o then none else x.natives o, x.live.filter fun o => ¬Below x.natives obj o,
      fun o => by by_cases ho : Below x.natives obj o <;> simp [ho, x.mem]⟩,
      (x.live.filter fun o => Below x.natives obj o).toList.filterMap fun o => (x.natives o).bind Native.observer)

/-- It does what is documented. -/
lemma mapLvgl_documented : mapLvgl.Documented where
  start _ := rfl
  new x _ _ := by
    refine ⟨succ_ne_zero _, Option.not_isSome_iff_eq_none.1 fun h => ?_⟩
    have hle : x.next ≤ x.live.sup fun o => o := Finset.le_sup (f := fun o => o) ((x.mem _).2 h)
    exact absurd hle (not_succ_le_self _)
  create _ _ _ := rfl
  addEventCb x obj n index hn := by
    change update x.natives obj _ = _
    rw [show x.natives obj = some n from hn]
    rfl
  delete _ _ _ _ := ⟨fun h => if_pos h, fun h => if_neg h⟩
  called x obj _ := by
    classical
    refine ⟨(x.live.filter fun o => Below x.natives obj o).toList, Finset.nodup_toList _, fun o => ?_, ?_⟩
    · rw [Finset.mem_toList, Finset.mem_filter, x.mem]
      rfl
    · rfl

/-- Nothing fails. -/
def allGranted : GuiPlatform.CreateEnv := ⟨false, true, true, true, true⟩

/-- A root with a label; the root is cleared, and another widget takes the slot. -/
theorem widgets_ok_slot_reused : ∃ t : GuiSystem mapLvgl, Run GuiSystem.Step ⟨init 0, []⟩
      [.create 0 (some .container) allGranted, .create 1 (some .label) allGranted, .clear 1 false,
        .create 1 (some .button) { allGranted with bridge := false }, .create 1 (some .button) allGranted] t ∧
      t.WidgetsOk := by
  apply (exists_run mapLvgl_documented 0 _).imp
  intro t hrun
  exact ⟨hrun, (widgets_ok mapLvgl_documented hrun).1⟩

end OS01.Libgui
