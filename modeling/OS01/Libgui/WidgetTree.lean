import OS01.Libgui.WidgetDelete

/-!
# The tree of the widgets

Between the calls the registry, the objects of the back end and the history describe one tree (`Shaped`): an object hangs
below another one if and only if the history says so of the handles (`below_iff_ancestor`). So deleting an object takes
exactly the widgets whose handles have it as an ancestor (`Shaped.destroySubtree`).
-/

namespace OS01.Libgui

open Nat GuiPlatform Relation.ReflTransGen WidgetOp

open List Lib WidgetRegistry

variable {lv : Lvgl} {natives : Nat → Option Native} {target o : Nat}

/-- What hangs below an object is itself, or its parent does. -/
lemma below_iff :
    Below natives target o ↔ o = target ∨ ∃ n, natives o = some n ∧ Below natives target n.parent := by
  constructor
  · intro h
    obtain heq | ⟨b, hb, n, hn, rfl⟩ := cases_tail h
    · exact .inl heq
    · exact .inr ⟨n, hn, hb⟩
  · rintro (rfl | ⟨n, hn, hb⟩)
    · exact .refl
    · exact hb.tail ⟨n, hn, rfl⟩

/-! ## Histories -/

variable {log : List WidgetOp} {a w c q q' : Nat} {op : WidgetOp}

lemma mem_createdIds : w ∈ createdIds log ↔ ∃ p, .created w p ∈ log := by
  unfold createdIds
  rw [mem_filterMap]
  constructor
  · rintro ⟨op, hop, heq⟩
    cases op with
    | created w' p =>
      obtain rfl : w' = w := by simpa using heq
      exact ⟨p, hop⟩
    | destroyed _ | cleared _ => cases heq
  · rintro ⟨p, hp⟩
    exact ⟨_, hp, rfl⟩

/-- A widget has one parent. -/
lemma created_unique (ho : (createdIds log).Nodup) (h : .created w q ∈ log) (h' : .created w q' ∈ log) : q = q' := by
  induction log with
  | nil => cases h
  | cons op log ih =>
    have hr : (createdIds log).Nodup := by
      cases op with
      | created _ _ => exact (nodup_cons.1 ho).2
      | destroyed _ | cleared _ => exact ho
    obtain rfl | hmem := mem_cons.1 h
    · obtain heq | hmem' := mem_cons.1 h'
      · cases heq
        rfl
      · exact absurd (mem_createdIds.2 ⟨q', hmem'⟩) (nodup_cons.1 ho).1
    · obtain rfl | hmem' := mem_cons.1 h'
      · exact absurd (mem_createdIds.2 ⟨q, hmem⟩) (nodup_cons.1 ho).1
      · exact ih hr hmem hmem'

/-- The ancestors of a widget are itself and those of its parent. -/
lemma ancestor_iff (ho : (createdIds log).Nodup) (hw : .created w q ∈ log) :
    Ancestor log a w ↔ a = w ∨ Ancestor log a q := by
  constructor
  · intro h
    obtain rfl | ⟨b, hab, hbw⟩ := cases_tail h
    · exact .inl rfl
    · rw [created_unique ho hw hbw]
      exact .inr hab
  · rintro (rfl | h)
    · exact .refl
    · exact h.tail hw

/-- Nothing but 0 is an ancestor of 0. -/
lemma ancestor_zero (hp : ∀ c q, created c q ∈ log → q < c) (h : Ancestor log a 0) : a = 0 := by
  obtain rfl | ⟨b, -, hb⟩ := cases_tail h
  · rfl
  · exact absurd (hp _ _ hb) (not_lt_zero b)

lemma ancestor_le (hp : ∀ c q, created c q ∈ log → q < c) (h : Ancestor log a w) : a ≤ w := by
  induction h with
  | refl => exact le_rfl
  | tail _ hst ih => exact ih.trans (hp _ _ hst).le

/-- Only creations make ancestors. -/
lemma ancestor_cons (hop : ∀ c q, op ≠ .created c q) :
    Ancestor (op :: log) a w ↔ Ancestor log a w := by
  have he : (fun p c => created c p ∈ op :: log) = fun p c => created c p ∈ log := by
    funext p c
    simp [(hop c p).symm]
  unfold Ancestor
  rw [he]

/-- A new widget is an ancestor of itself only. -/
lemma ancestor_created (hc : ∀ c' q', created c' q' ∈ log → q' ≠ c) (hne : w ≠ c) :
    Ancestor (.created c q :: log) a w ↔ Ancestor log a w := by
  constructor
  · intro h
    induction h with
    | refl => exact .refl
    | tail hab hbw ih =>
      obtain heq | hmem := mem_cons.1 hbw
      · cases heq
        exact absurd rfl hne
      · exact (ih (hc _ _ hmem)).tail hmem
  · intro h
    exact mono (fun _ _ hmem => mem_cons_of_mem _ hmem) _ _ h

/-- What a handle means after a call that is not a creation. -/
lemma handleValid_cons (hop : ∀ c q, op ≠ .created c q) :
    HandleValid (op :: log) w ↔ HandleValid log w ∧ (∀ a, op = .destroyed a → ¬Ancestor log a w) ∧
      ∀ a, op = .cleared a → a ≠ w → ¬Ancestor log a w := by
  constructor
  · rintro ⟨since, before, p, hlog, hdes, hclr⟩
    simp only [ancestor_cons hop] at hdes hclr
    cases since with
    | nil =>
      cases hlog
      exact absurd rfl (hop w p)
    | cons op' since =>
      cases hlog
      refine ⟨⟨since, before, p, rfl, fun a ha => hdes a (mem_cons_of_mem _ ha), fun a ha =>
        hclr a (mem_cons_of_mem _ ha)⟩, ?_, ?_⟩
      · rintro a rfl
        exact hdes a mem_cons_self
      · rintro a rfl
        exact hclr a mem_cons_self
  · rintro ⟨⟨since, before, p, rfl, hdes, hclr⟩, hop1, hop2⟩
    refine ⟨op :: since, before, p, rfl, ?_, ?_⟩
    · intro a ha
      rw [ancestor_cons hop]
      obtain heq | ha := mem_cons.1 ha
      · exact hop1 a heq.symm
      · exact hdes a ha
    · intro a ha
      rw [ancestor_cons hop]
      obtain heq | ha := mem_cons.1 ha
      · exact hop2 a heq.symm
      · exact hclr a ha

lemma HandleValid.created (h : HandleValid log w) : ∃ p, .created w p ∈ log := by
  obtain ⟨since, before, p, rfl, -⟩ := h
  exact ⟨p, by simp⟩

/-- A new handle is valid, and the others mean what they meant. -/
lemma handleValid_created (hc : ∀ c' q', created c' q' ∈ log → q' ≠ c) (hnew : c ∉ createdIds log) :
    HandleValid (.created c q :: log) w ↔ w = c ∨ HandleValid log w := by
  constructor
  · rintro ⟨since, before, p, hlog, hdes, hclr⟩
    cases since with
    | nil =>
      cases hlog
      exact .inl rfl
    | cons op since =>
      cases hlog
      have hne : w ≠ c := by
        rintro rfl
        exact hnew (mem_createdIds.2 ⟨p, by simp⟩)
      simp only [ancestor_created hc hne] at hdes hclr
      exact .inr ⟨since, before, p, rfl, fun a ha => hdes a (mem_cons_of_mem _ ha), fun a ha =>
        hclr a (mem_cons_of_mem _ ha)⟩
  · rintro (rfl | hval)
    · exact ⟨[], log, q, rfl, by simp, by simp⟩
    have hne : w ≠ c := by
      rintro rfl
      exact hnew (mem_createdIds.2 hval.created)
    obtain ⟨since, before, p, rfl, hdes, hclr⟩ := hval
    refine ⟨.created c q :: since, before, p, rfl, ?_, ?_⟩
    · intro a ha
      rw [ancestor_created hc hne]
      exact hdes a (by simpa using ha)
    · intro a ha
      rw [ancestor_created hc hne]
      exact hclr a (by simpa using ha)

/-! ## Between the calls -/

/-- A slot of a published widget. -/
def GuiPlatform.LiveAt (p : GuiPlatform lv) (i : Nat) : Prop :=
  i < GUI_WIDGET_REGISTRY_CAPACITY ∧ (p.reg.slots i).state = .live

/-- The registry, the objects and the history describe one tree. -/
structure Shaped (p : GuiPlatform lv) (log : List WidgetOp) : Prop where
  states : ∀ i < GUI_WIDGET_REGISTRY_CAPACITY, (p.reg.slots i).state = .free ∨ (p.reg.slots i).state = .live
  depth : p.reg.deleteDepth = 0
  tallied : p.reg.Tallied p.statWidgetsLive
  slot : ∀ i, p.LiveAt i → (p.reg.slots i).pendingFree = false ∧
    .created (p.reg.slots i).id (p.reg.slots i).parentId ∈ log
  ids : ∀ i j, p.LiveAt i → p.LiveAt j → (p.reg.slots i).id = (p.reg.slots j).id → i = j
  native : ∀ i, p.LiveAt i → ∃ n, p.natives (p.reg.slots i).obj = some n ∧ n.observer = some i ∧
    ((p.reg.slots i).parentId = 0 ∧ n.parent = 0 ∨
      ∃ j, p.LiveAt j ∧ (p.reg.slots j).id = (p.reg.slots i).parentId ∧ n.parent = (p.reg.slots j).obj)
  objects : ∀ o n, p.natives o = some n → ∃ i, p.LiveAt i ∧ n.observer = some i ∧ (p.reg.slots i).obj = o
  screen : p.natives 0 = none
  issued : ∀ w ∈ createdIds log, w ≤ p.lastId
  parents : ∀ c q, .created c q ∈ log → q < c
  once : (createdIds log).Nodup

namespace Shaped

variable {p : GuiPlatform lv} {r i j : Nat}

variable (hs : Shaped p log)
include hs

section

variable (hi : p.LiveAt i)
include hi

lemma id_pos : 0 < (p.reg.slots i).id :=
  (zero_le _).trans_lt (hs.parents _ _ (hs.slot i hi).2)

lemma obj_pos : 0 < (p.reg.slots i).obj := by
  obtain ⟨n, hn, -⟩ := hs.native i hi
  refine pos_of_ne_zero fun hz => ?_
  rw [hz, hs.screen] at hn
  cases hn

lemma isSome_native : (p.natives (p.reg.slots i).obj).isSome := by
  obtain ⟨n, hn, -⟩ := hs.native i hi
  rw [hn, Option.isSome_some]

/-- An object belongs to one slot. -/
lemma obj_inj (hj : p.LiveAt j)
    (heq : (p.reg.slots i).obj = (p.reg.slots j).obj) : i = j := by
  obtain ⟨n, hn, hobs, -⟩ := hs.native i hi
  obtain ⟨m, hm, hobs', -⟩ := hs.native j hj
  rw [heq, hm] at hn
  cases hn
  exact Option.some_injective _ (hobs.symm.trans hobs')

/-- A proper descendant of a widget hangs below a child of it. -/
lemma exists_child (hw : w ≠ 0)
    (hanc : Ancestor log w (p.reg.slots i).id) (hne : w ≠ (p.reg.slots i).id) :
    ∃ j, p.LiveAt j ∧ (p.reg.slots j).parentId = w := by
  induction hid : (p.reg.slots i).id using Nat.strong_induction_on generalizing i with
  | _ id ih =>
    subst hid
    have hcre := (hs.slot i hi).2
    have hup := ((ancestor_iff hs.once hcre).1 hanc).resolve_left hne
    by_cases hpar : (p.reg.slots i).parentId = w
    · exact ⟨i, hi, hpar⟩
    · obtain ⟨n, -, -, ⟨hz, -⟩ | ⟨j, hj, hid, -⟩⟩ := hs.native i hi
      · rw [hz] at hup
        exact absurd (ancestor_zero hs.parents hup) hw
      · rw [← hid] at hup hpar
        exact ih _ (hid ▸ hs.parents _ _ hcre) hj hup (Ne.symm hpar) rfl

end

/-- **One tree.** An object hangs below another one if the handle of that one is an ancestor. -/
lemma below_iff_ancestor (hr : p.LiveAt r) (hi : p.LiveAt i) :
    Below p.natives (p.reg.slots r).obj (p.reg.slots i).obj ↔
      Ancestor log (p.reg.slots r).id (p.reg.slots i).id := by
  -- from a widget to its parent, whose identifier is smaller
  induction hid : (p.reg.slots i).id using Nat.strong_induction_on generalizing i with
  | _ id ih =>
    subst hid
    obtain ⟨n, hn, -, hpar⟩ := hs.native i hi
    have hcre := (hs.slot i hi).2
    have hsl : (p.reg.slots i).obj = (p.reg.slots r).obj ↔ (p.reg.slots r).id = (p.reg.slots i).id := by
      constructor
      · intro heq
        rw [hs.obj_inj hi hr heq]
      · intro heq
        rw [hs.ids r i hr hi heq]
    have hup : Below p.natives (p.reg.slots r).obj n.parent ↔
        Ancestor log (p.reg.slots r).id (p.reg.slots i).parentId := by
      obtain ⟨hz, hscreen⟩ | ⟨j, hj, hid, hobj⟩ := hpar
      · rw [hz, hscreen, below_iff, hs.screen]
        constructor
        · rintro (heq | ⟨m, hm, -⟩)
          · exact absurd heq (hs.obj_pos hr).ne
          · cases hm
        · intro h
          exact absurd (ancestor_zero hs.parents h) (hs.id_pos hr).ne'
      · rw [hobj, ← hid]
        exact ih _ (hid ▸ hs.parents _ _ hcre) hj rfl
    rw [below_iff, ancestor_iff hs.once hcre, ← hup, hsl]
    simp [hn]

/-! ## Destroying a subtree -/

/-- The slots whose observers are called. -/
lemma mem_called (hlv : lv.Documented) (hr : p.LiveAt r) : i ∈ (lv.delete p.objects (p.reg.slots r).obj).2 ↔
      p.LiveAt i ∧ Ancestor log (p.reg.slots r).id (p.reg.slots i).id := by
  obtain ⟨objs, -, hmem, hcalled⟩ := hlv.called p.objects _ (hs.isSome_native hr)
  rw [hcalled, mem_filterMap]
  constructor
  · rintro ⟨o, ho, hobs⟩
    obtain ⟨hn, hbel⟩ := (hmem o).1 ho
    obtain ⟨n, hn⟩ := Option.isSome_iff_exists.1 hn
    obtain ⟨j, hj, hobs', rfl⟩ := hs.objects o n hn
    rw [hn, Option.bind_some, hobs'] at hobs
    cases hobs
    exact ⟨hj, (hs.below_iff_ancestor hr hj).1 hbel⟩
  · rintro ⟨hi, hanc⟩
    obtain ⟨n, hn, hobs, -⟩ := hs.native i hi
    refine ⟨(p.reg.slots i).obj, (hmem _).2 ⟨hs.isSome_native hi, (hs.below_iff_ancestor hr hi).2 hanc⟩, ?_⟩
    rw [natives] at hn
    rw [hn]
    exact hobs

/-- Being below a widget passes from a widget to its children. -/
lemma inherited :
    Inherited (fun i => i < GUI_WIDGET_REGISTRY_CAPACITY ∧ Ancestor log (p.reg.slots r).id (p.reg.slots i).id) p.reg := by
  rintro i j ⟨-, hanc⟩ - hj hl hpar
  refine ⟨hj, (ancestor_iff hs.once (hs.slot j ⟨hj, hl⟩).2).2 (.inr ?_)⟩
  rw [hpar]
  exact hanc

variable (hlv : lv.Documented)
include hlv

/-- What `widget_destroy_subtree` leaves: the slots of the subtree are free, and its objects are gone. -/
lemma destroySubtree_slots (hr : p.LiveAt r) :
    ∃ p', p.destroySubtree r = some p' ∧ p'.reg.Tallied p'.statWidgetsLive ∧ p'.reg.deleteDepth = 0 ∧
      p'.lastId = p.lastId ∧ p'.objects = (lv.delete p.objects (p.reg.slots r).obj).1 ∧
      ∀ i, p.LiveAt i ∧ Ancestor log (p.reg.slots r).id (p.reg.slots i).id ∧ p'.reg.slots i = .reset ∨
        ¬(p.LiveAt i ∧ Ancestor log (p.reg.slots r).id (p.reg.slots i).id) ∧ p'.reg.slots i = p.reg.slots i := by
  have hfew : p.reg.tally isLive < GUI_WIDGET_REGISTRY_CAPACITY + 1 :=
    lt_succ_of_le ((Finset.card_filter_le _ _).trans (Finset.card_range _).le)
  obtain ⟨reg, hm, hmks⟩ := markSubtree_spec hfew (hs.inherited (r := r)) ⟨hr.1, .refl⟩ hr.1
  have hobj : (reg.slots r).obj = (p.reg.slots r).obj := by
    obtain hsm | ⟨-, -, -, hm⟩ := hmks.slots r
    · rw [hsm]
    · rw [hm]
      rfl
  -- the objects are deleted, and their observers called, on the marked registry
  generalize hcalled : (lv.delete p.objects (p.reg.slots r).obj).2 = called
  have hmem : ∀ i, i ∈ called ↔ p.LiveAt i ∧ Ancestor log (p.reg.slots r).id (p.reg.slots i).id := by
    intro i
    rw [← hcalled]
    exact hs.mem_called hlv hr
  let q : GuiPlatform lv := { p with
      reg := { reg with deleteDepth := reg.deleteDepth + 1 }
      objects := (lv.delete p.objects (p.reg.slots r).obj).1 }
  have hdep : reg.deleteDepth = 0 := by
    have hrs : reg.deleteDepth = p.reg.deleteDepth := by rw [← hmks.rest]
    rw [hrs, hs.depth]
  have hu : ∀ i ∈ called, i < GUI_WIDGET_REGISTRY_CAPACITY ∧ (q.reg.slots i).state ≠ .free := by
    intro i hi
    obtain ⟨⟨hcap, hl⟩, -⟩ := (hmem i).1 hi
    refine ⟨hcap, ?_⟩
    obtain hsm | ⟨-, -, -, hm⟩ := hmks.slots i
    · rw [hsm, hl]
      decide
    · rw [hm]
      exact SlotState.noConfusion
  obtain ⟨hobjects, hls, hdep'⟩ := @foldl_onNativeDelete_rest lv q called
  have hmkd := hmks.tallied hs.tallied
  have htal := tallied_foldl_onNativeDelete (p := q) ⟨hmkd.count, hmkd.live⟩ called
  have hsl : ∀ j, _ := fun j => foldl_onNativeDelete (j := j) hu
  generalize hq : called.foldl onNativeDelete q = q' at *
  have hz : ({ q'.reg with deleteDepth := q'.reg.deleteDepth - 1 } : WidgetRegistry).deleteDepth = 0 := by
    rw [hdep']
    exact hdep
  refine ⟨{ q' with reg := WidgetRegistry.reap { q'.reg with deleteDepth := q'.reg.deleteDepth - 1 } }, ?_,
    Tallied.reap ⟨htal.count, htal.live⟩, reap_deleteDepth hz, hls, hobjects, fun i => ?_⟩
  · rw [destroySubtree, hm]
    dsimp only
    rw [hobj, if_pos (hs.obj_pos hr).ne', ← hq, ← hcalled]
    rfl
  dsimp only
  rw [reap_slots hz]
  rw [hsl i]
  by_cases hi : i ∈ called
  · obtain ⟨hl, hanc⟩ := (hmem i).1 hi
    rw [if_pos hi, if_pos ⟨hl.1, rfl, rfl⟩]
    exact .inl ⟨hl, hanc, rfl⟩
  have hsm : q.reg.slots i = p.reg.slots i := by
    obtain hsm | ⟨⟨hcap, hanc⟩, -, hl, -⟩ := hmks.slots i
    · exact hsm
    · exact absurd ((hmem i).2 ⟨⟨hcap, hl⟩, hanc⟩) hi
  rw [if_neg hi, hsm, if_neg]
  · exact .inr ⟨fun h => hi ((hmem i).2 h), rfl⟩
  · rintro ⟨hcap, hdying, -⟩
    rcases hs.states i hcap with hst | hst <;> rw [hst] at hdying <;> cases hdying

/-- **Destroying a subtree** takes the widgets below its root, and leaves a tree. -/
theorem destroySubtree (hr : p.LiveAt r) :
    ∃ p', p.destroySubtree r = some p' ∧ Shaped p' log ∧ p'.lastId = p.lastId ∧
      (∀ i, p'.LiveAt i ↔ p.LiveAt i ∧ ¬Ancestor log (p.reg.slots r).id (p.reg.slots i).id) ∧
      ∀ i, p'.LiveAt i → p'.reg.slots i = p.reg.slots i := by
  obtain ⟨p', hc, htal, hdep, hls, hobjects, hsl⟩ := hs.destroySubtree_slots hlv hr
  have hgone := hlv.delete p.objects _ (hs.isSome_native hr)
  rw [← hobjects] at hgone
  have hsm : ∀ i, p'.LiveAt i → p'.reg.slots i = p.reg.slots i ∧ p.LiveAt i ∧
      ¬Ancestor log (p.reg.slots r).id (p.reg.slots i).id := by
    rintro i ⟨hcap, hl⟩
    obtain ⟨-, -, hreset⟩ | ⟨hnot, hsm⟩ := hsl i
    · rw [hreset] at hl
      cases hl
    · rw [hsm] at hl
      exact ⟨hsm, ⟨hcap, hl⟩, fun hanc => hnot ⟨⟨hcap, hl⟩, hanc⟩⟩
  have hkp : ∀ i, p.LiveAt i → ¬Ancestor log (p.reg.slots r).id (p.reg.slots i).id →
      p'.LiveAt i ∧ p'.reg.slots i = p.reg.slots i := by
    rintro i hi hanc
    obtain ⟨-, hanc', -⟩ | ⟨-, hsm⟩ := hsl i
    · exact absurd hanc' hanc
    · exact ⟨⟨hi.1, by rw [hsm]; exact hi.2⟩, hsm⟩
  -- an object stays if its widget does
  have hobject : ∀ i, p.LiveAt i → ¬Ancestor log (p.reg.slots r).id (p.reg.slots i).id →
      p'.natives (p.reg.slots i).obj = p.natives (p.reg.slots i).obj := by
    intro i hi hanc
    exact (hgone _).2 (mt (hs.below_iff_ancestor hr hi).1 hanc)
  refine ⟨p', hc, ⟨?_, hdep, htal, ?_, ?_, ?_, ?_, ?_, hls ▸ hs.issued, hs.parents, hs.once⟩,
    hls, fun i => ⟨fun hi => (hsm i hi).2, fun hi => (hkp i hi.1 hi.2).1⟩, fun i hi => (hsm i hi).1⟩
  · intro i hcap
    obtain ⟨-, -, hreset⟩ | ⟨-, hsm⟩ := hsl i
    · exact .inl (by rw [hreset]; rfl)
    · rw [hsm]
      exact hs.states i hcap
  · intro i hi
    obtain ⟨hslot, hi, -⟩ := hsm i hi
    rw [hslot]
    exact hs.slot i hi
  · intro i j hi hj hid
    obtain ⟨hslot, hi, -⟩ := hsm i hi
    obtain ⟨hslotj, hj, -⟩ := hsm j hj
    rw [hslot, hslotj] at hid
    exact hs.ids i j hi hj hid
  · intro i hi
    obtain ⟨hslot, hi, hanc⟩ := hsm i hi
    obtain ⟨n, hn, hobs, hpar⟩ := hs.native i hi
    rw [hslot, hobject i hi hanc]
    refine ⟨n, hn, hobs, hpar.imp_right ?_⟩
    rintro ⟨j, hj, hid, hobj⟩
    have ha : ¬Ancestor log (p.reg.slots r).id (p.reg.slots j).id := by
      intro ha
      rw [hid] at ha
      exact hanc ((ancestor_iff hs.once (hs.slot i hi).2).2 (.inr ha))
    obtain ⟨hlivej, hslotj⟩ := hkp j hj ha
    exact ⟨j, hlivej, by rw [hslotj]; exact hid, by rw [hslotj]; exact hobj⟩
  · intro o n hn
    have hbel : ¬Below p.natives (p.reg.slots r).obj o := by
      intro hbel
      rw [natives, (hgone o).1 hbel] at hn
      cases hn
    rw [natives, (hgone o).2 hbel] at hn
    obtain ⟨i, hi, hobs, rfl⟩ := hs.objects o n hn
    obtain ⟨hl, hslot⟩ := hkp i hi (mt (hs.below_iff_ancestor hr hi).2 hbel)
    exact ⟨i, hl, hobs, by rw [hslot]⟩
  · by_cases hbel : Below p.natives (p.reg.slots r).obj 0
    · exact (hgone 0).1 hbel
    · exact ((hgone 0).2 hbel).trans hs.screen

/-! ## Clearing a widget -/

/-- The loop of `gui_widget_clear` over some slots. -/
lemma clearLoop_fold {l : List Nat} (hl : ∀ i ∈ l, i < GUI_WIDGET_REGISTRY_CAPACITY) :
    ∃ p', l.foldlM (fun p i => if (p.reg.slots i).state = .live ∧ (p.reg.slots i).parentId = w then
        p.destroySubtree i else some p) p = some p' ∧ Shaped p' log ∧ p'.lastId = p.lastId ∧
      (∀ i, p'.LiveAt i → p.LiveAt i ∧ p'.reg.slots i = p.reg.slots i) ∧
      (∀ i, p.LiveAt i → (w ≠ (p.reg.slots i).id → ¬Ancestor log w (p.reg.slots i).id) → p'.LiveAt i) ∧
      ∀ i ∈ l, p'.LiveAt i → (p'.reg.slots i).parentId ≠ w := by
  induction l generalizing p with
  | nil => exact ⟨p, rfl, hs, rfl, fun i hi => ⟨hi, rfl⟩, fun i hi _ => hi, by simp⟩
  | cons r l ih =>
    have hl' : ∀ i ∈ l, i < GUI_WIDGET_REGISTRY_CAPACITY := fun i hi => hl i (mem_cons_of_mem _ hi)
    rw [foldlM_cons]
    by_cases hch : (p.reg.slots r).state = .live ∧ (p.reg.slots r).parentId = w
    · have hr : p.LiveAt r := ⟨hl r mem_cons_self, hch.1⟩
      obtain ⟨p1, hc, hs1, hls1, hl1, hsl1⟩ := hs.destroySubtree hlv hr
      obtain ⟨p', hf, hs', hls', hb, hk, hd⟩ := ih hs1 hl'
      rw [if_pos hch, hc]
      refine ⟨p', hf, hs', hls'.trans hls1, ?_, ?_, ?_⟩
      · intro i hi
        obtain ⟨hi1, hsl⟩ := hb i hi
        exact ⟨((hl1 i).1 hi1).1, hsl.trans (hsl1 i hi1)⟩
      · intro i hi hnot
        have hcre := (hs.slot r hr).2
        rw [hch.2] at hcre
        have hi1 : p1.LiveAt i := by
          refine (hl1 i).2 ⟨hi, fun hanc => ?_⟩
          have hlt := hs.parents _ _ hcre
          have hle := ancestor_le hs.parents hanc
          exact hnot (by omega) (head hcre hanc)
        refine hk i hi1 ?_
        rw [hsl1 i hi1]
        exact hnot
      · intro i hi hlv
        obtain rfl | hi := mem_cons.1 hi
        · exact absurd .refl ((hl1 i).1 (hb i hlv).1).2
        · exact hd i hi hlv
    · obtain ⟨p', hf, hs', hls', hb, hk, hd⟩ := ih hs hl'
      rw [if_neg hch]
      refine ⟨p', hf, hs', hls', hb, hk, ?_⟩
      intro i hi hlv
      obtain rfl | hi := mem_cons.1 hi
      · obtain ⟨hi', hsl⟩ := hb i hlv
        rw [hsl]
        exact fun hpar => hch ⟨hi'.2, hpar⟩
      · exact hd i hi hlv

/-- **Clearing** takes the widgets below a widget, but not the widget. -/
theorem clearLoop (hw : w ≠ 0) : ∃ p', p.clearLoop w = some p' ∧ Shaped p' log ∧ p'.lastId = p.lastId ∧
      (∀ i, p'.LiveAt i ↔ p.LiveAt i ∧ (w ≠ (p.reg.slots i).id → ¬Ancestor log w (p.reg.slots i).id)) ∧
      ∀ i, p'.LiveAt i → p'.reg.slots i = p.reg.slots i := by
  obtain ⟨p', hf, hs', hl, hb, hk, hd⟩ := hs.clearLoop_fold hlv (w := w) fun i hi => mem_range.1 hi
  refine ⟨p', hf, hs', hl, fun i => ⟨fun hi => ?_, fun hi => hk i hi.1 hi.2⟩, fun i hi => (hb i hi).2⟩
  obtain ⟨hi', hsl⟩ := hb i hi
  refine ⟨hi', fun hne hanc => ?_⟩
  rw [← hsl] at hne hanc
  obtain ⟨j, hj, hpar⟩ := hs'.exists_child hi hw hanc hne
  exact hd j (mem_range.2 hj.1) hj hpar

end Shaped

end OS01.Libgui
