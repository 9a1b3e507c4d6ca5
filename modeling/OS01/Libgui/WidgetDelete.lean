import OS01.Libgui.Widget

/-!
# Deleting a subtree

What the parts of `widget_destroy_subtree` do to the registry: marking touches only live slots of the subtree
(`markSubtree_spec`), the callbacks reach exactly the slots whose objects are deleted (`foldl_onNativeDelete`), and
reaping frees what the callbacks have confirmed (`reap_slots`). The two counters stay right at every single store
(`Tallied`).
-/

namespace OS01.Libgui

open List Function WidgetSlot Lib

/-- A slot that is not free. -/
def WidgetSlot.used (slot : WidgetSlot) : Bool := slot.state ≠ .free

/-- A slot that counts as a widget: it has its identifier, and no callback has confirmed its end. -/
def WidgetSlot.counted (slot : WidgetSlot) : Bool := slot.state ≠ .free ∧ slot.pendingFree = false ∧ slot.id ≠ 0

/-- The number of slots of a kind. -/
abbrev WidgetRegistry.tally (reg : WidgetRegistry) (kind : WidgetSlot → Bool) : Nat :=
  countOn (Finset.range GUI_WIDGET_REGISTRY_CAPACITY) kind reg.slots

/-- The counters agree with the slots. -/
structure WidgetRegistry.Tallied (reg : WidgetRegistry) (statWidgetsLive : Nat) : Prop where
  count : reg.count = reg.tally WidgetSlot.used
  live : statWidgetsLive = reg.tally WidgetSlot.counted

namespace WidgetRegistry

variable {reg reg' reg'' : WidgetRegistry} {i j : Nat} {slot : WidgetSlot} {P : Nat → Prop}

@[simp] lemma setSlot_self : (reg.setSlot i slot).slots i = slot := update_self _ _ _

lemma setSlot_of_ne (h : j ≠ i) : (reg.setSlot i slot).slots j = reg.slots j := update_of_ne h _ _

/-- Storing a slot moves a tally by what the old and the new slot are. -/
lemma tally_setSlot (slot : WidgetSlot) (hi : i < GUI_WIDGET_REGISTRY_CAPACITY) (kind : WidgetSlot → Bool) :
    (reg.setSlot i slot).tally kind + (kind (reg.slots i)).toNat = reg.tally kind + (kind slot).toNat :=
  countOn_update (Finset.mem_range.2 hi) slot

/-- The counters stay right if they move by what the old and the new slot are. -/
lemma Tallied.set {live live' : Nat} (ht : reg.Tallied live) (hi : i < GUI_WIDGET_REGISTRY_CAPACITY)
    (hsl : reg'.slots = update reg.slots i slot)
    (hcnt : reg'.count + (reg.slots i).used.toNat = reg.count + slot.used.toNat)
    (hl : live' + (reg.slots i).counted.toNat = live + slot.counted.toNat) : reg'.Tallied live' := by
  have hs : ∀ kind, reg'.tally kind + (kind (reg.slots i)).toNat = reg.tally kind + (kind slot).toNat := by
    intro kind
    rw [tally, hsl]
    exact tally_setSlot slot hi kind
  have hu := hs used
  have hcounted := hs counted
  rw [← ht.count] at hu
  rw [← ht.live] at hcounted
  exact ⟨by omega, by omega⟩

/-! ## Marking -/

/-- Some live slots with the property are being destroyed now; nothing else has changed. -/
structure Marks (P : Nat → Prop) (reg reg' : WidgetRegistry) : Prop where
  slots : ∀ i, reg'.slots i = reg.slots i ∨
    P i ∧ i < GUI_WIDGET_REGISTRY_CAPACITY ∧ (reg.slots i).state = .live ∧
      reg'.slots i = (reg.slots i).setState .destroying
  rest : { reg' with slots := reg.slots } = reg

namespace Marks

lemma refl (P : Nat → Prop) (reg : WidgetRegistry) : Marks P reg reg := ⟨fun _ => .inl rfl, rfl⟩

lemma trans (h : Marks P reg reg') (h' : Marks P reg' reg'') : Marks P reg reg'' where
  slots := by
    intro i
    obtain hs | ⟨hP, hi, hl, hm⟩ := h'.slots i
    · rw [hs]
      exact h.slots i
    · obtain hs | ⟨-, -, -, hm'⟩ := h.slots i
      · rw [hs] at hl hm
        exact .inr ⟨hP, hi, hl, hm⟩
      · rw [hm'] at hl
        cases hl
  rest := by
    have h1 := h.rest
    have h2 := h'.rest
    cases reg'
    simp only [mk.injEq] at h1 h2 ⊢
    simp [h1, h2]

lemma live (h : Marks P reg reg') (hl : (reg'.slots i).state = .live) : reg'.slots i = reg.slots i := by
  obtain hs | ⟨-, -, -, hm⟩ := h.slots i
  · exact hs
  · rw [hm] at hl
    cases hl

/-- Marking changes no tally that does not look at live slots. -/
lemma tally_eq (h : Marks P reg reg') {kind : WidgetSlot → Bool}
    (hk : ∀ slot : WidgetSlot, slot.state = .live → kind (slot.setState .destroying) = kind slot) :
    reg'.tally kind = reg.tally kind := by
  refine countOn_congr fun i _ => ?_
  obtain hs | ⟨-, -, hl, hm⟩ := h.slots i
  · rw [hs]
  · rw [hm, hk _ hl]

end Marks

/-- A live slot. -/
def isLive (slot : WidgetSlot) : Bool := slot.state = .live

/-- A property that passes from live slots to their live children. -/
def Inherited (P : Nat → Prop) (reg : WidgetRegistry) : Prop :=
  ∀ i j, P i → (reg.slots i).state = .live → j < GUI_WIDGET_REGISTRY_CAPACITY → (reg.slots j).state = .live →
    (reg.slots j).parentId = (reg.slots i).id → P j

lemma Inherited.of_marks (hP : Inherited P reg) (h : Marks P reg reg') : Inherited P reg' := by
  intro i j hi hl hj hlivej hpar
  have hs := h.live hl
  have hsamej := h.live hlivej
  rw [hs] at hl hpar
  rw [hsamej] at hlivej hpar
  exact hP i j hi hl hj hlivej hpar

lemma Marks.tally_le (h : Marks P reg reg') : reg'.tally isLive ≤ reg.tally isLive := by
  refine countOn_le fun i _ hl => ?_
  rw [← h.live (of_decide_eq_true hl)]
  exact hl

/-- **Marking** ends, and touches only live slots of the subtree. -/
lemma markSubtree_spec {depth : Nat} (hdep : reg.tally isLive < depth) (hP : Inherited P reg) (hi : P i)
    (hcap : i < GUI_WIDGET_REGISTRY_CAPACITY) :
    ∃ reg', reg.markSubtree depth i = some reg' ∧ Marks P reg reg' := by
  induction depth generalizing reg i with
  | zero => exact absurd hdep (Nat.not_lt_zero _)
  | succ depth ih =>
    rw [markSubtree]
    by_cases hl : (reg.slots i).state = .live
    · rw [if_neg (not_not.2 hl)]
      -- the slot itself
      have hm : Marks P reg (reg.setSlot i ((reg.slots i).setState .destroying)) := by
        refine ⟨fun j => ?_, rfl⟩
        by_cases hj : j = i
        · subst hj
          exact .inr ⟨hi, hcap, hl, setSlot_self⟩
        · exact .inl (setSlot_of_ne hj)
      have hfewer : (reg.setSlot i ((reg.slots i).setState .destroying)).tally isLive < depth := by
        have htally := @tally_setSlot reg i ((reg.slots i).setState .destroying) hcap isLive
        have hwas : isLive (reg.slots i) = true := decide_eq_true hl
        have hnow : isLive ((reg.slots i).setState .destroying) = false := rfl
        rw [hwas, hnow, Bool.toNat_true, Bool.toNat_false] at htally
        omega
      -- its children, one after the other
      have hst : ∀ reg', ∀ j ∈ range GUI_WIDGET_REGISTRY_CAPACITY,
          Marks P reg reg' ∧ reg'.tally isLive < depth →
          ∃ reg'', (if (reg'.slots j).state = .live ∧ (reg'.slots j).parentId = (reg.slots i).id then
              reg'.markSubtree depth j else some reg') = some reg'' ∧ Marks P reg reg'' ∧ reg''.tally isLive < depth := by
        intro reg' j hj hI
        split_ifs with hch
        · have hs := hI.1.live hch.1
          rw [hs] at hch
          have hPj := hP i j hi hl (mem_range.1 hj) hch.1 hch.2
          obtain ⟨reg'', hrec, hmks⟩ := ih hI.2 (hP.of_marks hI.1) hPj (mem_range.1 hj)
          exact ⟨reg'', hrec, hI.1.trans hmks, hmks.tally_le.trans_lt hI.2⟩
        · exact ⟨reg', rfl, hI⟩
      obtain ⟨reg', hf, hmks, -⟩ := Run.exists_foldlM hst ⟨hm, hfewer⟩
      exact ⟨reg', hf, hmks⟩
    · rw [if_pos hl]
      exact ⟨reg, rfl, .refl P reg⟩

lemma Marks.tallied (h : Marks P reg reg') {live : Nat} (ht : reg.Tallied live) : reg'.Tallied live where
  count := by
    have hu : reg'.tally used = reg.tally used := h.tally_eq fun slot hl => by simp [used, setState, hl]
    have hcnt : reg'.count = reg.count := by rw [← h.rest]
    rw [hu, hcnt]
    exact ht.count
  live := by
    have hcounted : reg'.tally counted = reg.tally counted :=
      h.tally_eq fun slot hl => by simp [counted, setState, hl]
    rw [hcounted]
    exact ht.live

/-! ## Freeing slots -/

lemma release_slots : (reg.release i).slots = update reg.slots i
    (if (reg.slots i).state = .free then reg.slots i else .reset) := by
  unfold release
  split_ifs with hf
  · rw [update_eq_self]
  all_goals rfl

@[simp] lemma release_deleteDepth : (reg.release i).deleteDepth = reg.deleteDepth := by
  unfold release
  split_ifs <;> rfl

/-- A slot that does not count as a widget can be freed. -/
lemma Tallied.release {live : Nat} (ht : reg.Tallied live) (hi : i < GUI_WIDGET_REGISTRY_CAPACITY)
    (hnot : (reg.slots i).counted = false) : (reg.release i).Tallied live := by
  unfold WidgetRegistry.release
  by_cases hf : (reg.slots i).state = .free
  · rw [if_pos hf]
    exact ht
  have hwas : (reg.slots i).used = true := decide_eq_true hf
  have hpos : 0 < reg.count := by
    rw [ht.count]
    exact countOn_pos (Finset.mem_range.2 hi) hwas
  rw [if_neg hf, if_pos hpos]
  refine ht.set hi rfl ?_ ?_
  · rw [hwas]
    exact Nat.sub_add_cancel hpos
  · rw [hnot]
    rfl

/-- A slot whose end a callback has confirmed. -/
def confirmed (slot : WidgetSlot) : Prop := slot.state = .destroying ∧ slot.pendingFree = true

instance (slot : WidgetSlot) : Decidable (confirmed slot) := inferInstanceAs (Decidable (_ ∧ _))

/-- The loop of `registry_reap`. -/
def reapOne (reg : WidgetRegistry) (i : Nat) : WidgetRegistry := if confirmed (reg.slots i) then reg.release i else reg

lemma reapOne_slots : (reg.reapOne i).slots j = if j = i ∧ confirmed (reg.slots j) then .reset else reg.slots j := by
  unfold reapOne
  by_cases hji : j = i
  · subst hji
    by_cases hc : confirmed (reg.slots j)
    · rw [if_pos hc, if_pos ⟨rfl, hc⟩, release_slots, update_self, if_neg (by rw [hc.1]; decide)]
    · rw [if_neg hc, if_neg fun h => hc h.2]
  · have hnot : ¬(j = i ∧ confirmed (reg.slots j)) := fun h => hji h.1
    rw [if_neg hnot]
    by_cases hc : confirmed (reg.slots i)
    · rw [if_pos hc, release_slots, update_of_ne hji]
    · rw [if_neg hc]

lemma foldl_reapOne_slots (l : List Nat) :
    (l.foldl reapOne reg).slots j = if j ∈ l ∧ confirmed (reg.slots j) then .reset else reg.slots j := by
  induction l generalizing reg with
  | nil => simp
  | cons i l ih =>
    rw [foldl_cons, ih, reapOne_slots]
    by_cases hji : j = i
    · subst hji
      by_cases hc : confirmed (reg.slots j)
      all_goals simp [hc]
    · simp [hji]

section

variable (hdep : reg.deleteDepth = 0)
include hdep

lemma reap_eq :
    reg.reap = (range GUI_WIDGET_REGISTRY_CAPACITY).foldl reapOne reg := by
  rw [reap, if_neg (by omega)]
  rfl

/-- **Reaping** frees what was confirmed. -/
lemma reap_slots : reg.reap.slots j =
      if j < GUI_WIDGET_REGISTRY_CAPACITY ∧ confirmed (reg.slots j) then .reset else reg.slots j := by
  rw [reap_eq hdep, foldl_reapOne_slots]
  simp

lemma reap_deleteDepth : reg.reap.deleteDepth = 0 := by
  rw [reap_eq hdep]
  generalize range GUI_WIDGET_REGISTRY_CAPACITY = l
  induction l generalizing reg with
  | nil => exact hdep
  | cons i l ih =>
    refine ih ?_
    unfold reapOne
    split_ifs
    · rw [release_deleteDepth, hdep]
    · exact hdep

end

lemma Tallied.reap {live : Nat} (ht : reg.Tallied live) : reg.reap.Tallied live := by
  by_cases hdep : 0 < reg.deleteDepth
  · rw [WidgetRegistry.reap, if_pos hdep]
    exact ht
  rw [reap_eq (by omega)]
  have hl : ∀ i ∈ range GUI_WIDGET_REGISTRY_CAPACITY, i < GUI_WIDGET_REGISTRY_CAPACITY :=
    fun i hi => mem_range.1 hi
  generalize range GUI_WIDGET_REGISTRY_CAPACITY = l at hl
  clear hdep
  induction l generalizing reg with
  | nil => exact ht
  | cons i l ih =>
    refine ih ?_ fun j hj => hl j (mem_cons_of_mem _ hj)
    unfold reapOne
    split_ifs with hc
    · exact ht.release (hl i mem_cons_self) (by simp [counted, hc.2])
    · exact ht

/-- Where nothing is being destroyed there is nothing to reap. -/
lemma reap_eq_self (hn : ∀ i < GUI_WIDGET_REGISTRY_CAPACITY, (reg.slots i).state ≠ .destroying) : reg.reap = reg := by
  by_cases hdep : 0 < reg.deleteDepth
  · rw [reap, if_pos hdep]
  · rw [reap_eq (by omega)]
    refine foldlRecOn (motive := fun reg' => reg' = reg) _ _ rfl ?_
    rintro _ rfl i hi
    exact if_neg fun hc => hn i (mem_range.1 hi) hc.1

end WidgetRegistry

/-! ## Callbacks -/

namespace GuiPlatform

open WidgetRegistry

variable {lv : Lvgl} {p : GuiPlatform lv} {i j : Nat}

lemma onNativeDelete_slots (hi : i < GUI_WIDGET_REGISTRY_CAPACITY) (hu : (p.reg.slots i).state ≠ .free) :
    (p.onNativeDelete i).reg.slots j =
      if j = i then (p.reg.slots j).setPending.setState .destroying else p.reg.slots j := by
  unfold onNativeDelete
  rw [if_neg (by omega), if_neg hu]
  by_cases hji : j = i
  · subst hji
    rw [if_pos rfl]
    exact setSlot_self
  · rw [if_neg hji]
    exact setSlot_of_ne hji

/-- A callback changes the registry and the statistics only. -/
lemma onNativeDelete_rest : (p.onNativeDelete i).objects = p.objects ∧ (p.onNativeDelete i).lastId = p.lastId ∧
    (p.onNativeDelete i).reg.deleteDepth = p.reg.deleteDepth := by
  unfold onNativeDelete
  dsimp only
  split_ifs <;> exact ⟨rfl, rfl, rfl⟩

lemma tallied_onNativeDelete (ht : p.reg.Tallied p.statWidgetsLive) :
    (p.onNativeDelete i).reg.Tallied (p.onNativeDelete i).statWidgetsLive := by
  unfold onNativeDelete
  by_cases hcap : GUI_WIDGET_REGISTRY_CAPACITY ≤ i
  · rw [if_pos hcap]
    exact ht
  by_cases hf : (p.reg.slots i).state = .free
  · rw [if_neg hcap, if_pos hf]
    exact ht
  rw [if_neg hcap, if_neg hf]
  have hwas : (p.reg.slots i).used = true := decide_eq_true hf
  have hnow : ((p.reg.slots i).setPending.setState .destroying).counted = false := by
    simp [counted, setState, setPending]
  refine ht.set (not_le.1 hcap) rfl (by rw [hwas]; rfl) ?_
  dsimp only
  by_cases hc : (p.reg.slots i).pendingFree = false ∧ (p.reg.slots i).id ≠ 0
  · have hcnt : (p.reg.slots i).counted = true := decide_eq_true ⟨hf, hc⟩
    have hpos : 0 < p.statWidgetsLive := by
      rw [ht.live]
      exact countOn_pos (Finset.mem_range.2 (not_le.1 hcap)) hcnt
    rw [if_pos ⟨hc, hpos⟩, hcnt]
    exact Nat.sub_add_cancel hpos
  · have hcnt : (p.reg.slots i).counted = false := decide_eq_false fun h => hc h.2
    rw [if_neg fun h => hc h.1, hcnt, hnow]

/-- **The callbacks** reach exactly the slots that they name. -/
lemma foldl_onNativeDelete {l : List Nat}
    (hl : ∀ i ∈ l, i < GUI_WIDGET_REGISTRY_CAPACITY ∧ (p.reg.slots i).state ≠ .free) :
    (l.foldl onNativeDelete p).reg.slots j =
      if j ∈ l then (p.reg.slots j).setPending.setState .destroying else p.reg.slots j := by
  induction l generalizing p with
  | nil => simp
  | cons i l ih =>
    obtain ⟨hi, hu⟩ := hl i mem_cons_self
    have hs : ∀ k, (p.onNativeDelete i).reg.slots k =
        if k = i then (p.reg.slots k).setPending.setState .destroying else p.reg.slots k :=
      fun k => onNativeDelete_slots hi hu
    rw [foldl_cons, ih fun k hk => ⟨(hl k (mem_cons_of_mem _ hk)).1, ?_⟩, hs]
    · by_cases hji : j = i
      · subst hji
        simp [setPending, setState]
      · simp [hji]
    · rw [hs]
      split_ifs
      · exact SlotState.noConfusion
      · exact (hl k (mem_cons_of_mem _ hk)).2

lemma foldl_onNativeDelete_rest (l : List Nat) :
    (l.foldl onNativeDelete p).objects = p.objects ∧ (l.foldl onNativeDelete p).lastId = p.lastId ∧
      (l.foldl onNativeDelete p).reg.deleteDepth = p.reg.deleteDepth := by
  induction l generalizing p with
  | nil => exact ⟨rfl, rfl, rfl⟩
  | cons i l ih =>
    obtain ⟨h1, h2, h3⟩ := @ih (p.onNativeDelete i)
    obtain ⟨g1, g2, g3⟩ := @onNativeDelete_rest lv p i
    exact ⟨h1.trans g1, h2.trans g2, h3.trans g3⟩

lemma tallied_foldl_onNativeDelete (ht : p.reg.Tallied p.statWidgetsLive) (l : List Nat) :
    (l.foldl onNativeDelete p).reg.Tallied (l.foldl onNativeDelete p).statWidgetsLive := by
  induction l generalizing p with
  | nil => exact ht
  | cons i l ih => exact ih (tallied_onNativeDelete ht)

end GuiPlatform

end OS01.Libgui
