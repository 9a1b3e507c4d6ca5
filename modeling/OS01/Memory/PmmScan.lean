import OS01.Memory.Pmm

/-!
# What the scan of `alloc_pages` finds

`scanZone` returns the lowest frame, from the zone's first one to the end of the last word the zone
reaches into, at which the test of the window passes. That end is not the end of the zone: the
frames between the two belong to holes or to other zones.
-/

namespace OS01.Memory

open List Option Lib Nat

/-- The test of the scan at frame `q`. -/
def passes (bm : Bitmap 64) (number q : Nat) : Prop := windowFree bm number (q / 64) (q % 64) = true

variable {bm : Bitmap 64} {number q j p i : Nat} {z : Zone} {pm : Pmm} {zoneSelect : Int}

/-- Up to 63 frames, the test says that the run starting at `q` is free. -/
lemma passes_iff (hn : number < 64) : passes bm number q ↔ ∀ l < number, bm.get (q + l) = false := by
  unfold passes windowFree
  rw [beq_iff_eq, mod_eq_of_lt hn, Bitmap.window_and_mask_eq_zero bm (mod_lt q (by decide)) hn, div_add_mod]

/-- A free run of any admitted length passes. -/
lemma passes_of_free (hn : number ≤ 64) (h : ∀ l < number, bm.get (q + l) = false) : passes bm number q := by
  obtain hlt | rfl := lt_or_eq_of_le hn
  · exact (passes_iff hlt).2 h
  · simp [passes, windowFree]

/-- A hit in the word of `j`: the frame it stands for, and that it is the first one. -/
lemma scanWord_some {k : Nat} (h : scanWord bm number j = some k) :
    j % 64 ≤ k ∧ k < 64 ∧ passes bm number (j / 64 * 64 + k) ∧
      ∀ q, j ≤ q → q < j / 64 * 64 + k → ¬ passes bm number q := by
  unfold scanWord at h
  rw [find?_range'_eq_some] at h
  obtain ⟨hp, hmem, hfst⟩ := h
  rw [mem_range'_1] at hmem
  have hw : (j / 64 * 64 + k) / 64 = j / 64 ∧ (j / 64 * 64 + k) % 64 = k := by omega
  refine ⟨hmem.1, by omega, ?_, ?_⟩
  · unfold passes
    rw [hw.1, hw.2]
    exact hp
  intro q hjq hq hpassq
  have hdiv : q / 64 = j / 64 := by omega
  have hnot := hfst (q % 64) (by omega) (by omega)
  unfold passes at hpassq
  rw [hdiv] at hpassq
  simp [hpassq] at hnot

/-- No hit in the word of `j`. -/
lemma scanWord_none (h : scanWord bm number j = none) :
    ∀ q, j ≤ q → q / 64 = j / 64 → ¬ passes bm number q := by
  intro q hjq hdiv hp
  unfold scanWord at h
  rw [find?_eq_none] at h
  have hmem : q % 64 ∈ range' (j % 64) (64 - j % 64) := by
    rw [mem_range'_1]
    omega
  unfold passes at hp
  rw [hdiv] at hp
  exact h _ hmem hp

variable {stop tmp : Nat} {fuel : Nat}

section

variable (htmp : j % 64 = 0 ∨ tmp = 64 - j % 64)
include htmp

/-- Where the next pass of the outer loop begins: at the next word. -/
lemma next_word : j + (if j % 64 ≠ 0 then tmp else 64) = (j / 64 + 1) * 64 := by
  split_ifs with h
  all_goals omega

/-- What the outer loop returns is the first frame that passes, in a word that begins before the
zone's end. -/
lemma scanFrom_some (h : scanFrom bm number stop tmp fuel j = some p) :
    j < stop ∧ j ≤ p ∧ p / 64 * 64 < stop ∧ passes bm number p ∧
      ∀ q, j ≤ q → q < p → ¬ passes bm number q := by
  induction fuel generalizing j with
  | zero => simp [scanFrom] at h
  | succ fuel ih =>
    rw [scanFrom] at h
    by_cases hj : j < stop
    · rw [if_pos hj] at h
      cases hw : scanWord bm number j with
      | some k =>
        rw [hw] at h
        obtain ⟨hk, hk64, hps, hfst⟩ := scanWord_some hw
        have hp : p = j / 64 * 64 + k := by
          simp only [some.injEq] at h
          omega
        subst hp
        exact ⟨hj, by omega, by omega, hps, hfst⟩
      | none =>
        rw [hw] at h
        simp only [next_word htmp] at h
        obtain ⟨_, hle, hs, hps, hfst⟩ := ih (.inl (by omega)) h
        refine ⟨hj, by omega, hs, hps, ?_⟩
        intro q hjq hqp
        -- A frame of this word was met by the inner loop, a later one by the rest of the scan.
        by_cases hdiv : q / 64 = j / 64
        · exact scanWord_none hw q hjq hdiv
        · exact hfst q (by omega) hqp
    · simp [hj] at h

/-- With enough fuel, the outer loop returns nothing only if no frame passes. -/
lemma scanFrom_none (hf : stop ≤ j + fuel) (h : scanFrom bm number stop tmp fuel j = none) :
    ∀ q, j < stop → j ≤ q → q / 64 * 64 < stop → ¬ passes bm number q := by
  induction fuel generalizing j with
  | zero =>
    omega
  | succ fuel ih =>
    intro q hj hjq hs
    rw [scanFrom, if_pos hj] at h
    cases hw : scanWord bm number j with
    | some k =>
      rw [hw] at h
      simp at h
    | none =>
      rw [hw] at h
      simp only [next_word htmp] at h
      by_cases hdiv : q / 64 = j / 64
      · exact scanWord_none hw q hjq hdiv
      · exact ih (.inl (by omega)) (by omega) h q (by omega) (by omega) hs

end

/-- Frame `q` is looked at by the scan of zone `z`. -/
def InScan (z : Zone) (q : Nat) : Prop :=
  z.pagesGroup < z.stop ∧ z.pagesGroup ≤ q ∧ q / 64 * 64 < z.stop

/-- A hit of the zone's scan is the first frame it looks at that passes. -/
lemma scanZone_some (h : scanZone bm number z = some p) :
    InScan z p ∧ passes bm number p ∧ ∀ q, InScan z q → q < p → ¬ passes bm number q := by
  obtain ⟨hne, hle, hs, hp, hfst⟩ := scanFrom_some (.inr rfl) h
  exact ⟨⟨hne, hle, hs⟩, hp, fun q hq hqp => hfst q hq.2.1 hqp⟩

/-- A scan without a hit: no frame it looks at passes. -/
lemma scanZone_none (h : scanZone bm number z = none) : ∀ q, InScan z q → ¬ passes bm number q := by
  intro q hq
  have hf : z.stop ≤ z.pagesGroup + (z.stop - z.pagesGroup) := by omega
  exact scanFrom_none (.inr rfl) hf h q hq.1 hq.2.1 hq.2.2

/-! ## The zone loop -/

/-- The zones a selector names. -/
def selectedZones (pm : Pmm) (zoneSelect : Int) : List Nat :=
  match zoneSelection pm zoneSelect with
  | some (zones, _) => zones
  | none => []

/-- The zone loop reaches frame `q` of zone `i` and the test passes there. -/
structure Hit (pm : Pmm) (zoneSelect : Int) (number i q : Nat) (z : Zone) : Prop where
  selected : i ∈ selectedZones pm zoneSelect
  zone : pm.zones[i]? = some z
  enough : number ≤ z.pageFreeCount
  inScan : InScan z q
  passes : passes pm.bitsMap number q

/-- `number` consecutive frames of a zone, all of them free. -/
structure FreeRun (bm : Bitmap 64) (z : Zone) (number q : Nat) : Prop where
  first : z.pagesGroup ≤ q
  last : q + number ≤ z.pagesGroup + z.pagesLength
  free : ∀ l < number, bm.get (q + l) = false

instance (bm : Bitmap 64) (z : Zone) (number q : Nat) : Decidable (FreeRun bm z number q) :=
  decidable_of_iff (z.pagesGroup ≤ q ∧ q + number ≤ z.pagesGroup + z.pagesLength ∧
      ∀ l < number, bm.get (q + l) = false)
    ⟨fun h => ⟨h.1, h.2.1, h.2.2⟩, fun h => ⟨h.first, h.last, h.free⟩⟩

lemma tryZone_some {i' : Nat} (hn : 0 < number) (h : tryZone pm number i = some (i', p)) :
    i' = i ∧ ∃ z, pm.zones[i]? = some z ∧ number ≤ z.pageFreeCount ∧
      scanZone pm.bitsMap number z = some p := by
  unfold tryZone at h
  dsimp only at h
  split_ifs at h with hf
  cases hz : pm.zones[i]? with
  | none =>
    rw [hz] at hf
    exact absurd hn hf
  | some z =>
    rw [hz, getD_some] at h hf
    rw [map_eq_some_iff] at h
    obtain ⟨page, hp, heq⟩ := h
    cases heq
    exact ⟨rfl, z, rfl, by omega, hp⟩

lemma tryZone_none (h : tryZone pm number i = none)
    (hz : pm.zones[i]? = some z) (hf : number ≤ z.pageFreeCount) : scanZone pm.bitsMap number z = none := by
  unfold tryZone at h
  simp only [hz, getD_some, if_neg (not_lt.2 hf), map_eq_none_iff] at h
  exact h

/-- The selected zones come in increasing order. -/
lemma selectedZones_sorted (pm : Pmm) (zoneSelect : Int) : (selectedZones pm zoneSelect).Pairwise (· < ·) := by
  unfold selectedZones zoneSelection
  split_ifs <;> simp [pairwise_lt_range']

/-- What the zone loop returns is a hit, and no hit comes before it. -/
lemma findZone_some (hn : 0 < number)
    (h : (selectedZones pm zoneSelect).findSome? (tryZone pm number) = some (i, p)) :
    (∃ z, Hit pm zoneSelect number i p z) ∧
      ∀ i' q z', Hit pm zoneSelect number i' q z' → ¬ (i' < i ∨ i' = i ∧ q < p) := by
  have hsrt := selectedZones_sorted pm zoneSelect
  rw [findSome?_eq_some_iff] at h
  obtain ⟨l1, a, l2, hl, ha, hbef⟩ := h
  obtain ⟨rfl, z, hz, hf, hs⟩ := tryZone_some hn ha
  obtain ⟨hin, hp, hfst⟩ := scanZone_some hs
  refine ⟨⟨z, by rw [hl]; simp, hz, hf, hin, hp⟩, ?_⟩
  rintro i' q z' hit (hlt | ⟨rfl, hlt⟩)
  · -- A smaller selected zone was tried before, without a hit.
    have hmem : i' ∈ l1 := by
      have hsel := hit.selected
      rw [hl, mem_append, mem_cons] at hsel
      rw [hl, pairwise_append, pairwise_cons] at hsrt
      obtain h1 | rfl | h2 := hsel
      · exact h1
      · omega
      · have := hsrt.2.1.1 i' h2
        omega
    exact scanZone_none (tryZone_none (hbef i' hmem) hit.zone hit.enough) q hit.inScan hit.passes
  · obtain rfl : z' = z := by
      rw [hit.zone] at hz
      exact some.inj hz
    exact hfst q hit.inScan hlt hit.passes

/-- The zone loop returns nothing only if it meets no hit. -/
lemma findZone_none (h : (selectedZones pm zoneSelect).findSome? (tryZone pm number) = none) :
    ∀ i q z, ¬ Hit pm zoneSelect number i q z := by
  intro i q z hit
  rw [findSome?_eq_none_iff] at h
  exact scanZone_none (tryZone_none (h i hit.selected) hit.zone hit.enough) q hit.inScan hit.passes

/-- The two outcomes of `alloc_pages` for an admitted number. -/
lemma allocPages_cases (hn : number ≤ 64) : (allocPages pm zoneSelect number = (none, pm) ∧
      (selectedZones pm zoneSelect).findSome? (tryZone pm number) = none) ∨
    ∃ i page attr, allocPages pm zoneSelect number = (some page, takeRun pm i page attr number) ∧
      (selectedZones pm zoneSelect).findSome? (tryZone pm number) = some (i, page) := by
  unfold allocPages selectedZones
  rw [if_neg (not_lt.2 hn)]
  cases zoneSelection pm zoneSelect with
  | none => exact .inl ⟨rfl, rfl⟩
  | some sel =>
    obtain ⟨zones, attr⟩ := sel
    dsimp only
    cases hf : zones.findSome? (tryZone pm number) with
    | none => exact .inl ⟨rfl, rfl⟩
    | some hit =>
      obtain ⟨i, page⟩ := hit
      exact .inr ⟨i, page, attr, rfl, rfl⟩

end OS01.Memory
