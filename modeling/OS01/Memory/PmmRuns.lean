import OS01.Lib.Run
import OS01.Memory.PmmInv

/-!
# Runs of the frame allocator

`pmm_init` establishes the accounting invariant for a memory map as `pmm_arch_normalize` hands it
over: RAM ranges that are granule-aligned, sorted and disjoint. From there every run of
`pmm_reserve_boot_ranges`, `pmm_claim_free_frame`, `alloc_pages` and `free_pages` keeps it, provided
that no call of `alloc_pages` takes a run that leaves its zone.

That condition is not met by all calls. The scan of a zone goes on to the end of the last word of
the bitmap that the zone reaches into and never looks at the zone's end, so that frames of the next
zone, or past the map, can be taken and charged to the wrong zone; and for 64 frames the mask is
empty, so that the first 64 frames of the zone are taken whether free or not.
-/

namespace OS01.Memory

open Nat List Lib Option Bitmap

/-! ## The memory map -/

/-- A range as `struct MEMORY_RANGE` documents it: not empty, both ends on a granule. -/
structure MemoryRange.Ok (r : MemoryRange) : Prop where
  nonempty : r.physStart < r.physEnd
  start_aligned : r.physStart % MEMORY_RANGE_GRANULE = 0
  end_aligned : r.physEnd % MEMORY_RANGE_GRANULE = 0
  bounded : r.physEnd < 2 ^ 64

/-- A memory map as `pmm_arch_normalize` returns it: rounded, sorted and merged. -/
structure RangesOk (ranges : List MemoryRange) : Prop where
  each : ∀ r ∈ ramRanges ranges, r.Ok
  sorted : (ramRanges ranges).Pairwise fun a b => a.physEnd ≤ b.physStart

variable {x bound low number : Nat} {r : MemoryRange} {ranges : List MemoryRange} {pm pm' : Pmm}

lemma granuleDown_of_aligned (h : x % MEMORY_RANGE_GRANULE = 0) : granuleDown x = x := by
  unfold granuleDown
  unfold MEMORY_RANGE_GRANULE at *
  omega

lemma granuleUp_of_aligned (h : x % MEMORY_RANGE_GRANULE = 0) (hx : x < 2 ^ 64) : granuleUp x = x := by
  unfold granuleUp granuleDown u64
  unfold MEMORY_RANGE_GRANULE at *
  omega

/-- `lowest_ram` is a granule boundary at or below every range, if there is a range. -/
lemma lowestRam_spec (hr : RangesOk ranges) (hmem : r ∈ ramRanges ranges) :
    lowestRam ranges ≤ r.physStart ∧ lowestRam ranges % MEMORY_RANGE_GRANULE = 0 := by
  have hall : ∀ (l : List MemoryRange) (low : Nat), (∀ r ∈ l, r.Ok) →
      (∀ r ∈ l, l.foldl (fun lowest r => min lowest (granuleDown r.physStart)) low ≤ r.physStart) ∧
      l.foldl (fun lowest r => min lowest (granuleDown r.physStart)) low ≤ low ∧
      (low % MEMORY_RANGE_GRANULE = 0 ∨ l ≠ [] ∧ 2 ^ 64 - 1 ≤ low →
        l.foldl (fun lowest r => min lowest (granuleDown r.physStart)) low % MEMORY_RANGE_GRANULE = 0) := by
    intro l
    induction l with
    | nil => simp
    | cons a l ih =>
      intro low hok
      have ha := hok a (by simp)
      obtain ⟨hle, hlow, hmod⟩ := ih (min low (granuleDown a.physStart)) fun r hr => hok r (by simp [hr])
      have hst := ha.nonempty
      have hend := ha.bounded
      rw [granuleDown_of_aligned ha.start_aligned] at hle hlow hmod
      simp only [foldl_cons, granuleDown_of_aligned ha.start_aligned]
      refine ⟨?_, by omega, ?_⟩
      · intro r hr
        obtain rfl | hr := mem_cons.1 hr
        · omega
        · exact hle r hr
      intro h
      apply hmod
      left
      have := ha.start_aligned
      obtain h1 | h1 := le_total low a.physStart
      · rw [min_eq_left h1]
        obtain h | ⟨_, h⟩ := h
        · exact h
        · omega
      · rw [min_eq_right h1]
        exact this
  obtain ⟨hle, _, hmod⟩ := hall (ramRanges ranges) (2 ^ 64 - 1) hr.each
  exact ⟨hle r hmem, hmod (Or.inr ⟨ne_nil_of_mem hmem, le_refl _⟩)⟩

/-- `highest_ram` is at or above every range, and a 64-bit value. -/
lemma highestRam_spec (hr : RangesOk ranges) :
    (∀ r ∈ ramRanges ranges, r.physEnd ≤ highestRam ranges) ∧ highestRam ranges < 2 ^ 64 := by
  have hall : ∀ (l : List MemoryRange) (high : Nat), (∀ r ∈ l, r.Ok) → high < 2 ^ 64 →
      (∀ r ∈ l, r.physEnd ≤ l.foldl (fun highest r => max highest (granuleUp r.physEnd)) high) ∧
      high ≤ l.foldl (fun highest r => max highest (granuleUp r.physEnd)) high ∧
      l.foldl (fun highest r => max highest (granuleUp r.physEnd)) high < 2 ^ 64 := by
    intro l
    induction l with
    | nil => simp
    | cons a l ih =>
      intro high hok hhg
      have ha := hok a (by simp)
      have hup := granuleUp_of_aligned ha.end_aligned ha.bounded
      have hbd := ha.bounded
      obtain ⟨hle, hge, hlt⟩ :=
        ih (max high (granuleUp a.physEnd)) (fun r hr => hok r (by simp [hr])) (by omega)
      rw [hup] at hle hge hlt
      simp only [foldl_cons, hup]
      refine ⟨?_, by omega, hlt⟩
      intro r hr
      obtain rfl | hr := mem_cons.1 hr
      · omega
      · exact hle r hr
  obtain ⟨hle, _, hlt⟩ := hall (ramRanges ranges) 0 hr.each (by decide)
  exact ⟨hle, hlt⟩

/-! ## The zone loop -/

/-- What the inner loop does to owners and bits. -/
lemma initPages_spec (pm : Pmm) (zone start base n : Nat) : (initPages pm zone start base n).zones = pm.zones ∧
    (initPages pm zone start base n).pagesSize = pm.pagesSize ∧
    (∀ f, ((initPages pm zone start base n).pages f).zoneStruct =
      if base ≤ f ∧ f < base + n then some zone else (pm.pages f).zoneStruct) ∧
    ∀ f, (initPages pm zone start base n).bitsMap.get f =
      (pm.bitsMap.get f ^^ decide (base ≤ f ∧ f < base + n)) := by
  induction n with
  | zero =>
    refine ⟨rfl, rfl, fun f => ?_, fun f => ?_⟩
    · rw [if_neg (by omega)]
      rfl
    · rw [decide_eq_false (by omega), Bool.xor_false]
      rfl
  | succ n ih =>
    obtain ⟨hzones, hs, hown, hb⟩ := ih
    refine ⟨hzones, hs, fun f => ?_, fun f => ?_⟩
    · by_cases hf : f = base + n
      · subst hf
        simp [initPages, Pmm.modifyPage]
      · have hiff : base ≤ f ∧ f < base + (n + 1) ↔ base ≤ f ∧ f < base + n := by omega
        simp [initPages, Pmm.modifyPage, Function.update_of_ne hf, hown, hiff]
    simp only [initPages, bitsMap_modifyPage, get_flip, hb]
    by_cases hf : f = base + n
    · subst hf
      simp
    · have hiff : base ≤ f ∧ f < base + (n + 1) ↔ base ≤ f ∧ f < base + n := by omega
      simp [hf, hiff]

/-- The state between two passes of the zone loop: the invariant holds, the frames of the zones so
far lie below `bound`, and every other frame of the map is marked used. -/
structure Built (low bound : Nat) (pm : Pmm) : Prop where
  inv : pm.Inv
  below : ∀ f, ((pm.pages f).zoneStruct).isSome → low + f * MEMORY_RANGE_GRANULE < bound
  hole : ∀ f, f < pm.pagesSize → (pm.pages f).zoneStruct = none → pm.bitsMap.get f = true

/-- Adding a zone above all frames that have an owner. -/
lemma append_zone {bound' : Nat} (h : Built low bound pm) (start : Nat)
    {z : Zone} (hz : z.Ok (fun _ => 0)) (hunused : z.pageUsingCount = 0)
    (hr : z.pagesGroup + z.pagesLength ≤ pm.pagesSize)
    (habove : ∀ f, ((pm.pages f).zoneStruct).isSome → f < z.pagesGroup) (hle : bound ≤ bound')
    (hbel : ∀ f, z.Has f → low + f * MEMORY_RANGE_GRANULE < bound') :
    Built low bound' (initPages { pm with zones := pm.zones ++ [z] } pm.zones.length start
      z.pagesGroup z.pagesLength) := by
  obtain ⟨hzones, hs, hown, hb⟩ := initPages_spec { pm with zones := pm.zones ++ [z] }
    pm.zones.length start z.pagesGroup z.pagesLength
  -- A frame of an earlier zone has an owner, so it is not one of the new zone.
  have hold : ∀ (i : Nat) (z' : Zone), pm.zones[i]? = some z' → ∀ f, z'.Has f → f < z.pagesGroup := by
    intro i z' hz' f hf
    apply habove
    rw [(h.inv.owner f i).2 ⟨z', hz', hf⟩]
    rfl
  refine ⟨⟨?_, ?_, ?_⟩, ?_, ?_⟩
  · intro f i
    rw [hown, hzones]
    by_cases hi : i < pm.zones.length
    · rw [List.getElem?_append_left hi, ← h.inv.owner]
      split_ifs with hf
      · constructor
        · intro heq
          have := some.inj heq
          omega
        · intro heq
          have := habove f (by rw [heq]; rfl)
          omega
      · exact Iff.rfl
    · rw [List.getElem?_append_right (by omega)]
      split_ifs with hf
      · constructor
        · intro heq
          have hlen := some.inj heq
          exact ⟨z, by simp [hlen], hf⟩
        · rintro ⟨z', hz', _⟩
          have hlen : i - pm.zones.length < 1 := by
            simpa using (List.getElem?_eq_some_iff.1 hz').1
          congr 1
          omega
      · constructor
        · intro heq
          obtain ⟨z', hz', _⟩ := (h.inv.owner f i).1 heq
          exact absurd (List.getElem?_eq_some_iff.1 hz').1 hi
        · rintro ⟨z', hz', hf'⟩
          have hmem : z' = z := by simpa using mem_of_getElem? hz'
          rw [hmem] at hf'
          exact absurd hf' hf
  · intro i z' hz'
    rw [hzones] at hz'
    obtain hmem | hmem := mem_append.1 (mem_of_getElem? hz')
    · obtain ⟨j, hj⟩ := List.getElem?_of_mem hmem
      have hok := h.inv.zone j z' hj
      refine hok.recount ⟨rfl, rfl, rfl, rfl⟩ ⟨?_, hok.total⟩
      rw [hok.free]
      refine (clearCount_congr fun f hlo hhi => ?_).symm
      have hlt := hold j z' hj f ⟨hlo, hhi⟩
      rw [hb, decide_eq_false (by omega), Bool.xor_false]
    obtain rfl : z' = z := by simpa using hmem
    refine hz.recount ⟨rfl, rfl, rfl, rfl⟩ ⟨?_, hz.total⟩
    have htot := hz.total
    rw [clearCount_eq_length]
    · omega
    -- The new frames were holes, hence marked, and are flipped once.
    intro f hlo hhi
    have hn : (pm.pages f).zoneStruct = none := by
      rw [← not_isSome_iff_eq_none]
      intro hsm
      have := habove f hsm
      omega
    rw [hb, h.hole f (by omega) hn, decide_eq_true (by omega)]
    rfl
  · intro f hf
    rw [hs]
    rw [hown] at hf
    split_ifs at hf with hin
    · exact lt_of_lt_of_le hin.2 hr
    · exact h.inv.inside f hf
  · intro f hf
    rw [hown] at hf
    split_ifs at hf with hin
    · exact hbel f hin
    · exact lt_of_lt_of_le (h.below f hf) hle
  · intro f hf hn
    rw [hs] at hf
    rw [hown] at hn
    split_ifs at hn with hin
    rw [hb, decide_eq_false hin, Bool.xor_false]
    exact h.hole f hf hn

/-- One pass of the zone loop, for a range above the ones before it. -/
lemma addZone_built (h : Built low bound pm)
    (hr : r.Ok) (hbd : bound ≤ r.physStart) (hlow : low ≤ r.physStart) (hal : low % MEMORY_RANGE_GRANULE = 0)
    (hs : (r.physEnd - low) / MEMORY_RANGE_GRANULE ≤ pm.pagesSize) :
    Built low r.physEnd (addZone low pm r) ∧ (addZone low pm r).pagesSize = pm.pagesSize := by
  obtain ⟨hne, hsa, hea, hend⟩ := hr
  have hk : Built low r.physEnd pm := ⟨h.inv, fun f hf => by have := h.below f hf; omega, h.hole⟩
  unfold addZone
  rw [granuleUp_of_aligned hsa (by omega), granuleDown_of_aligned hea]
  dsimp only
  split_ifs with hemp hrm
  · exact ⟨hk, rfl⟩
  · exact ⟨hk, rfl⟩
  have hshift : 2 ^ PAGE_2M_SHIFT = 2 ^ 21 := rfl
  unfold MEMORY_RANGE_GRANULE at hsa hea hal hs ⊢
  refine ⟨append_zone h r.physStart ⟨⟨?_, ?_⟩, ?_, ?_⟩ rfl ?_ ?_ (by omega) ?_,
    (initPages_spec _ _ _ _ _).2.1⟩
  · rw [Bitmap.clearCount_eq_length fun i _ _ => by simp [Bitmap.get]]
    simp
  · simp
  · simp only [Zone.stop, hshift]
    omega
  · dsimp only
    omega
  · dsimp only
    omega
  · intro f hf
    have := h.below f hf
    unfold MEMORY_RANGE_GRANULE at this
    dsimp only
    omega
  · intro f hf
    unfold Zone.Has at hf
    unfold MEMORY_RANGE_GRANULE
    dsimp only at hf
    omega

/-- The whole zone loop. -/
lemma zoneLoop_built {l : List MemoryRange} (h : Built low bound pm)
    (hok : ∀ r ∈ l, r.Ok ∧ low ≤ r.physStart ∧ bound ≤ r.physStart ∧
      (r.physEnd - low) / MEMORY_RANGE_GRANULE ≤ pm.pagesSize)
    (hsrt : l.Pairwise fun a b => a.physEnd ≤ b.physStart)
    (hal : l ≠ [] → low % MEMORY_RANGE_GRANULE = 0) : (l.foldl (addZone low) pm).Inv := by
  induction l generalizing pm bound with
  | nil => exact h.inv
  | cons r l ih =>
    obtain ⟨hr, hlow, hbd, hsz⟩ := hok r (by simp)
    obtain ⟨hn, hs⟩ := addZone_built h hr hbd hlow (hal (by simp)) hsz
    rw [pairwise_cons] at hsrt
    refine ih hn ?_ hsrt.2 fun _ => hal (by simp)
    intro r' hr'
    obtain ⟨hok', hlow', _, hs'⟩ := hok r' (by simp [hr'])
    exact ⟨hok', hlow', hsrt.1 r' hr', hs ▸ hs'⟩

/-- The index computation touches the indices only. -/
lemma zoneIndices_inv (h : pm.Inv) (split : Nat) : (zoneIndices pm split).Inv := by
  have hk : ∀ (zs : List Nat) (pm : Pmm), pm.Inv → (zs.foldl (fun pm zi =>
        if split ≤ (pm.zones[zi]?.getD {}).zoneStartAddress ∧ pm.zoneUnmappedIndex = 0 then
          { pm with zoneUnmappedIndex := zi, zoneNormalIndex := zi - 1 }
        else pm) pm).Inv := by
    intro zs
    induction zs with
    | nil => exact fun pm h => h
    | cons zi zs ih =>
      intro pm h
      rw [foldl_cons]
      apply ih
      split_ifs
      · exact ⟨h.owner, h.zone, h.inside⟩
      · exact h
  exact hk _ _ ⟨h.owner, h.zone, h.inside⟩

/-- `pmm_init` establishes the invariant. -/
theorem pmmInit_inv {beyond : Bitmap 64} {split : Nat}
    (hr : RangesOk ranges) (h : pmmInit beyond ranges split = some pm) : pm.Inv := by
  unfold pmmInit at h
  split_ifs at h
  cases h
  apply zoneIndices_inv
  obtain ⟨hhg, hlt⟩ := highestRam_spec hr
  have hemp : Built (lowestRam ranges) 0
      { bitsMap := initialBits beyond (ramSpanPages ranges),
        pagesSize := ramSpanPages ranges } := by
    refine ⟨⟨by simp, by simp, by simp⟩, by simp, ?_⟩
    intro f hf _
    have hw : f / 64 < bitsWords (ramSpanPages ranges) := by
      unfold bitsWords
      dsimp only at hf
      omega
    change (initialBits beyond (ramSpanPages ranges) (f / 64)).getLsbD (f % 64) = true
    rw [initialBits, if_pos hw, BitVec.getLsbD_allOnes]
    exact decide_eq_true (Nat.mod_lt f (by decide))
  refine zoneLoop_built hemp ?_ hr.sorted ?_
  · intro r hmem
    obtain ⟨hlow, _⟩ := lowestRam_spec hr hmem
    refine ⟨hr.each r hmem, hlow, Nat.zero_le _, ?_⟩
    have hge := hhg r hmem
    have hne := (hr.each r hmem).nonempty
    have hs : u64 (highestRam ranges + 2 ^ 64 - lowestRam ranges) =
        highestRam ranges - lowestRam ranges := by
      unfold u64
      omega
    exact le_trans (Nat.div_le_div_right (by omega)) (le_max_right _ _)
  · intro hne
    obtain ⟨r, hmem⟩ := exists_mem_of_ne_nil _ hne
    exact (lowestRam_spec hr hmem).2

/-! ## The system -/

/-- The allocator with the runs its callers hold: first frame and length. -/
structure Frames where
  pm : Pmm
  live : List (Nat × Nat) := []

/-- The calls, and writes by the rest of the kernel to the memory behind the bitmap. -/
inductive FrameEvent
  | reserve (ranges : List (Nat × Nat))
  | claim (startPa endPa : Nat) (fromEnd : Bool)
  | alloc (zoneSelect : Int) (number : Nat)
  | free (page number : Nat)
  | outside (bm : Bitmap 64)

/-- The transitions. Callers ask for 1 to 64 frames and free runs they hold; a run that
`free_pages` refuses to free stays with its holder. -/
inductive FrameStep : Frames → FrameEvent → Frames → Prop
  | reserve {s : Frames} {ranges : List (Nat × Nat)} :
      FrameStep s (.reserve ranges) { s with pm := (pmmReserveBootRanges s.pm ranges).1 }
  | claim {s : Frames} {startPa endPa : Nat} {fromEnd : Bool} {page : Option Nat} {pm : Pmm} :
      pmmClaimFreeFrame s.pm startPa endPa fromEnd = (page, pm) →
      FrameStep s (.claim startPa endPa fromEnd)
        { pm := pm, live := (page.map fun p => (p, 1)).toList ++ s.live }
  | alloc {s : Frames} {zoneSelect : Int} {number : Nat} {page : Option Nat} {pm : Pmm} :
      1 ≤ number → number ≤ 64 → allocPages s.pm zoneSelect number = (page, pm) →
      FrameStep s (.alloc zoneSelect number)
        { pm := pm, live := (page.map fun p => (p, number)).toList ++ s.live }
  | free {s : Frames} {page number : Nat} : (page, number) ∈ s.live → number < 64 →
      FrameStep s (.free page number)
        { pm := freePages s.pm page number, live := s.live.erase (page, number) }
  | freeRefused {s : Frames} {page number : Nat} : (page, number) ∈ s.live → 64 ≤ number →
      FrameStep s (.free page number) { s with pm := freePages s.pm page number }
  | outside {s : Frames} {bm : Bitmap 64} :
      (∀ p < bitsWords s.pm.pagesSize, bm p = s.pm.bitsMap p) →
      FrameStep s (.outside bm) { s with pm := { s.pm with bitsMap := bm } }

/-- No `number` consecutive free frames begin in a zone, or behind it in its last word of the bitmap, and end outside
the zone. -/
def Fenced (bm : Bitmap 64) (z : Zone) (number : Nat) : Prop :=
  ∀ q, z.pagesGroup ≤ q → q / 64 * 64 < z.stop → z.stop < q + number → ∃ l < number, bm.get (q + l) = true

/-- Each selected zone with `number` free frames, or one before it, holds as many consecutive ones, or it is fenced.
For 64 frames the consecutive ones are the first of their zone, and a fence does not help. -/
def NoStray (pm : Pmm) (zoneSelect : Int) (number : Nat) : Prop :=
  ∀ i ∈ selectedZones pm zoneSelect, ∀ z, pm.zones[i]? = some z → number ≤ z.pageFreeCount →
    (∃ i' ∈ selectedZones pm zoneSelect, i' ≤ i ∧ ∃ z', pm.zones[i']? = some z' ∧
        ∃ q, FreeRun pm.bitsMap z' number q ∧ (number = 64 → q = z'.pagesGroup)) ∨
      number < 64 ∧ Fenced pm.bitsMap z number

/-- The side condition on a step: it concerns `alloc_pages` only. -/
def FrameEvent.Contained (s : Frames) : FrameEvent → Prop
  | .alloc zoneSelect number => NoStray s.pm zoneSelect number
  | _ => True

/-- What a call of `alloc_pages` has to return: a free run of a selected zone, and nothing only if
there is none. -/
def AllocRight (pm : Pmm) (zoneSelect : Int) (number : Nat) : Option Nat → Prop
  | some page => ∃ i ∈ selectedZones pm zoneSelect, ∃ z, pm.zones[i]? = some z ∧
      FreeRun pm.bitsMap z number page
  | none => ∀ i ∈ selectedZones pm zoneSelect, ∀ z, pm.zones[i]? = some z →
      ∀ page, ¬ FreeRun pm.bitsMap z number page

/-! ## One step -/

/-- Two runs have no frame in common. -/
def RunsApart (a b : Nat × Nat) : Prop := a.1 + a.2 ≤ b.1 ∨ b.1 + b.2 ≤ a.1

/-- The invariant of the system: the runs held are taken frames of zones and do not overlap. -/
structure Frames.Inv (s : Frames) : Prop where
  pm : s.pm.Inv
  taken : ∀ r ∈ s.live, ∀ l < r.2, s.pm.bitsMap.get (r.1 + l) = true
  owned : ∀ r ∈ s.live, ∀ l < r.2, ((s.pm.pages (r.1 + l)).zoneStruct).isSome
  nonempty : ∀ r ∈ s.live, 0 < r.2
  apart : s.live.Pairwise RunsApart

variable {s : Frames}

/-- Runs that are held stay held while the allocator only takes frames. -/
lemma Frames.Inv.grow (h : s.Inv) (hpm : pm'.Inv) (hg : Grows s.pm pm') : Frames.Inv { s with pm := pm' } :=
  ⟨hpm, fun r hr l hl => hg.kept _ (h.taken r hr l hl),
    fun r hr l hl => by rw [hg.owner]; exact h.owned r hr l hl, h.nonempty, h.apart⟩

/-- A run of free frames, taken and handed out, joins the runs held. -/
lemma Frames.Inv.hand_out (h : s.Inv) (hpm : pm'.Inv) (hg : Grows s.pm pm') {page : Nat} (hpos : 0 < number)
    (hf : ∀ l < number, s.pm.bitsMap.get (page + l) = false)
    (hown : ∀ l < number, ((s.pm.pages (page + l)).zoneStruct).isSome)
    (htkn : ∀ l < number, pm'.bitsMap.get (page + l) = true) :
    Frames.Inv { pm := pm', live := (page, number) :: s.live } := by
  have hold := h.grow hpm hg
  refine ⟨hpm, ?_, ?_, ?_, pairwise_cons.2 ⟨?_, h.apart⟩⟩
  · intro r hr
    obtain rfl | hr := mem_cons.1 hr
    · exact htkn
    · exact hold.taken r hr
  · intro r hr
    obtain rfl | hr := mem_cons.1 hr
    · intro l hl
      rw [hg.owner]
      exact hown l hl
    · exact hold.owned r hr
  · intro r hr
    obtain rfl | hr := mem_cons.1 hr
    · exact hpos
    · exact h.nonempty r hr
  · -- A frame in both runs would be free and taken.
    intro r hr
    by_contra hm
    unfold RunsApart at hm
    have hr0 := h.nonempty r hr
    have hr2 := h.taken r hr (max page r.1 - r.1)
    have hp2 := hf (max page r.1 - page)
    rw [Nat.add_sub_cancel' (by omega)] at hr2 hp2
    rw [hr2 (by omega)] at hp2
    exact absurd (hp2 (by omega)) (by decide)

/-- A free run of a selected zone is counted, looked at and passes. -/
lemma FreeRun.hit {zoneSelect : Int} {i q : Nat} {z : Zone} (h : FreeRun pm.bitsMap z number q) (hpm : pm.Inv)
    (h1 : 1 ≤ number) (h64 : number ≤ 64) (hi : i ∈ selectedZones pm zoneSelect) (hz : pm.zones[i]? = some z) :
    Hit pm zoneSelect number i q z := by
  obtain ⟨hfst, hl, hfr⟩ := h
  have hok := hpm.zone i z hz
  refine ⟨hi, hz, ?_, ⟨?_, hfst, ?_⟩, passes_of_free h64 hfr⟩
  · rw [hok.free]
    exact le_clearCount hfst hl hfr
  all_goals
    rw [hok.stop_eq]
    omega

/-- The first hit is a free run of its zone. -/
lemma NoStray.freeRun {zoneSelect : Int} {i page : Nat} {z : Zone} (h : NoStray pm zoneSelect number) (hpm : pm.Inv)
    (h1 : 1 ≤ number) (h64 : number ≤ 64) (hit : Hit pm zoneSelect number i page z)
    (hfst : ∀ i' q z', Hit pm zoneSelect number i' q z' → ¬ (i' < i ∨ i' = i ∧ q < page)) :
    FreeRun pm.bitsMap z number page := by
  have hfree : number < 64 → ∀ l < number, pm.bitsMap.get (page + l) = false := fun hn => (passes_iff hn).1 hit.passes
  obtain ⟨i', hi', hle, z', hz', q, hrun, hstart⟩ | ⟨hn, hf⟩ := h i hit.selected z hit.zone hit.enough
  · have hbef := hfst i' q z' (hrun.hit hpm h1 h64 hi' hz')
    obtain rfl : i' = i := by omega
    obtain rfl : z' = z := by
      rw [hit.zone] at hz'
      exact (some.inj hz').symm
    obtain hn | rfl := lt_or_eq_of_le h64
    · exact ⟨hit.inScan.2.1, by have := hrun.last; omega, hfree hn⟩
    · obtain rfl : q = page := by
        have := hit.inScan.2.1
        have := hstart rfl
        omega
      exact hrun
  · refine ⟨hit.inScan.2.1, ?_, hfree hn⟩
    rw [← (hpm.zone i z hit.zone).stop_eq]
    by_contra hend
    obtain ⟨l, hl, hused⟩ := hf page hit.inScan.2.1 hit.inScan.2.2 (by omega)
    rw [hfree hn l hl] at hused
    cases hused

/-- What `alloc_pages` finds where no stray run is in the way. -/
lemma allocPages_contained {zoneSelect : Int} (hpm : pm.Inv)
    (h1 : 1 ≤ number) (h64 : number ≤ 64) (h : NoStray pm zoneSelect number) :
    AllocRight pm zoneSelect number (allocPages pm zoneSelect number).1 ∧
      (allocPages pm zoneSelect number = (none, pm) ∨
        ∃ i page attr z, allocPages pm zoneSelect number =
            (some page, takeRun pm i page attr number) ∧
          pm.zones[i]? = some z ∧ FreeRun pm.bitsMap z number page) := by
  rcases @allocPages_cases number pm zoneSelect h64 with
    ⟨hres, hf⟩ | ⟨i, page, attr, hres, hf⟩
  · rw [hres]
    exact ⟨fun i hi z hz page hrun => findZone_none hf i page z (hrun.hit hpm h1 h64 hi hz), Or.inl rfl⟩
  · obtain ⟨⟨z, hit⟩, hfst⟩ := findZone_some h1 hf
    have hrun := h.freeRun hpm h1 h64 hit hfst
    rw [hres]
    exact ⟨⟨i, hit.selected, z, hit.zone, hrun⟩, Or.inr ⟨i, page, attr, z, rfl, hit.zone, hrun⟩⟩

/-- One step keeps the invariant. -/
lemma FrameStep.inv {t : Frames} {e : FrameEvent} (h : s.Inv) (hok : e.Contained s)
    (hst : FrameStep s e t) : t.Inv := by
  cases hst with
  | reserve =>
    obtain ⟨hpm, hg⟩ := pmmReserveBootRanges_inv h.pm _
    exact h.grow hpm hg
  | claim hres =>
    rename_i startPa endPa fromEnd page pm
    rcases pmmClaimFreeFrame_inv h.pm startPa endPa fromEnd with
      hn | ⟨f, i, hsm, hown, hfr, hpm⟩
    · rw [hn] at hres
      cases hres
      exact h
    rw [hsm] at hres
    cases hres
    refine h.hand_out hpm (grows_take _ i f _) (by decide) ?_ ?_ ?_
    all_goals
      intro l hl
      obtain rfl : l = 0 := by omega
    · exact hfr
    · rw [add_zero, hown]
      rfl
    · simp
  | alloc h1 h64 hres =>
    obtain ⟨_, hcs⟩ := allocPages_contained h.pm h1 h64 hok
    obtain hn | ⟨i, page', attr, z, hsm, hz, hrun⟩ := hcs
    · rw [hn] at hres
      cases hres
      exact h
    rw [hsm] at hres
    cases hres
    obtain ⟨hpm, hg, hb⟩ := takeRun_inv h.pm attr hz hrun
    refine h.hand_out hpm hg h1 hrun.free ?_ ?_
    · intro l hl
      have hfst := hrun.first
      have hls := hrun.last
      rw [(h.pm.owner _ i).2 ⟨z, hz, by omega, by omega⟩]
      rfl
    · intro l hl
      rw [hb, decide_eq_true (by omega), Bool.or_true]
  | free hmem hlt =>
    obtain ⟨hpm, howner, hb⟩ := freePages_inv h.pm hlt (h.taken _ hmem) (h.owned _ hmem)
    -- The run given back overlaps none of the others, so their bits stay set.
    have hpr := perm_cons_erase hmem
    have hp := (hpr.pairwise_iff fun {a b} (hab : RunsApart a b) => Or.symm hab).1 h.apart
    rw [pairwise_cons] at hp
    refine ⟨hpm, ?_, ?_, ?_, hp.2⟩
    · intro r hr l hl
      have hap := hp.1 r hr
      unfold RunsApart at hap
      rw [hb, h.taken r (mem_of_mem_erase hr) l hl, decide_eq_true (by omega)]
      rfl
    · intro r hr l hl
      rw [howner]
      exact h.owned r (mem_of_mem_erase hr) l hl
    · exact fun r hr => h.nonempty r (mem_of_mem_erase hr)
  | freeRefused hmem hge =>
    rename_i page number
    have hs : freePages s.pm page number = s.pm := by
      unfold freePages
      rw [if_pos (Or.inl (by omega))]
    rw [hs]
    exact h
  | outside hs =>
    rename_i bm
    -- Bits of frames that have an owner are bits of the map.
    have hb : ∀ f, ((s.pm.pages f).zoneStruct).isSome → bm.get f = s.pm.bitsMap.get f := by
      intro f hf
      have hlt := h.pm.inside f hf
      have hw : f / 64 < bitsWords s.pm.pagesSize := by
        unfold bitsWords
        omega
      rw [Bitmap.get, hs _ hw]
      rfl
    refine ⟨⟨h.pm.owner, fun i z hz => ?_, h.pm.inside⟩, ?_, h.owned, h.nonempty, h.apart⟩
    · have hok := h.pm.zone i z hz
      refine hok.recount ⟨rfl, rfl, rfl, rfl⟩ ⟨hok.free.trans ?_, hok.total⟩
      refine (Bitmap.clearCount_congr fun f hlo hhi => hb f ?_).symm
      rw [(h.pm.owner f i).2 ⟨z, hz, hlo, hhi⟩]
      rfl
    · intro r hr l hl
      rw [hb _ (h.owned r hr l hl)]
      exact h.taken r hr l hl

/-! ## Whole runs -/

/-- **The frame allocator over whole runs.** From `pmm_init` on, in every run in which no
`alloc_pages` meets a stray run, each zone's counters agree with its bits, and the next such call
returns a free run of a selected zone, or nothing if there is none. -/
theorem frames_contained {beyond : Bitmap 64} {ranges : List MemoryRange} {split : Nat} {pm : Pmm}
    (hr : RangesOk ranges) (hinit : pmmInit beyond ranges split = some pm) {es : List FrameEvent} {s : Frames}
    (hrun : Run (guarded FrameStep fun s e => e.Contained s) { pm := pm } es s) :
    (∀ (i : Nat) (z : Zone), s.pm.zones[i]? = some z → z.Accounts s.pm.bitsMap) ∧
      ∀ zoneSelect number, 1 ≤ number → number ≤ 64 → NoStray s.pm zoneSelect number →
        AllocRight s.pm zoneSelect number (allocPages s.pm zoneSelect number).1 := by
  have hstart : Frames.Inv { pm := pm } :=
    ⟨pmmInit_inv hr hinit, by simp, by simp, by simp, List.Pairwise.nil⟩
  have hs : s.Inv := hrun.invariant (I := Frames.Inv) (fun s e t h hst => hst.2.inv h hst.1) hstart
  exact ⟨fun i z hz => (hs.pm.zone i z hz).toAccounts,
    fun zoneSelect number h1 h64 hok => (allocPages_contained hs.pm h1 h64 hok).1⟩

/-! ## Concrete maps -/

/-- Two RAM ranges with a hole of one frame between them: frames 0 to 2 and 4 to 9. -/
def twoBanks : List MemoryRange :=
  [{ physStart := 0, physEnd := 0x600000 }, { physStart := 0x800000, physEnd := 0x1400000 }]

lemma twoBanks_ok : RangesOk twoBanks := by
  constructor
  · intro r hr
    have hcs : r ∈ twoBanks := mem_of_mem_filter hr
    simp only [twoBanks, mem_cons, not_mem_nil, or_false] at hcs
    obtain rfl | rfl := hcs
    all_goals constructor <;> decide
  · decide

/-- One range of 128 frames. -/
def oneBank : List MemoryRange := [{ physStart := 0, physEnd := 0x10000000 }]

/-- The allocator after `pmm_init` on a map, with zeros behind the bitmap. -/
def bootPmm (ranges : List MemoryRange) : Pmm :=
  zoneIndices ((ramRanges ranges).foldl (addZone (lowestRam ranges))
    { bitsMap := initialBits (fun _ => 0) (ramSpanPages ranges),
      pagesSize := ramSpanPages ranges }) (2 ^ 32)

/-- The allocator after the lowest frame of a range is claimed. -/
def claimedPmm (ranges : List MemoryRange) (startPa endPa : Nat) : Pmm :=
  (pmmClaimFreeFrame (bootPmm ranges) startPa endPa false).2

/-- The result of a claim, from the frame it returns. -/
lemma claimedPmm_eq {startPa endPa : Nat} {page : Option Nat}
    (h : (pmmClaimFreeFrame (bootPmm ranges) startPa endPa false).1 = page) :
    pmmClaimFreeFrame (bootPmm ranges) startPa endPa false = (page, claimedPmm ranges startPa endPa) := by
  rw [← h, claimedPmm]

/-- The two banks with frame 1 claimed. -/
def claimedBanks : Pmm := claimedPmm twoBanks 0x200000 0x400000

lemma claimedBanks_eq : pmmClaimFreeFrame (bootPmm twoBanks) 0x200000 0x400000 false = (some 1, claimedBanks) :=
  claimedPmm_eq rfl

/-- A frame of the first bank is claimed; three frames of the second are allocated and freed. -/
theorem frames_contained_twoBanks :
    ∃ s, Run (guarded FrameStep fun s e => e.Contained s) { pm := bootPmm twoBanks }
        [.claim 0x200000 0x400000 false, .alloc ZONE_NORMAL 3, .free 4 3] s ∧
      ∀ (i : Nat) (z : Zone), s.pm.zones[i]? = some z → z.Accounts s.pm.bitsMap := by
  have hi : pmmInit (fun _ => 0) twoBanks (2 ^ 32) = some (bootPmm twoBanks) := by
    rfl
  have halc : allocPages claimedBanks ZONE_NORMAL 3 = (some 4, (allocPages claimedBanks ZONE_NORMAL 3).2) :=
    Prod.ext rfl rfl
  have hfour : ∀ i ∈ selectedZones claimedBanks ZONE_NORMAL, ∀ z ∈ claimedBanks.zones[i]?,
      3 ≤ z.pageFreeCount → FreeRun claimedBanks.bitsMap z 3 4 := by decide
  have hstray : NoStray claimedBanks ZONE_NORMAL 3 := fun i hi z hz hcount =>
    .inl ⟨i, hi, le_rfl, z, hz, 4, hfour i hi z hz hcount, fun h => absurd h (by decide)⟩
  apply Exists.imp (fun s hrun => ⟨hrun, (frames_contained twoBanks_ok hi hrun).1⟩)
  exact ⟨_, .cons ⟨trivial, .claim claimedBanks_eq⟩ (.cons ⟨hstray, .alloc (by decide) (by decide) halc⟩
    (.cons ⟨trivial, .free (by simp) (by decide)⟩ (.nil _)))⟩

/-- A run that leaves its zone: with frame 1 of the first bank claimed, two frames of the DMA zone
are asked for. The scan goes past the zone's end and takes frames 4 and 5, of the other bank, but
charges the DMA zone. With 64 frames asked for, the mask is empty: the first 64 frames are
taken although frame 0 is in use. -/
theorem frames_stray : (∃ s, Run FrameStep { pm := bootPmm twoBanks } [.claim 0x200000 0x400000 false] s ∧
      (allocPages s.pm ZONE_DMA 2).1 = some 4 ∧ ¬ AllocRight s.pm ZONE_DMA 2 (allocPages s.pm ZONE_DMA 2).1 ∧
      ∃ z, (allocPages s.pm ZONE_DMA 2).2.zones[0]? = some z ∧
        ¬ z.Accounts (allocPages s.pm ZONE_DMA 2).2.bitsMap) ∧
    ∃ s, Run FrameStep { pm := bootPmm oneBank } [.claim 0 0x200000 false] s ∧
      (allocPages s.pm ZONE_DMA 64).1 = some 0 ∧
      ¬ AllocRight s.pm ZONE_DMA 64 (allocPages s.pm ZONE_DMA 64).1 := by
  have hclaim1 : pmmClaimFreeFrame (bootPmm oneBank) 0 0x200000 false =
      (some 0, claimedPmm oneBank 0 0x200000) := claimedPmm_eq (by decide +kernel)
  have hres2 : (allocPages claimedBanks ZONE_DMA 2).1 = some 4 := by
    rfl
  have hres1 : (allocPages (claimedPmm oneBank 0 0x200000) ZONE_DMA 64).1 = some 0 := by
    decide +kernel
  have htkn : (claimedPmm oneBank 0 0x200000).bitsMap.get 0 = true := by decide +kernel
  -- From here on only these facts about the second map matter.
  generalize claimedPmm oneBank 0 0x200000 = pm1 at hclaim1 hres1 htkn
  refine ⟨⟨_, .cons (.claim claimedBanks_eq) (.nil _), hres2, ?_, ?_⟩,
    ⟨_, .cons (.claim hclaim1) (.nil _), hres1, ?_⟩⟩
  · dsimp only
    rintro ⟨i, hi, z, hz, hrun⟩
    have hno : ∀ i ∈ selectedZones claimedBanks ZONE_DMA, ∀ z ∈ claimedBanks.zones[i]?,
        ¬ FreeRun claimedBanks.bitsMap z 2 4 := by
      decide
    exact hno i hi z hz hrun
  · have hzn : ((allocPages claimedBanks ZONE_DMA 2).2.zones[0]?).isSome := by
      rfl
    obtain ⟨z, hz⟩ := isSome_iff_exists.1 hzn
    refine ⟨z, hz, fun hacc => ?_⟩
    have hcnt : ∀ z ∈ (allocPages claimedBanks ZONE_DMA 2).2.zones[0]?,
        z.pageFreeCount ≠ (allocPages claimedBanks ZONE_DMA 2).2.bitsMap.clearCount
          z.pagesGroup (z.pagesGroup + z.pagesLength) := by
      decide
    exact hcnt z hz hacc.free
  · dsimp only
    rw [hres1]
    rintro ⟨i, hi, z, hz, hrun⟩
    have hf := hrun.free 0 (by decide)
    rw [htkn] at hf
    cases hf

end OS01.Memory
