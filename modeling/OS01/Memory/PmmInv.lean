import OS01.Memory.PmmScan

/-!
# The accounting of zones

The invariant of the frame allocator: a page names the zone its frame lies in, and each zone's
counters agree with its part of the bitmap. Setting a clear bit of a zone and charging that zone
keeps it, and so does the converse; every call is a sequence of such steps.
-/

namespace OS01.Memory

open Function List Option Lib Zone Bitmap

/-! ## The invariant -/

/-- The counters of a zone: `page_free_count` is the number of its clear bits, and the two counters
add up to its length. -/
structure Zone.Accounts (bm : Bitmap 64) (z : Zone) : Prop where
  free : z.pageFreeCount = bm.clearCount z.pagesGroup (z.pagesGroup + z.pagesLength)
  total : z.pageUsingCount + z.pageFreeCount = z.pagesLength

/-- A zone with right counters whose end, computed from its addresses, is the end of its pages. -/
structure Zone.Ok (bm : Bitmap 64) (z : Zone) : Prop extends Zone.Accounts bm z where
  stop_eq : z.stop = z.pagesGroup + z.pagesLength
  small : z.pagesLength < 2 ^ 64

/-- Two zones at one place. -/
def Zone.SamePlace (z' z : Zone) : Prop :=
  z'.pagesGroup = z.pagesGroup ∧ z'.pagesLength = z.pagesLength ∧
    z'.zoneStartAddress = z.zoneStartAddress ∧ z'.zoneEndAddress = z.zoneEndAddress

variable (z : Zone)

/-- Charging a zone leaves it where it is. -/
lemma Zone.charge_place : z.charge.SamePlace z := by
  exact ⟨rfl, rfl, rfl, rfl⟩

/-- Crediting a zone leaves it where it is. -/
lemma Zone.credit_place : z.credit.SamePlace z := by
  cases z
  exact ⟨rfl, rfl, rfl, rfl⟩

/-- Counting a link leaves a zone where it is. -/
lemma Zone.link_place : z.link.SamePlace z := by
  exact ⟨rfl, rfl, rfl, rfl⟩

/-- A charge counts one free frame less. -/
lemma Zone.charge_free : z.charge.pageFreeCount = u64 (z.pageFreeCount + 2 ^ 64 - 1) := rfl

/-- A charge counts one frame in use more. -/
lemma Zone.charge_using : z.charge.pageUsingCount = u64 (z.pageUsingCount + 1) := rfl

/-- A credit counts one free frame more. -/
lemma Zone.credit_free : z.credit.pageFreeCount = u64 (z.pageFreeCount + 1) := rfl

/-- A credit counts one frame in use less. -/
lemma Zone.credit_using : z.credit.pageUsingCount = u64 (z.pageUsingCount + 2 ^ 64 - 1) := rfl

variable {bm : Bitmap 64} {z : Zone} {pm : Pmm} {i n page : Nat}

/-- Linking a page leaves the counters. -/
lemma Zone.Accounts.link (h : z.Accounts bm) : z.link.Accounts bm := by
  obtain ⟨hf, htot⟩ := h
  exact ⟨hf, htot⟩

/-- A zone that keeps its place and has right counters again. -/
lemma Zone.Ok.recount {bm' : Bitmap 64} {z' : Zone} (h : z.Ok bm)
    (hpl : z'.SamePlace z) (hz : z'.Accounts bm') : z'.Ok bm' := by
  obtain ⟨hg, hl, hs, he⟩ := hpl
  refine ⟨hz, ?_, ?_⟩
  · rw [stop, hg, hl, hs, he]
    exact h.stop_eq
  · rw [hl]
    exact h.small

/-- Frame `f` lies in zone `z`. -/
def Zone.Has (z : Zone) (f : Nat) : Prop := z.pagesGroup ≤ f ∧ f < z.pagesGroup + z.pagesLength

/-- The allocator's invariant. -/
structure Pmm.Inv (pm : Pmm) : Prop where
  owner : ∀ f i, (pm.pages f).zoneStruct = some i ↔ ∃ z, pm.zones[i]? = some z ∧ z.Has f
  zone : ∀ (i : Nat) (z : Zone), pm.zones[i]? = some z → z.Ok pm.bitsMap
  inside : ∀ f, ((pm.pages f).zoneStruct).isSome → f < pm.pagesSize

/-- A change of a page leaves the bitmap alone. -/
@[simp] lemma bitsMap_modifyPage (pm : Pmm) (f : Nat) (g : Page → Page) :
    (pm.modifyPage f g).bitsMap = pm.bitsMap := rfl

/-- A change of a zone leaves the pages alone. -/
@[simp] lemma pages_modifyZone (pm : Pmm) (i : Nat) (g : Zone → Zone) :
    (pm.modifyZone i g).pages = pm.pages := rfl

/-- Marking a frame leaves the pages alone. -/
@[simp] lemma pages_mark (pm : Pmm) (i f : Nat) : (pm.mark i f).pages = pm.pages := rfl

/-- Marking a frame sets its bit. -/
@[simp] lemma bitsMap_mark (pm : Pmm) (i f : Nat) : (pm.mark i f).bitsMap = pm.bitsMap.set f := rfl

/-- Unmarking a frame clears its bit. -/
@[simp] lemma bitsMap_unmark (pm : Pmm) (i f : Nat) : (pm.unmark i f).bitsMap = pm.bitsMap.clear f := rfl

/-- Taking a frame sets its bit. -/
@[simp] lemma bitsMap_take (pm : Pmm) (i f attr : Nat) : (pm.take i f attr).bitsMap = pm.bitsMap.set f := rfl

namespace Pmm.Inv

variable {f : Nat}

variable (h : pm.Inv)
include h

/-- A frame lies in one zone only. -/
lemma zone_unique {j : Nat} {z' : Zone}
    (hz : pm.zones[i]? = some z) (hf : z.Has f) (hz' : pm.zones[j]? = some z') (hf' : z'.Has f) : i = j := by
  have hi := (h.owner f i).2 ⟨z, hz, hf⟩
  have hj := (h.owner f j).2 ⟨z', hz', hf'⟩
  rw [hi] at hj
  exact some.inj hj

/-- The rule for every update of a page and one zone: owners stay, zone `i` is right after the
change, and the others are right for the new bitmap. -/
lemma modify {pm' : Pmm} (i : Nat) (g : Zone → Zone)
    (hz : pm'.zones = pm.zones.modify i g) (hs : pm'.pagesSize = pm.pagesSize)
    (hp : ∀ f, (pm'.pages f).zoneStruct = (pm.pages f).zoneStruct) (hg : ∀ z, (g z).SamePlace z)
    (hi : ∀ z, pm.zones[i]? = some z → (g z).Ok pm'.bitsMap)
    (hne : ∀ j z, j ≠ i → pm.zones[j]? = some z → z.Ok pm'.bitsMap) : pm'.Inv := by
  have hget : ∀ j, pm'.zones[j]? = (pm.zones[j]?).map fun z => if i = j then g z else z := by
    intro j
    rw [hz, getElem?_modify]
    rfl
  refine ⟨?_, ?_, ?_⟩
  · intro f j
    rw [hp, h.owner, hget]
    cases pm.zones[j]? with
    | none => simp
    | some z =>
      by_cases hij : i = j
      · simp [hij, Zone.Has, (hg z).1, (hg z).2.1]
      · simp [hij]
  · intro j z hj
    rw [hget, map_eq_some_iff] at hj
    obtain ⟨z0, hz0, rfl⟩ := hj
    split_ifs with hij
    · exact hi z0 (hij ▸ hz0)
    · exact hne j z0 (Ne.symm hij) hz0
  · intro f hf
    rw [hp] at hf
    rw [hs]
    exact h.inside f hf

/-- Changing a page and leaving its zone keeps the invariant. -/
lemma modifyPage (f : Nat) (g : Page → Page)
    (hg : ∀ p, (g p).zoneStruct = p.zoneStruct) : (pm.modifyPage f g).Inv := by
  refine h.modify 0 id (modify_id 0 pm.zones).symm rfl ?_ (fun _ => ⟨rfl, rfl, rfl, rfl⟩)
    (fun z hz => h.zone 0 z hz) (fun j z _ hz => h.zone j z hz)
  intro f'
  by_cases hf : f' = f
  · simp [Pmm.modifyPage, hf, hg]
  · simp [Pmm.modifyPage, update_of_ne hf]

/-- The zones other than the owner of page `f` are right for a bitmap that differs at `f` only. -/
lemma others (hz : pm.zones[i]? = some z) (hf : z.Has f) {m : Bitmap 64}
    (hcnt : ∀ lo hi, ¬ (lo ≤ f ∧ f < hi) → m.clearCount lo hi = pm.bitsMap.clearCount lo hi)
    (j : Nat) (z' : Zone) (hj : j ≠ i) (hz' : pm.zones[j]? = some z') : z'.Ok m := by
  have hok := h.zone j z' hz'
  have hout : ¬ z'.Has f := fun hf' => hj (h.zone_unique hz' hf' hz hf)
  exact hok.recount ⟨rfl, rfl, rfl, rfl⟩ ⟨hok.free.trans (hcnt _ _ hout).symm, hok.total⟩

/-- Setting a clear bit of zone `i` and charging the zone keeps the invariant. -/
lemma mark (hown : (pm.pages f).zoneStruct = some i)
    (hclr : pm.bitsMap.get f = false) : (pm.mark i f).Inv := by
  obtain ⟨z, hz, hf⟩ := (h.owner f i).1 hown
  refine h.modify i charge rfl rfl (fun _ => rfl) charge_place ?_ ?_
  · intro z' hz'
    obtain rfl : z' = z := some.inj (hz'.symm.trans hz)
    have hok := h.zone i z' hz
    have hfr := hok.free
    have htot := hok.total
    have hsmall := hok.small
    have hset := clearCount_set hf.1 hf.2 hclr
    obtain ⟨hg, hl, _⟩ := z'.charge_place
    refine hok.recount z'.charge_place ⟨?_, ?_⟩
    · rw [hg, hl, charge_free, bitsMap_mark, u64]
      omega
    · rw [charge_free, charge_using, u64, u64]
      omega
  · exact h.others hz hf fun _ _ hout => clearCount_set_outside hout

/-- Clearing a set bit of zone `i` and crediting the zone keeps the invariant. -/
lemma unmark (hown : (pm.pages f).zoneStruct = some i)
    (hset : pm.bitsMap.get f = true) : (pm.unmark i f).Inv := by
  obtain ⟨z, hz, hf⟩ := (h.owner f i).1 hown
  refine h.modify i credit rfl rfl (fun _ => rfl) credit_place ?_ ?_
  · intro z' hz'
    obtain rfl : z' = z := some.inj (hz'.symm.trans hz)
    have hok := h.zone i z' hz
    have hfr := hok.free
    have htot := hok.total
    have hsmall := hok.small
    have hclr := clearCount_clear hf.1 hf.2 hset
    have hle := (pm.bitsMap.clear f).clearCount_le z'.pagesGroup (z'.pagesGroup + z'.pagesLength)
    obtain ⟨hg, hl, _⟩ := z'.credit_place
    refine hok.recount z'.credit_place ⟨?_, ?_⟩
    · rw [hg, hl, credit_free, bitsMap_unmark, u64]
      omega
    · rw [credit_free, credit_using, u64, u64]
      omega
  · exact h.others hz hf fun _ _ hout => clearCount_clear_outside hout

/-- Taking a free frame keeps the invariant. -/
lemma take (attr : Nat) (hown : (pm.pages f).zoneStruct = some i) (hclr : pm.bitsMap.get f = false) :
    (pm.take i f attr).Inv := (h.mark hown hclr).modifyPage f _ fun _ => rfl

/-- `page_init` keeps the invariant. -/
lemma pageInit (f flags : Nat) : (pageInit pm f flags).Inv := by
  unfold Memory.pageInit
  have h1 := h.modifyPage f (fun p => { p with attr := p.attr ||| flags }) fun _ => rfl
  dsimp only
  split_ifs
  · have h2 := h1.modifyPage f (fun p => { p with referenceCount := u64 (p.referenceCount + 1) }) fun _ => rfl
    split
    · rename_i i _
      refine h2.modify i link rfl rfl (fun _ => rfl) link_place ?_ (fun j z _ hz => h2.zone j z hz)
      intro z hz
      exact (h2.zone i z hz).recount z.link_place (h2.zone i z hz).toAccounts.link
    · exact h2
  · exact h1

end Pmm.Inv

/-! ## What the steps leave alone -/

/-- An update of a page that leaves its zone. -/
lemma zoneStruct_modifyPage (pm : Pmm) (f f' : Nat) {g : Page → Page}
    (hg : ∀ p, (g p).zoneStruct = p.zoneStruct) :
    ((pm.modifyPage f g).pages f').zoneStruct = (pm.pages f').zoneStruct := by
  by_cases hf : f' = f
  · simp [Pmm.modifyPage, hf, hg]
  · simp [Pmm.modifyPage, update_of_ne hf]

/-- Taking a frame leaves every frame in its zone. -/
@[simp] lemma zoneStruct_take (pm : Pmm) (i f attr f' : Nat) :
    ((pm.take i f attr).pages f').zoneStruct = (pm.pages f').zoneStruct :=
  zoneStruct_modifyPage _ f f' fun _ => rfl

/-- `page_init` changes neither the bitmap nor the zone of a frame. -/
lemma pageInit_keeps (pm : Pmm) (f flags : Nat) : (pageInit pm f flags).bitsMap = pm.bitsMap ∧
      ∀ f', ((pageInit pm f flags).pages f').zoneStruct = (pm.pages f').zoneStruct := by
  unfold pageInit
  dsimp only
  split_ifs
  · split
    all_goals
      refine ⟨rfl, fun f' => ?_⟩
      try rw [pages_modifyZone]
      rw [zoneStruct_modifyPage, zoneStruct_modifyPage]
      all_goals exact fun _ => rfl
  · exact ⟨rfl, fun f' => zoneStruct_modifyPage _ f f' fun _ => rfl⟩

/-- Later states only have more bits set and the same owners: what reserving, claiming and
allocating do to the frames that are already taken. -/
structure Grows (pm pm' : Pmm) : Prop where
  owner : ∀ f, (pm'.pages f).zoneStruct = (pm.pages f).zoneStruct
  kept : ∀ f, pm.bitsMap.get f = true → pm'.bitsMap.get f = true

/-- Nothing has changed. -/
lemma Grows.refl (pm : Pmm) : Grows pm pm := ⟨fun _ => rfl, fun _ h => h⟩

/-- One change after the other. -/
lemma Grows.trans {pm' pm'' : Pmm} (h : Grows pm pm') (h' : Grows pm' pm'') : Grows pm pm'' :=
  ⟨fun f => (h'.owner f).trans (h.owner f), fun f hf => h'.kept f (h.kept f hf)⟩

/-- Taking a frame sets bits only. -/
lemma grows_take (pm : Pmm) (i f attr : Nat) : Grows pm (pm.take i f attr) :=
  ⟨fun f' => zoneStruct_take pm i f attr f', fun f' hf' => by simp [hf']⟩

/-! ## The calls -/

variable (h : pm.Inv)
include h

/-- One pass of the reservation loop. -/
lemma reserveFrame_inv (ranges : List (Nat × Nat)) (f : Nat) :
    (reserveFrame ranges pm f).Inv ∧ Grows pm (reserveFrame ranges pm f) := by
  unfold reserveFrame
  cases hown : (pm.pages f).zoneStruct with
  | none => exact ⟨h, .refl pm⟩
  | some i =>
    split_ifs with hin hbit
    · exact ⟨h, .refl pm⟩
    · exact ⟨h, .refl pm⟩
    obtain ⟨hb, howner⟩ := pageInit_keeps pm f (PG_PTable_Mapped ||| PG_Kernel_Init ||| PG_Kernel)
    refine ⟨(h.pageInit f _).mark ((howner f).trans hown) ?_, fun f' => ?_, fun f' hf' => ?_⟩
    · rw [hb]
      simpa using hbit
    · rw [pages_mark]
      exact howner f'
    · rw [bitsMap_mark, hb]
      simp [hf']

/-- `pmm_reserve_boot_ranges` keeps the invariant. -/
lemma pmmReserveBootRanges_inv (ranges : List (Nat × Nat)) :
    (pmmReserveBootRanges pm ranges).1.Inv ∧ Grows pm (pmmReserveBootRanges pm ranges).1 := by
  unfold pmmReserveBootRanges
  split_ifs
  · exact ⟨h, .refl pm⟩
  dsimp only
  -- Every pass keeps the invariant, whatever the frames of the list are.
  generalize range pm.pagesSize = frames
  induction frames generalizing pm with
  | nil => exact ⟨h, .refl pm⟩
  | cons f frames ih =>
    obtain ⟨hinv, hgrows⟩ := reserveFrame_inv h ranges f
    obtain ⟨hinv', hgrows'⟩ := ih hinv
    exact ⟨hinv', hgrows.trans hgrows'⟩

/-- A claimed frame was free and lies in a zone; it is taken afterwards. -/
lemma pmmClaimFreeFrame_inv (startPa endPa : Nat) (fromEnd : Bool) :
    pmmClaimFreeFrame pm startPa endPa fromEnd = (none, pm) ∨
    ∃ f i, pmmClaimFreeFrame pm startPa endPa fromEnd = (some f, pm.take i f PG_PTable_Mapped) ∧
      (pm.pages f).zoneStruct = some i ∧ pm.bitsMap.get f = false ∧
      (pm.take i f PG_PTable_Mapped).Inv := by
  unfold pmmClaimFreeFrame
  split_ifs with hemp
  · exact Or.inl rfl
  all_goals
    dsimp only
    split
    · exact Or.inl rfl
    rename_i f hf
    have hclaim := find?_some hf
    simp only [claimable, Bool.and_eq_true, Bool.not_eq_true', isSome_iff_exists] at hclaim
    obtain ⟨⟨⟨⟨i, hi⟩, _⟩, _⟩, hclr⟩ := hclaim
    rw [hi]
    exact Or.inr ⟨f, i, rfl, hi, hclr, h.take _ hi hclr⟩

/-- Taking a free run of zone `i`, frame by frame. -/
lemma takeRun_inv (attr : Nat) (hz : pm.zones[i]? = some z) (hrun : FreeRun pm.bitsMap z n page) :
    (takeRun pm i page attr n).Inv ∧ Grows pm (takeRun pm i page attr n) ∧
      ∀ f, (takeRun pm i page attr n).bitsMap.get f =
        (pm.bitsMap.get f || decide (page ≤ f ∧ f < page + n)) := by
  induction n with
  | zero =>
    refine ⟨h, .refl pm, fun f => ?_⟩
    simp [takeRun]
  | succ n ih =>
    obtain ⟨hfst, hls, hf⟩ := hrun
    obtain ⟨hinv, hgrows, hb⟩ := ih ⟨hfst, by omega, fun l hl => hf l (by omega)⟩
    have hown : ((takeRun pm i page attr n).pages (page + n)).zoneStruct = some i := by
      rw [hgrows.owner, h.owner]
      exact ⟨z, hz, by omega, by omega⟩
    have hclr : (takeRun pm i page attr n).bitsMap.get (page + n) = false := by
      rw [hb, hf n (by omega)]
      simp
    refine ⟨hinv.take attr hown hclr, hgrows.trans (grows_take _ i _ attr), fun f => ?_⟩
    rw [takeRun, bitsMap_take, get_set, hb, Bool.or_assoc, ← Bool.decide_or]
    congr 2
    exact propext (by omega)

/-- Releasing a taken frame of a zone. -/
lemma releaseFrame_inv {f : Nat} (hown : (pm.pages f).zoneStruct = some i) (hset : pm.bitsMap.get f = true) :
    (releaseFrame pm f).Inv ∧ (∀ f', ((releaseFrame pm f).pages f').zoneStruct = (pm.pages f').zoneStruct) ∧
      ∀ f', (releaseFrame pm f).bitsMap.get f' = (pm.bitsMap.get f' && decide (f' ≠ f)) := by
  unfold releaseFrame
  rw [hown]
  refine ⟨(h.unmark hown hset).modifyPage f _ fun _ => rfl, fun f' => ?_, fun f' => ?_⟩
  · exact zoneStruct_modifyPage _ f f' fun _ => rfl
  · simp

/-- `free_pages` of a run of taken frames of zones: the run's bits are clear afterwards, and
nothing else changes. -/
lemma freePages_inv (hn : n < 64) (htkn : ∀ l < n, pm.bitsMap.get (page + l) = true)
    (hz : ∀ l < n, ((pm.pages (page + l)).zoneStruct).isSome) : (freePages pm page n).Inv ∧
      (∀ f, ((freePages pm page n).pages f).zoneStruct = (pm.pages f).zoneStruct) ∧
      ∀ f, (freePages pm page n).bitsMap.get f =
        (pm.bitsMap.get f && decide (¬ (page ≤ f ∧ f < page + n))) := by
  unfold freePages
  by_cases h0 : n = 0
  · subst h0
    exact ⟨by simpa using h, fun f => by simp, fun f => by simp⟩
  rw [if_neg (by omega), Int.toNat_natCast]
  clear h0 hn
  induction n with
  | zero =>
    exact ⟨h, fun f => rfl, fun f => by simp⟩
  | succ n ih =>
    obtain ⟨hinv, hown, hb⟩ := ih (fun l hl => htkn l (by omega)) (fun l hl => hz l (by omega))
    obtain ⟨i, hi⟩ := isSome_iff_exists.1 (hz n (by omega))
    rw [range_succ, foldl_append]
    obtain ⟨hinv', hown', hb'⟩ := releaseFrame_inv hinv ((hown (page + n)).trans hi)
      (by rw [hb, htkn n (by omega)]; simp)
    refine ⟨hinv', fun f => (hown' f).trans (hown f), fun f => ?_⟩
    rw [foldl_cons, foldl_nil, hb', hb, Bool.and_assoc, ← Bool.decide_and]
    congr 2
    exact propext (by omega)

end OS01.Memory
