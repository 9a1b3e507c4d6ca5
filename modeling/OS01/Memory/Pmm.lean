import OS01.Lib.Bits
import OS01.Lib.Bitmap

/-!
# The physical frame allocator

The allocator of two-megabyte frames (`kernel/memory/pmm.c`): `pmm_init`'s zone loop,
`pmm_reserve_boot_ranges`, `pmm_claim_free_frame`, `alloc_pages` and `free_pages`.

`pages_struct` and `bits_map` are indexed by the frame's distance from the lowest RAM address. Both
are modelled without an end: the scan of `alloc_pages` reads the word after the last one it looks
at, which may lie past the map, and what it finds there is what memory holds. A `struct Page *` is the
index into `pages_struct`, a `struct Zone *` the index into `zones_struct`.
-/

namespace OS01.Memory

open Lib List

/-! ## State -/

/-- `PAGE_2M_SHIFT`. -/
def PAGE_2M_SHIFT : Nat := 21
/-- `MEMORY_RANGE_GRANULE`, equal to `PAGE_2M_SIZE`. -/
def MEMORY_RANGE_GRANULE : Nat := 2 ^ 21
/-- Most zones `pmm_init` creates. -/
def MAX_NR_ZONES : Nat := 10

/-- `zone_select` of the zones for device transfers. -/
def ZONE_DMA : Int := 1
/-- `zone_select` of the zones mapped by the kernel. -/
def ZONE_NORMAL : Int := 2
/-- `zone_select` of the zones above the split. -/
def ZONE_UNMAPPED : Int := 4

/-- Page attribute: mapped in the kernel's page table. -/
def PG_PTable_Mapped : Nat := 1
/-- Page attribute: holds initialisation code. -/
def PG_Kernel_Init : Nat := 2
/-- Page attribute: belongs to the kernel. -/
def PG_Kernel : Nat := 8
/-- Page attribute: shared. -/
def PG_Shared : Nat := 16

/-- `enum MEMORY_TYPE`. -/
inductive MemoryType
  | ram
  | reserved
  | acpiReclaim
  | acpiNvs
  | device
deriving DecidableEq, Repr

/-- `struct MEMORY_RANGE`: a physical range of the boot memory map. -/
structure MemoryRange where
  physStart : Nat
  physEnd : Nat
  type : MemoryType := .ram
deriving DecidableEq, Repr

/-- `struct Page`, with its `attribute` as `attr`. A frame that belongs to no zone is a hole. -/
structure Page where
  zoneStruct : Option Nat := none
  phyAddress : Nat := 0
  attr : Nat := 0
  referenceCount : Nat := 0
deriving DecidableEq, Repr

/-- `struct Zone`. `pagesGroup` is the index of the zone's first page. -/
structure Zone where
  (pagesGroup pagesLength zoneStartAddress zoneEndAddress
    pageUsingCount pageFreeCount totalPagesLink : Nat := 0)
deriving DecidableEq, Repr

/-- `PMMngr` with the three zone indices. -/
structure Pmm where
  bitsMap : Bitmap 64
  pages : Nat → Page := fun _ => {}
  pagesSize : Nat
  zones : List Zone := []
  zoneDmaIndex : Nat := 0
  zoneNormalIndex : Nat := 0
  zoneUnmappedIndex : Nat := 0

variable (pm : Pmm)

/-- Update page `f`. -/
def Pmm.modifyPage (f : Nat) (g : Page → Page) : Pmm :=
  { pm with pages := Function.update pm.pages f (g (pm.pages f)) }

/-- Update zone `i`. -/
def Pmm.modifyZone (i : Nat) (g : Zone → Zone) : Pmm :=
  { pm with zones := pm.zones.modify i g }

/-! ## Initialisation -/

/-- `x & ~(MEMORY_RANGE_GRANULE - 1)`. -/
def granuleDown (x : Nat) : Nat := x / MEMORY_RANGE_GRANULE * MEMORY_RANGE_GRANULE

/-- `(x + MEMORY_RANGE_GRANULE - 1) & ~(MEMORY_RANGE_GRANULE - 1)`. -/
def granuleUp (x : Nat) : Nat := granuleDown (u64 (x + (MEMORY_RANGE_GRANULE - 1)))

variable (ranges : List MemoryRange)

/-- The RAM ranges of the map, in order: the entries both loops of `pmm_init` look at. -/
def ramRanges : List MemoryRange :=
  ranges.filter fun r => r.type == .ram

/-- `lowest_ram` after the second step of `pmm_init`. -/
def lowestRam : Nat :=
  (ramRanges ranges).foldl (fun lowest r => min lowest (granuleDown r.physStart)) (2 ^ 64 - 1)

/-- `highest_ram` after the second step of `pmm_init`. -/
def highestRam : Nat :=
  (ramRanges ranges).foldl (fun highest r => max highest (granuleUp r.physEnd)) 0

/-- `TotalMem` after the second step of `pmm_init`. -/
def totalMem : Nat :=
  (ramRanges ranges).foldl (fun total r => u64 (total + (r.physEnd + 2 ^ 64 - r.physStart))) 0

/-- `ram_span_pages`, at least one. -/
def ramSpanPages : Nat :=
  max 1 (u64 (highestRam ranges + 2 ^ 64 - lowestRam ranges) / MEMORY_RANGE_GRANULE)

/-- Number of words of `bits_map`: `bits_length` is `((span + 63) & ~63) / 8` bytes. -/
def bitsWords (span : Nat) : Nat := (span + 63) / 64

/-- `bits_map` after `memset(bits_map, 0xff, bits_length)`; `beyond` is the memory around it. -/
def initialBits (beyond : Bitmap 64) (span : Nat) : Bitmap 64 := fun p =>
  if p < bitsWords span then BitVec.allOnes 64 else beyond p

/-- The inner loop of the zone loop over the zone's first `n` pages: fill in the page and flip its
bit. -/
def initPages (pm : Pmm) (zone start base : Nat) : Nat → Pmm
  | 0 => pm
  | j + 1 =>
    let pm := initPages pm zone start base j
    let pm := pm.modifyPage (base + j) fun _ =>
      { zoneStruct := some zone, phyAddress := start + j * MEMORY_RANGE_GRANULE }
    { pm with bitsMap := pm.bitsMap.flip (base + j) }

/-- One pass of the zone loop: a range that holds a whole granule becomes a zone, as long as there
is room for one. -/
def addZone (lowest : Nat) (pm : Pmm) (r : MemoryRange) : Pmm :=
  let start := granuleUp r.physStart
  let stop := granuleDown r.physEnd
  if stop ≤ start then pm
  else if MAX_NR_ZONES ≤ pm.zones.length then pm
  else
    let count := (stop - start) / MEMORY_RANGE_GRANULE
    let base := (start - lowest) / MEMORY_RANGE_GRANULE
    let z : Zone :=
      { pagesGroup := base, pagesLength := count, zoneStartAddress := start,
        zoneEndAddress := stop, pageFreeCount := count }
    initPages { pm with zones := pm.zones ++ [z] } pm.zones.length start base count

/-- The zone indices: the first zone at or above the split begins the unmapped ones. -/
def zoneIndices (split : Nat) : Pmm :=
  let start := { pm with zoneDmaIndex := 0, zoneNormalIndex := pm.zones.length - 1,
                         zoneUnmappedIndex := 0 }
  (range pm.zones.length).foldl (fun pm zi =>
    if split ≤ (pm.zones[zi]?.getD {}).zoneStartAddress ∧ pm.zoneUnmappedIndex = 0 then
      { pm with zoneUnmappedIndex := zi, zoneNormalIndex := zi - 1 }
    else pm) start

/-- `pmm_init` up to the boot reservations, which are a call of their own, with the zone indices of
its last step. It halts when the map holds no RAM. -/
def pmmInit (beyond : Bitmap 64) (ranges : List MemoryRange) (split : Nat) : Option Pmm :=
  if totalMem ranges = 0 then none
  else
    let span := ramSpanPages ranges
    let pm : Pmm := { bitsMap := initialBits beyond span, pagesSize := span }
    some (zoneIndices ((ramRanges ranges).foldl (addZone (lowestRam ranges)) pm) split)

/-! ## Taking and returning one frame -/

/-- `page_using_count++; page_free_count--`. -/
def Zone.charge (z : Zone) : Zone :=
  { z with pageUsingCount := u64 (z.pageUsingCount + 1),
           pageFreeCount := u64 (z.pageFreeCount + 2 ^ 64 - 1) }

/-- `page_using_count--; page_free_count++`. -/
def Zone.credit (z : Zone) : Zone :=
  { z with pageUsingCount := u64 (z.pageUsingCount + 2 ^ 64 - 1),
           pageFreeCount := u64 (z.pageFreeCount + 1) }

/-- `total_pages_link++`. -/
def Zone.link (z : Zone) : Zone := { z with totalPagesLink := u64 (z.totalPagesLink + 1) }

/-- Set the bit of frame `f` and charge zone `i` for it. -/
def Pmm.mark (i f : Nat) : Pmm :=
  { pm with bitsMap := pm.bitsMap.set f }.modifyZone i Zone.charge

/-- Clear the bit of frame `f` and credit zone `i` with it. -/
def Pmm.unmark (i f : Nat) : Pmm :=
  { pm with bitsMap := pm.bitsMap.clear f }.modifyZone i Zone.credit

/-- Mark frame `f` of zone `i` and give its page an attribute. -/
def Pmm.take (i f attr : Nat) : Pmm :=
  (pm.mark i f).modifyPage f fun p => { p with attr := attr }

/-- `page_init`. -/
def pageInit (f flags : Nat) : Pmm :=
  let pm := pm.modifyPage f fun p => { p with attr := p.attr ||| flags }
  if (pm.pages f).referenceCount = 0 ∨ (pm.pages f).attr &&& PG_Shared ≠ 0 then
    let pm := pm.modifyPage f fun p => { p with referenceCount := u64 (p.referenceCount + 1) }
    match (pm.pages f).zoneStruct with
    | some i => pm.modifyZone i Zone.link
    | none => pm
  else pm

/-! ## Boot reservations and single frames -/

/-- `-EINVAL`. -/
def PMM_EINVAL : Int := -22

/-- `pa_in_ranges`. -/
def paInRanges (pa : Nat) (ranges : List (Nat × Nat)) : Bool :=
  ranges.any fun r => r.1 ≤ pa ∧ pa < r.2

/-- One pass of the reservation loop. -/
def reserveFrame (ranges : List (Nat × Nat)) (pm : Pmm) (f : Nat) : Pmm :=
  match (pm.pages f).zoneStruct with
  | none => pm
  | some i =>
    if paInRanges (pm.pages f).phyAddress ranges = false then pm
    else if pm.bitsMap.get f then pm
    else
      (pageInit pm f (PG_PTable_Mapped ||| PG_Kernel_Init ||| PG_Kernel)).mark i f

/-- `pmm_reserve_boot_ranges`. -/
def pmmReserveBootRanges (ranges : List (Nat × Nat)) : Pmm × Int :=
  if ranges.any fun r =>
      r.2 ≤ r.1 ∨ r.1 % MEMORY_RANGE_GRANULE ≠ 0 ∨ r.2 % MEMORY_RANGE_GRANULE ≠ 0 then
    (pm, PMM_EINVAL)
  else ((range pm.pagesSize).foldl (reserveFrame ranges) pm, 0)

/-- The frames `pmm_claim_free_frame` may take: represented, in the range and free. -/
def claimable (startPa endPa f : Nat) : Bool :=
  (pm.pages f).zoneStruct.isSome && decide (startPa ≤ (pm.pages f).phyAddress) &&
    decide ((pm.pages f).phyAddress < endPa) && !pm.bitsMap.get f

/-- `pmm_claim_free_frame`: the lowest or the highest free frame of a range. -/
def pmmClaimFreeFrame (startPa endPa : Nat) (fromEnd : Bool) : Option Nat × Pmm :=
  if endPa ≤ startPa then (none, pm)
  else
    let order := if fromEnd then (range pm.pagesSize).reverse else range pm.pagesSize
    match order.find? (claimable pm startPa endPa) with
    | none => (none, pm)
    | some f =>
      match (pm.pages f).zoneStruct with
      | none => (none, pm)
      | some i => (some f, pm.take i f PG_PTable_Mapped)

/-! ## Runs of frames -/

/-- The zones `alloc_pages` goes through and the attribute it gives; `none` for a selector it does
not know. -/
def zoneSelection (zoneSelect : Int) : Option (List Nat × Nat) :=
  if zoneSelect = ZONE_DMA then
    some (range' 0 (pm.zoneDmaIndex + 1), PG_PTable_Mapped)
  else if zoneSelect = ZONE_NORMAL then
    some (range' pm.zoneDmaIndex (pm.zoneNormalIndex + 1 - pm.zoneDmaIndex), PG_PTable_Mapped)
  else if zoneSelect = ZONE_UNMAPPED then
    some (range' pm.zoneUnmappedIndex (pm.zones.length - pm.zoneUnmappedIndex), 0)
  else none

/-- The test of the scan, `!(window & num)` with `num = (1UL << number) - 1`. The processor takes
the shift count modulo the word size, so that for `number = 64` the mask is empty. -/
def windowFree (bm : Bitmap 64) (number p k : Nat) : Bool :=
  bm.window p k &&& (1#64 <<< (number % 64) - 1) == 0

/-- The inner loop over the bits of the word that holds frame `j`, from `j` on. -/
def scanWord (bm : Bitmap 64) (number j : Nat) : Option Nat :=
  (range' (j % 64) (64 - j % 64)).find? (windowFree bm number (j / 64))

/-- The outer loop over the words of a zone that ends at `stop`. The fuel bounds the passes; each
one moves `j` forward. -/
def scanFrom (bm : Bitmap 64) (number stop tmp : Nat) : Nat → Nat → Option Nat
  | 0, _ => none
  | fuel + 1, j =>
    if j < stop then
      match scanWord bm number j with
      | some k => some (j + k - j % 64)
      | none => scanFrom bm number stop tmp fuel (j + if j % 64 ≠ 0 then tmp else 64)
    else none

/-- One past the last frame of a zone as `alloc_pages` computes it. -/
def Zone.stop (z : Zone) : Nat :=
  z.pagesGroup + z.zoneEndAddress / 2 ^ PAGE_2M_SHIFT - z.zoneStartAddress / 2 ^ PAGE_2M_SHIFT

/-- The scan of one zone. -/
def scanZone (bm : Bitmap 64) (number : Nat) (z : Zone) : Option Nat :=
  scanFrom bm number z.stop (64 - z.pagesGroup % 64) (z.stop - z.pagesGroup) z.pagesGroup

/-- What the zone loop does at zone `i`: skip it when its free count is too small, else scan it. -/
def tryZone (number i : Nat) : Option (Nat × Nat) :=
  let z := pm.zones[i]?.getD {}
  if z.pageFreeCount < number then none
  else (scanZone pm.bitsMap number z).map fun page => (i, page)

/-- The loop that takes the frames of a run of zone `i` one by one. -/
def takeRun (pm : Pmm) (i page attr : Nat) : Nat → Pmm
  | 0 => pm
  | l + 1 => (takeRun pm i page attr l).take i (page + l) attr

/-- `alloc_pages`. -/
def allocPages (zoneSelect : Int) (number : Nat) : Option Nat × Pmm :=
  if 64 < number then (none, pm)
  else
    match zoneSelection pm zoneSelect with
    | none => (none, pm)
    | some (zones, attr) =>
      match zones.findSome? (tryZone pm number) with
      | none => (none, pm)
      | some (i, page) => (some page, takeRun pm i page attr number)

/-- One pass of the loop of `free_pages`. A page outside every zone is a null dereference in the
source; here it changes the bit and the attribute only. -/
def releaseFrame (f : Nat) : Pmm :=
  let pm := match (pm.pages f).zoneStruct with
    | some i => pm.unmark i f
    | none => { pm with bitsMap := pm.bitsMap.clear f }
  pm.modifyPage f fun p => { p with attr := 0 }

/-- `free_pages` on a page that is not null. -/
def freePages (page : Nat) (number : Int) : Pmm :=
  if 64 ≤ number ∨ number ≤ 0 then pm
  else (range number.toNat).foldl (fun pm l => releaseFrame pm (page + l)) pm

end OS01.Memory
