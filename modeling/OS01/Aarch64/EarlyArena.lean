import OS01.Abi
import OS01.Lib.Bitmap
import OS01.Aarch64.Descriptor

/-!
# Planning the early arena

The planner of `kernel/arch/aarch64/memory/early_arena.c`. It checks the list of RAM ranges, counts the
512 GiB and the 1 GiB buckets that the kernel window, the device window and the RAM touch, and places the
arena: the metadata of the page allocator, its first slabs, and the pool of page table pages. The sizes of
the metadata come from `kernel/memory/pmm_boot.c` and `kernel/include/memory/slab.h`.

Addresses and sizes are numbers, with the overflow checks of the source; the addresses of an accepted list
are below 2^40, and no other sum is left unchecked.

What is used later: an accepted list is well formed (`RamOk`), the number of table pages is one more than
the number of buckets of both kinds (`countBuckets_spec`), and the pool is a run of pages below 2 GiB
(`plan_spec`).
-/

namespace OS01.Aarch64

open Nat List Lib Except

/-! ## Constants -/

def UINT64_MAX : Nat := 2 ^ 64 - 1
def PAGE_4K : Nat := 0x1000
def PAGE_2M : Nat := 0x200000
def MEMORY_RANGE_MAX : Nat := 64
def MEMORY_RANGE_GRANULE : Nat := 2 ^ 21
def MAX_NR_ZONES : Nat := 10
def M1_PA_LIMIT : Nat := 0x10000000000
def M1_ARENA_LOW : Nat := 0x40200000
def M1_ARENA_HI : Nat := 0x80000000
def M1_TABLE_PAGES_MAX : Nat := 1027
def ARCH_PAGE_OFFSET : Nat := 0xffff000000000000

/-- The kernel window. -/
def B_BASE : Nat := 0x40000000
def B_END : Nat := 0x40200000

/-- The device window. -/
def D_BASE : Nat := 0x08000000
def D_END : Nat := 0x0a000000

/-- `sizeof(struct Page)`, `sizeof(struct Zone)`, `sizeof(struct Slab)` and `sizeof(long)`. -/
def SIZEOF_PAGE : Nat := 40
def SIZEOF_ZONE : Nat := 80
def SIZEOF_SLAB : Nat := 72
def SIZEOF_LONG : Nat := 8

/-! ## Checked steps -/

/-- Go on if `p` holds, and return `-err` if not. -/
def require (p : Prop) [Decidable p] (err : Int) : Except Int Unit := if p then .ok () else .error (-err)

variable {err : Int} {a b c p tablePages : Nat} {ps : List Nat}

@[simp] lemma require_eq_ok {p : Prop} [Decidable p] : require p err = .ok () ↔ p := by
  rw [require]
  split_ifs with hp
  · exact ⟨fun _ => hp, fun _ => rfl⟩
  · exact ⟨fun h => (by cases h), fun h => absurd h hp⟩

lemma bind_eq_ok {α β : Type} {x : Except Int α} {f : α → Except Int β} {b : β} :
    (x >>= f) = .ok b ↔ ∃ a, x = .ok a ∧ f a = .ok b := by
  cases x with
  | error e => exact ⟨fun h => (by cases h), fun ⟨_, h, _⟩ => (by cases h)⟩
  | ok a => exact ⟨fun h => ⟨a, rfl, h⟩, fun ⟨_, h, h'⟩ => (by cases h; exact h')⟩

lemma require_bind_eq_ok {α : Type} {p : Prop} [Decidable p] {f : Unit → Except Int α} {a : α} :
    (require p err >>= f) = .ok a ↔ p ∧ f () = .ok a := by
  rw [bind_eq_ok]
  exact ⟨fun ⟨_, hp, hf⟩ => ⟨require_eq_ok.1 hp, hf⟩, fun ⟨hp, hf⟩ => ⟨(), require_eq_ok.2 hp, hf⟩⟩

/-- `checked_add`, with the code the caller returns. -/
def checkedAdd (a b : Nat) (err : Int) : Except Int Nat :=
  if UINT64_MAX - b < a then .error (-err) else .ok (a + b)

/-- `checked_mul`. -/
def checkedMul (a b : Nat) (err : Int) : Except Int Nat :=
  if a ≠ 0 ∧ UINT64_MAX / a < b then .error (-err) else .ok (a * b)

/-- `checked_align_up`, and `align_up_checked` of `pmm_boot.c`: the two differ in how they compute the
result, not in what it is, nor in when it overflows. -/
def checkedAlignUp (value granule : Nat) (err : Int) : Except Int Nat :=
  if UINT64_MAX - (granule - 1) < value then .error (-err) else .ok ((value + (granule - 1)) / granule * granule)

lemma checkedAdd_eq_ok (h : checkedAdd a b err = .ok c) : c = a + b := by
  rw [checkedAdd] at h
  split_ifs at h
  exact (ok.inj h).symm

lemma checkedMul_eq_ok (h : checkedMul a b err = .ok c) : c = a * b := by
  rw [checkedMul] at h
  split_ifs at h
  exact (ok.inj h).symm

lemma le_roundUp {g : Nat} (hg : 0 < g) : a ≤ (a + (g - 1)) / g * g := by
  have hdiv := div_add_mod (a + (g - 1)) g
  have hmod := mod_lt (a + (g - 1)) hg
  rw [mul_comm]
  omega

lemma checkedAlignUp_eq_ok {g : Nat} (hg : 0 < g) (h : checkedAlignUp a g err = .ok c) : a ≤ c ∧ g ∣ c := by
  rw [checkedAlignUp] at h
  split_ifs at h
  obtain rfl := ok.inj h
  exact ⟨le_roundUp hg, dvd_mul_left _ _⟩

/-! ## The RAM list -/

inductive MemoryType
  | ram | reserved | acpiReclaim | acpiNvs | device
  deriving DecidableEq, Repr

structure MemoryRange where
  physStart : Nat
  physEnd : Nat
  type : MemoryType
  deriving DecidableEq, Repr

/-- The checks that `validate_ranges` and `rt_validate_ram` both make of a range, in their order; `prev` is
the end of the range before it. -/
def checkRange (prev : Option Nat) (r : MemoryRange) : Except Int Unit := do
  require (r.type = .ram) EINVAL
  require (r.physStart % MEMORY_RANGE_GRANULE = 0) EINVAL
  require (r.physEnd % MEMORY_RANGE_GRANULE = 0) EINVAL
  require (r.physStart < r.physEnd) EINVAL
  require (r.physEnd ≤ M1_PA_LIMIT) ERANGE
  require (¬ (r.physStart < B_END ∧ B_BASE < r.physEnd)) EINVAL
  require (¬ (r.physStart < D_END ∧ D_BASE < r.physEnd)) EINVAL
  require (prev.all fun e => e < r.physStart) EINVAL

/-- The loop of `validate_ranges`, with `ram_zones` ranges seen. -/
def validateRangesFrom (prev : Option Nat) (ramZones : Nat) : List MemoryRange → Except Int Unit
  | [] => .ok ()
  | r :: rs => do
      checkRange prev r
      require (ramZones + 1 ≤ MAX_NR_ZONES) EINVAL
      validateRangesFrom (some r.physEnd) (ramZones + 1) rs

variable (ram : List MemoryRange)

/-- `validate_ranges`. -/
def validateRanges : Except Int Unit := do
  require (ram.length ≠ 0 ∧ ram.length ≤ MEMORY_RANGE_MAX) EINVAL
  validateRangesFrom none 0 ram

/-! ## Buckets -/

/-- The addresses that `for (p = s; p < e; p += PAGE_2M)` visits. -/
def blocksOf (s e : Nat) : List Nat := (List.range ((e - s + (PAGE_2M - 1)) / PAGE_2M)).map (s + PAGE_2M * ·)

/-- The addresses of the blocks of the kernel window, the device window and the RAM, in the order in which
both the planner and the builder of the tree visit them. -/
def expectedBlocks : List Nat :=
  blocksOf B_BASE B_END ++ blocksOf D_BASE D_END ++ ram.flatMap fun r => blocksOf r.physStart r.physEnd

/-- The bitmaps of `count_buckets`. -/
structure Buckets where
  pudUsed : Bitmap 64
  pmdUsed : Bitmap 64

/-- `if (b < limit) used[b >> 6] |= 1ULL << (b & 63u)` for the bucket `b = p >> shift`. -/
def markBucket (shift limit : Nat) (used : Bitmap 64) (p : Nat) : Bitmap 64 :=
  if p / 2 ^ shift < limit then used.set (p / 2 ^ shift) else used

/-- The buckets of the block at `p`. -/
def Buckets.mark (u : Buckets) (p : Nat) : Buckets := ⟨markBucket 39 2 u.pudUsed p, markBucket 30 1024 u.pmdUsed p⟩

/-- `while (w) { n += (w & 1u); w >>= 1; }`, in at most the given number of rounds. -/
def countBits : Nat → BitVec 64 → Nat → Nat
  | 0, _, n => n
  | rounds + 1, w, n => if w = 0 then n else countBits rounds (w >>> 1) (n + (w &&& 1).toNat)

/-- The set bits of the first `words` words; a word is 0 after 64 rounds. -/
def countWords (m : Bitmap 64) (words : Nat) : Nat :=
  (List.range words).foldl (fun n i => countBits 64 (m i) n) 0

/-- The bitmaps after the loops over the blocks. -/
def usedBuckets : Buckets := (expectedBlocks ram).foldl Buckets.mark ⟨fun _ => 0, fun _ => 0⟩

/-- `count_buckets`: the numbers of 512 GiB and of 1 GiB buckets. -/
def countBuckets : Except Int (Nat × Nat) :=
  let puds := countWords (usedBuckets ram).pudUsed 2
  let pmds := countWords (usedBuckets ram).pmdUsed 16
  if M1_TABLE_PAGES_MAX < puds + pmds + 1 then .error (-EINVAL) else .ok (puds, pmds)

/-! ## The layout of the arena -/

/-- `struct pmm_layout`, without `metadata_end_pa`, which the calculator leaves 0. -/
structure PmmLayout where
  (bitsMapOff bitsLength pagesStructOff pagesLength zonesStructOff
    zonesLength endOfStructOff totalBytes metadataEndPa : Nat)
  deriving DecidableEq, Repr

/-- `pmm_layout_calculate`. -/
def pmmLayoutCalculate (baseVa spanPages : Nat) : Except Int PmmLayout := do
  require (spanPages ≠ 0) EINVAL
  let bits ← checkedAdd spanPages 63 EOVERFLOW
  let bitsLength := bits / 64 * 64 / 8
  let pagesBytes ← checkedMul SIZEOF_PAGE spanPages EOVERFLOW
  let pagesLength ← checkedAlignUp pagesBytes SIZEOF_LONG EOVERFLOW
  let zonesBytes ← checkedMul SIZEOF_ZONE MEMORY_RANGE_MAX EOVERFLOW
  let zonesLength ← checkedAlignUp zonesBytes SIZEOF_LONG EOVERFLOW
  let pagesStructOff ← checkedAlignUp bitsLength PAGE_4K EOVERFLOW
  let pagesEnd ← checkedAdd pagesStructOff pagesLength EOVERFLOW
  let zonesStructOff ← checkedAlignUp pagesEnd PAGE_4K EOVERFLOW
  let zonesEnd ← checkedAdd zonesStructOff zonesLength EOVERFLOW
  let tailEnd ← checkedAdd zonesEnd (32 * SIZEOF_LONG) EOVERFLOW
  let endOfStructOff := tailEnd / SIZEOF_LONG * SIZEOF_LONG
  let totalBytes ← checkedAlignUp endOfStructOff PAGE_4K EOVERFLOW
  let _ ← checkedAdd baseVa totalBytes EOVERFLOW
  return ⟨0, bitsLength, pagesStructOff, pagesLength, zonesStructOff, zonesLength, endOfStructOff, totalBytes, 0⟩

structure SlabLayout where
  metaBytes : Nat
  reserved2mPages : Nat

/-- `slab_layout_compute`: the cache of number `i` has objects of `32 << i` bytes. -/
def slabLayoutCompute : SlabLayout where
  metaBytes := (List.range 16).foldl (fun acc i =>
    let entries := PAGE_2M / (32 * 2 ^ i)
    let bm := (entries / 8 + 7) / 8 * 8
    acc + (SIZEOF_SLAB + 10 * SIZEOF_LONG + bm + 10 * SIZEOF_LONG)) 0
  reserved2mPages := 8

/-- What `compute_arena_end` computes. -/
structure ArenaEnd where
  (endPa slabMetaEnd slabPageStart slabPageEnd tableBase : Nat)

/-- `compute_arena_end`. -/
def computeArenaEnd (basePa : Nat) (layout : PmmLayout) (tablePages : Nat) (sl : SlabLayout) :
    Except Int ArenaEnd := do
  let metaEnd ← checkedAdd basePa layout.endOfStructOff EOVERFLOW
  let slabMetaEnd ← checkedAdd metaEnd sl.metaBytes EOVERFLOW
  let slabStart ← checkedAlignUp slabMetaEnd PAGE_2M EOVERFLOW
  let slabBytesOff ← checkedMul sl.reserved2mPages PAGE_2M EOVERFLOW
  let slabEnd ← checkedAdd slabStart slabBytesOff EOVERFLOW
  let tableBytes ← checkedMul tablePages PAGE_4K EOVERFLOW
  let tableEnd ← checkedAdd slabEnd tableBytes EOVERFLOW
  let arenaEnd ← checkedAlignUp tableEnd PAGE_2M EOVERFLOW
  return ⟨arenaEnd, slabMetaEnd, slabStart, slabEnd, slabEnd⟩

/-- `struct aarch64_early_arena`. -/
structure EarlyArena where
  (basePa endPa slabMetaBytes slabPageStartPa slabPageEndPa tableBasePa tableEndPa tablePages : Nat)
  layout : PmmLayout
  deriving DecidableEq, Repr

/-- The base at which the scan of `aarch64_early_arena_plan` would place an arena of `arenaBytesEst` bytes in
the range `r`. -/
def candidateBase (layout : PmmLayout) (tablePages arenaBytesEst : Nat) (r : MemoryRange) : Option Nat :=
  let sLo := max r.physStart M1_ARENA_LOW
  let eHi := min r.physEnd M1_ARENA_HI
  if eHi ≤ sLo then none
  else if eHi - sLo < arenaBytesEst then none
  else
    match computeArenaEnd sLo layout tablePages slabLayoutCompute with
    | .error _ => none
    | .ok probe => if M1_ARENA_HI < probe.slabPageEnd then none else some sLo

/-- The `brk` at which the metadata of an arena at `base` begins. -/
def metadataBrk (base : Nat) : Except Int Nat := do
  let brk ← checkedAdd base ARCH_PAGE_OFFSET EINVAL
  checkedAlignUp brk PAGE_4K EINVAL

/-- The end of `aarch64_early_arena_plan`: the arena at the base that the scan has found. -/
def placeArena (spanPages tablePages candBase : Nat) : Except Int EarlyArena := do
  let brk ← metadataBrk candBase
  let layout ← pmmLayoutCalculate brk spanPages
  let ends ← computeArenaEnd candBase layout tablePages slabLayoutCompute
  let tableBytes ← checkedMul tablePages PAGE_4K EINVAL
  let tableEnd ← checkedAdd ends.tableBase tableBytes EINVAL
  require (tableEnd ≤ ends.endPa) EINVAL
  require (ends.slabPageEnd ≤ M1_ARENA_HI) EINVAL
  require (ends.endPa ≤ M1_ARENA_HI) EINVAL
  return {
    basePa := candBase
    endPa := ends.endPa
    slabMetaBytes := slabLayoutCompute.metaBytes
    slabPageStartPa := ends.slabPageStart
    slabPageEndPa := ends.slabPageEnd
    tableBasePa := ends.tableBase
    tableEndPa := tableEnd
    tablePages := tablePages
    layout := layout }

/-- The scan for a base, and the arena there. -/
def scanArena (spanPages tablePages : Nat) (layout : PmmLayout) (estimate : ArenaEnd) :
    Except Int EarlyArena :=
  match ram.findSome? (candidateBase layout tablePages estimate.endPa) with
  | none => .error (-ENOSPC)
  | some candBase => placeArena spanPages tablePages candBase

/-- `span_pages`: the 2 MiB pages from the lowest to the highest RAM, at least one. -/
def spanPages : Nat :=
  max 1 (((ram.getLast?.map MemoryRange.physEnd).getD 0 - (ram.head?.map MemoryRange.physStart).getD 0) / 2 ^ 21)

/-- `aarch64_early_arena_plan`. -/
def earlyArenaPlan : Except Int EarlyArena := do
  require (ram.length ≠ 0 ∧ ram.length ≤ MEMORY_RANGE_MAX) EINVAL
  validateRanges ram
  let buckets ← countBuckets ram
  let tablePages := 1 + buckets.1 + buckets.2
  let brk ← metadataBrk ((ram.head?.map MemoryRange.physStart).getD 0)
  let layout ← pmmLayoutCalculate brk (spanPages ram)
  require (layout.endOfStructOff ≠ 0) EINVAL
  let estimate ← computeArenaEnd 0 layout tablePages slabLayoutCompute
  scanArena ram (spanPages ram) tablePages layout estimate

/-! ## What an accepted list is -/

/-- A range that passes `checkRange`. -/
structure RangeOk (r : MemoryRange) : Prop where
  startAligned : r.physStart % PAGE_2M = 0
  endAligned : r.physEnd % PAGE_2M = 0
  nonempty : r.physStart < r.physEnd
  below : r.physEnd ≤ M1_PA_LIMIT
  offKernel : r.physEnd ≤ B_BASE ∨ B_END ≤ r.physStart
  offDevice : r.physEnd ≤ D_BASE ∨ D_END ≤ r.physStart

/-- A list of good ranges in order. -/
structure RamOk (ram : List MemoryRange) : Prop where
  range : ∀ r ∈ ram, RangeOk r
  sorted : ram.Pairwise fun a b => a.physEnd < b.physStart

lemma checkRange_iff (prev : Option Nat) (r : MemoryRange) :
    checkRange prev r = .ok () ↔ r.type = .ram ∧ RangeOk r ∧ ∀ e ∈ prev, e < r.physStart := by
  simp only [checkRange, require_bind_eq_ok, require_eq_ok, Option.all_eq_true, decide_eq_true_eq]
  constructor
  · rintro ⟨ht, hs, he, hlt, hle, hb, hd, hp⟩
    exact ⟨ht, ⟨hs, he, hlt, hle, by omega, by omega⟩, hp⟩
  · rintro ⟨ht, ⟨hs, he, hlt, hle, hb, hd⟩, hp⟩
    exact ⟨ht, hs, he, hlt, hle, by omega, by omega, hp⟩

variable {ram : List MemoryRange} {r : MemoryRange} {layout : PmmLayout} {arena : EarlyArena}

lemma ramOk_of_validateRangesFrom {prev : Option Nat} {zones : Nat}
    (h : validateRangesFrom prev zones ram = .ok ()) :
    RamOk ram ∧ (∀ r ∈ ram, r.type = .ram) ∧ ∀ e ∈ prev, ∀ r ∈ ram, e < r.physStart := by
  induction ram generalizing prev zones with
  | nil => exact ⟨⟨by simp, .nil⟩, by simp, by simp⟩
  | cons r rs ih =>
    obtain ⟨⟨⟩, hchk, hr⟩ := bind_eq_ok.1 h
    obtain ⟨-, hr⟩ := require_bind_eq_ok.1 hr
    obtain ⟨ht, hrng, hp⟩ := (checkRange_iff prev r).1 hchk
    obtain ⟨hok, htys, haft⟩ := ih hr
    refine ⟨⟨?_, pairwise_cons.2 ⟨haft _ rfl, hok.sorted⟩⟩, ?_, ?_⟩
    · rintro q (_ | ⟨_, hq⟩)
      · exact hrng
      · exact hok.range q hq
    · rintro q (_ | ⟨_, hq⟩)
      · exact ht
      · exact htys q hq
    rintro e he q (_ | ⟨_, hq⟩)
    · exact hp e he
    · have := haft _ rfl q hq
      have := hp e he
      have := hrng.nonempty
      omega

/-! ## The blocks -/

lemma mem_blocksOf {s e : Nat} : p ∈ blocksOf s e ↔ s ≤ p ∧ p < e ∧ PAGE_2M ∣ p - s := by
  simp only [blocksOf, mem_map, mem_range, PAGE_2M]
  constructor
  · rintro ⟨k, hk, rfl⟩
    exact ⟨by omega, by omega, ⟨k, by omega⟩⟩
  · rintro ⟨hs, he, k, hk⟩
    exact ⟨k, by omega, by omega⟩

/-- A visit of a range comes in ascending order. -/
lemma nodup_blocksOf (s e : Nat) : (blocksOf s e).Nodup := by
  refine List.Nodup.map ?_ nodup_range
  intro a b hab
  have : s + PAGE_2M * a = s + PAGE_2M * b := hab
  simp only [PAGE_2M] at this
  omega

/-- An aligned block of an accepted range lies in it. -/
lemma mem_blocksOf_range (h : RangeOk r) :
    p ∈ blocksOf r.physStart r.physEnd ↔ p % PAGE_2M = 0 ∧ r.physStart ≤ p ∧ p < r.physEnd := by
  have hs := h.startAligned
  rw [mem_blocksOf]
  simp only [PAGE_2M] at hs ⊢
  omega

/-- What the blocks are for: an address lies in the kernel window, the device window or the RAM. -/
def InKernel (pa : Nat) : Prop := B_BASE ≤ pa ∧ pa < B_END

def InDevice (pa : Nat) : Prop := D_BASE ≤ pa ∧ pa < D_END

def InRam (ram : List MemoryRange) (pa : Nat) : Prop := ∃ r ∈ ram, r.physStart ≤ pa ∧ pa < r.physEnd

instance (pa : Nat) : Decidable (InKernel pa) := inferInstanceAs (Decidable (_ ∧ _))

instance (pa : Nat) : Decidable (InDevice pa) := inferInstanceAs (Decidable (_ ∧ _))

instance (ram : List MemoryRange) (pa : Nat) : Decidable (InRam ram pa) :=
  inferInstanceAs (Decidable (∃ r ∈ ram, _))

lemma mem_kernelBlocks : p ∈ blocksOf B_BASE B_END ↔ p % PAGE_2M = 0 ∧ InKernel p := by
  rw [mem_blocksOf, InKernel]
  simp only [PAGE_2M, B_BASE]
  omega

lemma mem_deviceBlocks : p ∈ blocksOf D_BASE D_END ↔ p % PAGE_2M = 0 ∧ InDevice p := by
  rw [mem_blocksOf, InDevice]
  simp only [PAGE_2M, D_BASE]
  omega

section

variable (h : RamOk ram)
include h

lemma mem_ramBlocks :
    (p ∈ ram.flatMap fun r => blocksOf r.physStart r.physEnd) ↔ p % PAGE_2M = 0 ∧ InRam ram p := by
  rw [mem_flatMap]
  constructor
  · rintro ⟨r, hr, hp⟩
    obtain ⟨hmod, hlo, hhi⟩ := (mem_blocksOf_range (h.range r hr)).1 hp
    exact ⟨hmod, r, hr, hlo, hhi⟩
  · rintro ⟨hmod, r, hr, hlo, hhi⟩
    exact ⟨r, hr, (mem_blocksOf_range (h.range r hr)).2 ⟨hmod, hlo, hhi⟩⟩

/-- Every block the tree must have, by where it lies. -/
lemma mem_expectedBlocks :
    p ∈ expectedBlocks ram ↔ p % PAGE_2M = 0 ∧ (InKernel p ∨ InDevice p ∨ InRam ram p) := by
  rw [expectedBlocks, mem_append, mem_append, mem_kernelBlocks, mem_deviceBlocks, mem_ramBlocks h]
  tauto

lemma lt_of_mem_expectedBlocks (hp : p ∈ expectedBlocks ram) : p < 2 ^ 40 := by
  obtain ⟨-, ⟨-, hlt⟩ | ⟨-, hlt⟩ | ⟨r, hr, -, hlt⟩⟩ := (mem_expectedBlocks h).1 hp
  · simp only [B_END] at hlt
    omega
  · simp only [D_END] at hlt
    omega
  · have hle := (h.range r hr).below
    simp only [M1_PA_LIMIT] at hle
    omega

/-- The RAM is visited without a repetition. -/
lemma nodup_ramBlocks : (ram.flatMap fun r => blocksOf r.physStart r.physEnd).Nodup := by
  rw [nodup_flatMap]
  refine ⟨fun r _ => nodup_blocksOf _ _, ?_⟩
  refine h.sorted.imp ?_
  intro a b hab p hpa hpb
  have ha := mem_blocksOf.1 hpa
  have hb := mem_blocksOf.1 hpb
  omega

/-- No block is visited twice. -/
lemma nodup_expectedBlocks : (expectedBlocks ram).Nodup := by
  rw [expectedBlocks, append_assoc, nodup_append', nodup_append']
  refine ⟨nodup_blocksOf _ _, ⟨nodup_blocksOf _ _, nodup_ramBlocks h, ?_⟩, ?_⟩
  · intro p hp hq
    obtain ⟨r, hr, hpr⟩ := mem_flatMap.1 hq
    have hD := mem_blocksOf.1 hp
    have hR := mem_blocksOf.1 hpr
    have hoff := (h.range r hr).offDevice
    omega
  intro p hp hq
  have hB := mem_blocksOf.1 hp
  obtain hq | hq := mem_append.1 hq
  · have hD := mem_blocksOf.1 hq
    simp only [B_BASE, D_END] at hB hD
    omega
  · obtain ⟨r, hr, hpr⟩ := mem_flatMap.1 hq
    have hR := mem_blocksOf.1 hpr
    have hoff := (h.range r hr).offKernel
    omega

end

/-! ## Counting -/

lemma countBits_eq (rounds : Nat) (w : BitVec 64) (n : Nat) :
    countBits rounds w n = n + (range rounds).countP (w.getLsbD ·) := by
  induction rounds generalizing w n with
  | zero => rfl
  | succ rounds ih =>
    rw [countBits]
    by_cases hw : w = 0
    · subst hw
      simp
    have hlow : (w &&& 1).toNat = if w.getLsbD 0 then 1 else 0 := by
      rw [BitVec.getLsbD, testBit_zero]
      change w.toNat &&& 1 = _
      rw [and_one_is_mod]
      split_ifs with h <;> simp only [decide_eq_true_eq] at h <;> omega
    have hshift : (fun i => (w >>> 1).getLsbD i) = (fun i => w.getLsbD i) ∘ succ := by
      funext i
      rw [BitVec.getLsbD_ushiftRight, add_comm]
      rfl
    rw [if_neg hw, ih, range_succ_eq_map, countP_cons, countP_map, hshift]
    omega

/-- The count over the words is the count over the bits. -/
lemma countWords_eq (m : Bitmap 64) (words : Nat) : countWords m words = (range (64 * words)).countP m.get := by
  induction words with
  | zero => rfl
  | succ words ih =>
    rw [countWords, range_succ, foldl_append, foldl_cons, foldl_nil]
    rw [countWords] at ih
    rw [countBits_eq, mul_succ, range_add, countP_append, countP_map]
    congr 1
    refine countP_congr fun i hi => ?_
    have hlt := mem_range.1 hi
    have hdiv : (64 * words + i) / 64 = words := by omega
    have hmod : (64 * words + i) % 64 = i := by omega
    simp [Bitmap.get, hdiv, hmod]

/-- The bits that are set after all blocks are marked. -/
lemma get_foldl_markBucket (shift limit : Nat) (ps : List Nat) (m : Bitmap 64) (b : Nat) :
    (ps.foldl (markBucket shift limit) m).get b = true ↔
      m.get b = true ∨ (b < limit ∧ ∃ p ∈ ps, p / 2 ^ shift = b) := by
  induction ps generalizing m with
  | nil => simp
  | cons p ps ih =>
    rw [foldl_cons, ih, markBucket]
    by_cases hlim : p / 2 ^ shift < limit
    · rw [if_pos hlim, Bitmap.get_set, Bool.or_eq_true, decide_eq_true_eq, exists_mem_cons_iff]
      constructor
      · rintro ((h | rfl) | ⟨hb, h⟩)
        · exact .inl h
        · exact .inr ⟨hlim, .inl rfl⟩
        · exact .inr ⟨hb, .inr h⟩
      · rintro (h | ⟨hb, h | h⟩)
        · exact .inl (.inl h)
        · exact .inl (.inr h.symm)
        · exact .inr ⟨hb, h⟩
    · rw [if_neg hlim, exists_mem_cons_iff]
      constructor
      · rintro (h | ⟨hb, h⟩)
        · exact .inl h
        · exact .inr ⟨hb, .inr h⟩
      · rintro (h | ⟨hb, h | h⟩)
        · exact .inl h
        · exact absurd (h ▸ hb) hlim
        · exact .inr ⟨hb, h⟩

/-- The buckets of size `2 ^ shift` that blocks lie in. -/
def bucketsOf (shift : Nat) (ps : List Nat) : Finset Nat := (ps.map (· / 2 ^ shift)).toFinset

lemma mem_bucketsOf {shift : Nat} : b ∈ bucketsOf shift ps ↔ ∃ p ∈ ps, p / 2 ^ shift = b := by
  rw [bucketsOf, mem_toFinset, mem_map]

/-- **The count of marked buckets**, where no block is beyond the limit. -/
lemma countWords_markBucket (shift words limit : Nat) (hlim : limit ≤ 64 * words)
    (hps : ∀ p ∈ ps, p / 2 ^ shift < limit) :
    countWords (ps.foldl (markBucket shift limit) fun _ => 0) words = (bucketsOf shift ps).card := by
  have hset : bucketsOf shift ps =
      ((range (64 * words)).filter (ps.foldl (markBucket shift limit) fun _ => 0).get).toFinset := by
    ext b
    rw [mem_bucketsOf, mem_toFinset, mem_filter, mem_range, get_foldl_markBucket]
    constructor
    · rintro ⟨p, hp, rfl⟩
      have := hps p hp
      exact ⟨by omega, .inr ⟨this, p, hp, rfl⟩⟩
    · rintro ⟨-, h | ⟨-, h⟩⟩
      · simp [Bitmap.get] at h
      · exact h
  rw [countWords_eq, hset, countP_eq_length_filter, toFinset_card_of_nodup (nodup_range.filter _)]

lemma foldl_mark (ps : List Nat) (u : Buckets) : ps.foldl Buckets.mark u =
      ⟨ps.foldl (markBucket 39 2) u.pudUsed, ps.foldl (markBucket 30 1024) u.pmdUsed⟩ := by
  induction ps generalizing u with
  | nil => rfl
  | cons p ps ih => rw [foldl_cons, ih, foldl_cons, foldl_cons, Buckets.mark]

/-- `count_buckets` counts the buckets of the blocks. -/
lemma countBuckets_spec (h : RamOk ram) {buckets : Nat × Nat} (hc : countBuckets ram = .ok buckets) :
    buckets = ((bucketsOf 39 (expectedBlocks ram)).card, (bucketsOf 30 (expectedBlocks ram)).card) := by
  have hlt : ∀ p ∈ expectedBlocks ram, p < 2 ^ 40 := fun p hp => lt_of_mem_expectedBlocks h hp
  have hpd : countWords (usedBuckets ram).pudUsed 2 = (bucketsOf 39 (expectedBlocks ram)).card := by
    rw [usedBuckets, foldl_mark]
    dsimp only
    refine countWords_markBucket 39 2 2 (by decide) fun p hp => ?_
    have := hlt p hp
    omega
  have hpm : countWords (usedBuckets ram).pmdUsed 16 = (bucketsOf 30 (expectedBlocks ram)).card := by
    rw [usedBuckets, foldl_mark]
    dsimp only
    refine countWords_markBucket 30 16 1024 (by decide) fun p hp => ?_
    have := hlt p hp
    omega
  rw [countBuckets, hpd, hpm] at hc
  split_ifs at hc
  exact (ok.inj hc).symm

/-! ## The plan -/

/-- What `compute_arena_end` guarantees of the pool. -/
lemma computeArenaEnd_spec {basePa : Nat} {sl : SlabLayout} {ends : ArenaEnd}
    (h : computeArenaEnd basePa layout tablePages sl = .ok ends) :
    basePa ≤ ends.slabPageStart ∧ ends.slabPageStart ≤ ends.tableBase ∧ ends.tableBase % PAGE_2M = 0 ∧
      ends.tableBase + tablePages * PAGE_4K ≤ ends.endPa := by
  obtain ⟨metaEnd, hm, h⟩ := bind_eq_ok.1 h
  obtain ⟨slabMetaEnd, hslabMeta, h⟩ := bind_eq_ok.1 h
  obtain ⟨slabStart, hst, h⟩ := bind_eq_ok.1 h
  obtain ⟨bytesOff, hoff, h⟩ := bind_eq_ok.1 h
  obtain ⟨slabEnd, hslabEnd, h⟩ := bind_eq_ok.1 h
  obtain ⟨tableBytes, hby, h⟩ := bind_eq_ok.1 h
  obtain ⟨tableEnd, htableEnd, h⟩ := bind_eq_ok.1 h
  obtain ⟨arenaEnd, harena, h⟩ := bind_eq_ok.1 h
  obtain rfl := ok.inj h
  obtain rfl := checkedAdd_eq_ok hm
  obtain rfl := checkedAdd_eq_ok hslabMeta
  obtain rfl := checkedMul_eq_ok hoff
  obtain rfl := checkedAdd_eq_ok hslabEnd
  obtain rfl := checkedMul_eq_ok hby
  obtain rfl := checkedAdd_eq_ok htableEnd
  obtain ⟨hle, k, rfl⟩ := checkedAlignUp_eq_ok (by decide) hst
  obtain ⟨hle', -⟩ := checkedAlignUp_eq_ok (by decide) harena
  refine ⟨by dsimp only; omega, le_add_right _ _, ?_, hle'⟩
  rw [mul_comm PAGE_2M, ← add_mul, mul_mod_left]

/-- The list and the pool of an accepted plan. -/
structure Planned (ram : List MemoryRange) (arena : EarlyArena) : Prop where
  ok : RamOk ram
  types : ∀ r ∈ ram, r.type = .ram
  count : ram.length ≤ MEMORY_RANGE_MAX
  pages : arena.tablePages = 1 + (bucketsOf 39 (expectedBlocks ram)).card + (bucketsOf 30 (expectedBlocks ram)).card
  aligned : arena.tableBasePa % PAGE_4K = 0
  low : M1_ARENA_LOW ≤ arena.tableBasePa
  high : arena.tableBasePa + arena.tablePages * PAGE_4K ≤ M1_ARENA_HI

lemma candidateBase_low {est base : Nat}
    (h : candidateBase layout tablePages est r = some base) : M1_ARENA_LOW ≤ base := by
  rw [candidateBase] at h
  split_ifs at h
  split at h
  · cases h
  · split_ifs at h
    cases h
    exact le_max_right _ _

/-- The pool of an arena that was placed. -/
lemma placeArena_spec {span candBase : Nat} (h : placeArena span tablePages candBase = .ok arena) :
    arena.tablePages = tablePages ∧ arena.tableBasePa % PAGE_4K = 0 ∧
      (arena.basePa = candBase ∧ candBase ≤ arena.slabPageStartPa ∧ arena.slabPageStartPa ≤ arena.tableBasePa) ∧
      arena.tableBasePa + tablePages * PAGE_4K ≤ M1_ARENA_HI := by
  obtain ⟨brk, -, h⟩ := bind_eq_ok.1 h
  obtain ⟨layout, -, h⟩ := bind_eq_ok.1 h
  obtain ⟨ends, he, h⟩ := bind_eq_ok.1 h
  obtain ⟨tableBytes, -, h⟩ := bind_eq_ok.1 h
  obtain ⟨tableEnd, -, h⟩ := bind_eq_ok.1 h
  obtain ⟨-, h⟩ := require_bind_eq_ok.1 h
  obtain ⟨-, h⟩ := require_bind_eq_ok.1 h
  obtain ⟨hhg, h⟩ := require_bind_eq_ok.1 h
  obtain rfl := ok.inj h
  obtain ⟨hb, hst, hmod, hend⟩ := computeArenaEnd_spec he
  refine ⟨rfl, ?_, ⟨rfl, hb, hst⟩, le_trans hend hhg⟩
  simp only [PAGE_2M, PAGE_4K] at hmod ⊢
  omega

/-- **Accepted plans.** -/
lemma plan_spec (h : earlyArenaPlan ram = .ok arena) :
    Planned ram arena ∧ arena.basePa ≤ arena.slabPageStartPa ∧ arena.slabPageStartPa ≤ arena.tableBasePa := by
  obtain ⟨⟨-, hcnt⟩, h⟩ := require_bind_eq_ok.1 h
  obtain ⟨⟨⟩, hval, h⟩ := bind_eq_ok.1 h
  obtain ⟨buckets, hbuckets, h⟩ := bind_eq_ok.1 h
  obtain ⟨brk, -, h⟩ := bind_eq_ok.1 h
  obtain ⟨layout, -, h⟩ := bind_eq_ok.1 h
  obtain ⟨-, h⟩ := require_bind_eq_ok.1 h
  obtain ⟨estimate, -, h⟩ := bind_eq_ok.1 h
  obtain ⟨-, hval⟩ := require_bind_eq_ok.1 hval
  obtain ⟨hok, htys, -⟩ := ramOk_of_validateRangesFrom hval
  have hpgs := countBuckets_spec hok hbuckets
  rw [scanArena] at h
  cases hc : ram.findSome? (candidateBase layout (1 + buckets.1 + buckets.2) estimate.endPa) with
  | none =>
    rw [hc] at h
    cases h
  | some candBase =>
    rw [hc] at h
    obtain ⟨htab, hal, ⟨hb, hs, hst⟩, hhg⟩ := placeArena_spec h
    obtain ⟨r, -, hr⟩ := exists_of_findSome?_eq_some hc
    refine ⟨?_, hb ▸ hs, hst⟩
    exact {
      ok := hok
      types := htys
      count := hcnt
      pages := by rw [htab, hpgs]
      aligned := hal
      low := le_trans (candidateBase_low hr) (le_trans hs hst)
      high := by rw [htab]; exact hhg }

end OS01.Aarch64
