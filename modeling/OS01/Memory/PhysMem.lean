import OS01.Memory.Vma

/-!
# Frames, their copy-on-write counts, and page-table memory

The allocators that the page-table code calls (`kernel/memory/pmm.c`): `alloc_4k_page` and
`free_4k_page` over the two-megabyte pools of 4 KiB slots, the copy-on-write counter of every slot
(`page_cow_get`, `page_cow_put`, `page_cow_refs`), whole two-megabyte frames, and the `calloc` of
page tables. A 4 KiB frame is named by its number, the physical address divided by 4096; slot 0 of a
pool holds the pool's own header, so no frame that is handed out is a multiple of 512.

Which slot an allocation takes is a parameter of the call. A parameter that is not a free slot of a
pool, or of a free two-megabyte frame that then becomes a pool, stands for failure, so the functions
are total and every pattern of success and failure is some choice of parameters.
-/

namespace OS01.Memory

open Function Lib

/-- What a two-megabyte frame is used for. -/
inductive PageUse
  /-- Free in the frame allocator. -/
  | free
  /-- A pool of 4 KiB slots. -/
  | pool
  /-- One huge page. -/
  | huge
  /-- Device memory, which the frame allocator does not manage. -/
  | device
  /-- Anything else the kernel holds. -/
  | kernel
deriving DecidableEq, Repr

/-- Physical memory with the state of its allocators. -/
structure PhysMem where
  /-- The use of each two-megabyte frame. -/
  owner : Nat → PageUse
  /-- The pool bitmaps: whether a 4 KiB frame is handed out. -/
  used : Nat → Bool
  /-- The counters `cow_count`, below `2 ^ 16`. -/
  cow : Nat → Nat
  /-- The contents, by physical address. -/
  bytes : Nat → UInt8
  /-- The page tables that are allocated. -/
  tables : Nat → Bool

namespace PhysMem

variable (m : PhysMem)

/-- Whether `alloc_4k_page` can hand out a frame. -/
def Available (f : Nat) : Prop :=
  f % 512 ≠ 0 ∧ m.used f = false ∧ (m.owner (f / 512) = .pool ∨ m.owner (f / 512) = .free)

instance (f : Nat) : Decidable (m.Available f) := inferInstanceAs (Decidable (_ ∧ _))

/-- The slot is taken, in a pool that may be new, and its counter starts at zero. -/
def take (f : Nat) : PhysMem :=
  { m with
    owner := update m.owner (f / 512) .pool
    used := update m.used f true
    cow := update m.cow f 0 }

/-- `alloc_4k_page`; `none` is the result 0. -/
def alloc4kPage : Option Nat → PhysMem × Option Nat
  | none => (m, none)
  | some f => if m.Available f then (m.take f, some f) else (m, none)

/-- `free_4k_page`: a frame outside the pools is left alone. -/
def free4kPage (f : Nat) : PhysMem :=
  if f ≠ 0 ∧ m.owner (f / 512) = .pool then { m with used := update m.used f false }
  else m

/-- `page_cow_put`: whether the counter reached zero. -/
def cowPut (f : Nat) : PhysMem × Bool :=
  if m.owner (f / 512) = .pool ∧ 0 < m.cow f then
    ({ m with cow := update m.cow f (m.cow f - 1) }, decide (m.cow f = 1))
  else (m, false)

/-- `page_cow_refs`. -/
def cowRefs (f : Nat) : Nat := if m.owner (f / 512) = .pool then m.cow f else 0

/-- Write a whole 4 KiB frame. -/
def fillPage (f : Nat) (content : Nat → UInt8) : PhysMem :=
  { m with bytes := fun a => if a / 4096 = f then content (a % 4096) else m.bytes a }

/-- The byte of a 4 KiB frame at an offset. -/
def byteAt (f off : Nat) : UInt8 := m.bytes (f * 4096 + off)

/-- `memcpy` of one 4 KiB frame to another. -/
def copyPage (src dst : Nat) : PhysMem := m.fillPage dst (m.byteAt src)

/-- `calloc(1, PAGE_4K_SIZE)` for a page table. -/
def callocTable : Option Nat → PhysMem × Option Nat
  | none => (m, none)
  | some t =>
    if m.tables t then (m, none)
    else ({ m with tables := update m.tables t true }, some t)

end PhysMem

/-! ## The books of the frame allocators -/

/-- The frames and counters of two memories are the same. -/
structure SameBooks (m m' : PhysMem) : Prop where
  owner : m'.owner = m.owner
  used : m'.used = m.used
  cow : m'.cow = m.cow

variable {m m' m'' : PhysMem} {f g : Nat}

lemma SameBooks.refl : SameBooks m m := ⟨rfl, rfl, rfl⟩

lemma SameBooks.trans (h : SameBooks m m') (h' : SameBooks m' m'') : SameBooks m m'' :=
  ⟨h'.owner.trans h.owner, h'.used.trans h.used, h'.cow.trans h.cow⟩

/-- What an allocation of a page table changes. -/
lemma PhysMem.callocTable_spec (o : Option Nat) :
    SameBooks m (m.callocTable o).1 ∧ (m.callocTable o).1.bytes = m.bytes := by
  cases o with
  | none => exact ⟨.refl, rfl⟩
  | some t =>
    unfold callocTable
    dsimp only
    split
    · exact ⟨.refl, rfl⟩
    · exact ⟨⟨rfl, rfl, rfl⟩, rfl⟩

end OS01.Memory
