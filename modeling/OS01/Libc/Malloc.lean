import OS01.Lib.Bytes
import OS01.Lib.LinkedList
import OS01.Lib.Run
import OS01.Lib.Tiles
import OS01.Memory.Vma

/-!
# The user-space heap

`libc/stdlib/malloc.c` and `calloc.c`: a first-fit allocator over the program break. Every block begins with a header of
sixteen bytes (its size, and whether it is free); a free block has the link of the free list behind the header. All of
this lies in the same memory as the contents of the blocks, so the memory is modelled byte by byte.

A system is the heap together with what its clients know: the blocks they hold, each with the number of bytes they asked
for and what these bytes should be. `HeapOk` is what they rely on, and what the allocator relies on: the blocks tile the
heap, and the free list holds exactly the free ones.
-/

namespace OS01.Libc

open Function Lib Memory

/-- `MALLOC_ALIGN`. -/
def MALLOC_ALIGN : Nat := 16
/-- `HEADER_SIZE`. -/
def HEADER_SIZE : Nat := 16
/-- `MIN_BLOCK_SIZE`. -/
def MIN_BLOCK_SIZE : Nat := 32

/-- The memory of a process and the variables of the allocator. -/
structure Heap where
  mem : Mem
  /-- Where the break was at the start: the kernel never moves it below. -/
  start : Nat
  brk : Nat
  freelist : Nat
  initialized : Bool

/-- Which of the `SYS_brk` calls of one call of the allocator the kernel grants: the query of `malloc`, its request for
more, and the query when a block is freed. -/
structure BrkAnswers where
  query : Bool
  extend : Bool
  coalesce : Bool
deriving DecidableEq, Repr

namespace Heap

/-! ## Headers -/

variable (h : Heap)

/-- `hdr->size`. -/
def size (a : Nat) : Nat := leNat (h.mem.read a 8)
/-- `hdr->is_free`. -/
def isFree (a : Nat) : Bool := decide (leNat (h.mem.read (a + 8) 4) ≠ 0)
/-- `block->next`. -/
def next (a : Nat) : Nat := leNat (h.mem.read (a + 16) 8)

/-- Store `hdr->size`. -/
@[simps start brk freelist initialized]
def setSize (a v : Nat) : Heap := { h with mem := h.mem.write a (leBytes 8 v) }
/-- Store `hdr->is_free`. -/
@[simps start brk freelist initialized]
def setFree (a v : Nat) : Heap := { h with mem := h.mem.write (a + 8) (leBytes 4 v) }
/-- Store `block->next`. -/
@[simps start brk freelist initialized]
def setNext (a v : Nat) : Heap := { h with mem := h.mem.write (a + 16) (leBytes 8 v) }

/-- `prev->next = x`, or `freelist = x` if there is no `prev`. -/
def link (prev x : Nat) : Heap := if prev = 0 then { h with freelist := x } else h.setNext prev x

/-- A bound on the length of any list of blocks. -/
def rounds : Nat := (h.brk - h.start) / 32 + 1

/-! ## The break -/

/-- `get_brk`. -/
def getBrk (granted : Bool) : Nat := if granted then h.brk else 0

/-- `set_brk`: the kernel takes 0 for a query and refuses addresses outside the heap's room. What a break that moves
down takes from the memory above it is not modelled. -/
def setBrk (addr : Nat) (granted : Bool) : Heap × Bool :=
  if !granted then (h, false)
  else if addr = 0 then (h, true)
  else if addr < h.start ∨ HEAP_LIMIT < addr then (h, false)
  else ({ h with brk := addr }, true)

/-! ## `malloc` -/

/-- `align_up(n, MALLOC_ALIGN)`. -/
def alignUp (n : Nat) : Nat := u64 (n + (MALLOC_ALIGN - 1)) / MALLOC_ALIGN * MALLOC_ALIGN

/-- The size of the block for a request. -/
def blockTotal (size : Nat) : Nat :=
  let total := u64 (alignUp size + HEADER_SIZE)
  if total < MIN_BLOCK_SIZE then MIN_BLOCK_SIZE else total

/-- The search of `malloc`: the first free block that is large enough, with the one before it. The outer `none` is a
search that does not end. -/
def findFit (h : Heap) (total : Nat) : Nat → Nat → Nat → Option (Option (Nat × Nat))
  | 0, _, _ => none
  | rounds + 1, prev, block =>
    if block = 0 then some none
    else if total ≤ h.size block then some (some (prev, block))
    else findFit h total rounds block (h.next block)

/-- What `malloc` does with the block that it found. -/
def takeBlock (total prev block : Nat) : Heap :=
  let remain := h.size block - total
  if MIN_BLOCK_SIZE ≤ remain then
    let new := block + total
    let h := (h.setSize new remain).setFree new 1
    let h := h.setNext new (h.next block)
    let h := h.setSize block total
    (h.link prev new).setFree block 0
  else (h.link prev (h.next block)).setFree block 0

/-- The end of `malloc`, where no block is large enough. -/
def extend (h : Heap) (total : Nat) (env : BrkAnswers) : Heap × Nat :=
  let brk := h.getBrk env.query
  if brk = 0 then (h, 0)
  else
    match h.setBrk (u64 (brk + total)) env.extend with
    | (h, false) => (h, 0)
    | (h, true) => ((h.setSize brk total).setFree brk 0, brk + HEADER_SIZE)

/-- `heap_init`, on the first call. -/
def heapInit : Heap := if h.initialized then h else { h with initialized := true, freelist := 0 }

/-- `malloc`; `none` is a call that does not return. -/
def malloc (size : Nat) (env : BrkAnswers) : Option (Heap × Nat) :=
  if size = 0 then some (h, 0)
  else
    let h := h.heapInit
    match h.findFit (blockTotal size) h.rounds 0 h.freelist with
    | none => none
    | some (some (prev, block)) => some (h.takeBlock (blockTotal size) prev block, block + HEADER_SIZE)
    | some none => some (h.extend (blockTotal size) env)

/-! ## `free` -/

/-- The search of `try_coalesce`: the free block in front of `target` in the free list. -/
def findPrev (h : Heap) (target : Nat) : Nat → Nat → Option Nat
  | 0, _ => none
  | rounds + 1, prev => if prev = 0 ∨ h.next prev = target then some prev else findPrev h target rounds (h.next prev)

/-- `try_coalesce`. -/
def tryCoalesce (block : Nat) (granted : Bool) : Option Heap :=
  let nextAddr := block + h.size block
  if h.getBrk granted ≤ nextAddr then some h
  else if h.isFree nextAddr then
    let h := h.setSize block (u64 (h.size block + h.size nextAddr))
    if h.freelist = nextAddr then some { h with freelist := h.next nextAddr }
    else
      match h.findPrev nextAddr h.rounds h.freelist with
      | none => none
      | some prev => if prev = 0 then some h else some (h.setNext prev (h.next nextAddr))
  else some h

/-- `free`. -/
def free (ptr : Nat) (granted : Bool) : Option Heap :=
  if ptr = 0 then some h
  else if !h.initialized then some h
  else
    let b := ptr - HEADER_SIZE
    if h.isFree b then some h
    else
      let h := h.setFree b 1
      let h := { h.setNext b h.freelist with freelist := b }
      h.tryCoalesce b granted

/-! ## `calloc` and `realloc` -/

/-- `memset(p, 0, n)`. -/
def zero (p n : Nat) : Heap := { h with mem := fun x => if p ≤ x ∧ x < p + n then 0 else h.mem x }

/-- `memcpy(dst, src, n)`. -/
def copy (dst src n : Nat) : Heap :=
  { h with mem := fun x => if dst ≤ x ∧ x < dst + n then h.mem (src + (x - dst)) else h.mem x }

/-- `calloc`. -/
def calloc (n size : Nat) (env : BrkAnswers) : Option (Heap × Nat) :=
  let total := u64 (n * size)
  match h.malloc total env with
  | none => none
  | some (h, p) => if p = 0 then some (h, 0) else some (h.zero p total, p)

/-- `realloc`. -/
def realloc (ptr size : Nat) (env : BrkAnswers) : Option (Heap × Nat) :=
  if ptr = 0 then h.malloc size env
  else if size = 0 then (h.free ptr env.coalesce).map fun h => (h, 0)
  else
    match h.malloc size env with
    | none => none
    | some (h, new) =>
      if new = 0 then some (h, 0)
      else
        let oldUsable := h.size (ptr - HEADER_SIZE) - HEADER_SIZE
        ((h.copy new ptr (if oldUsable < size then oldUsable else size)).free ptr env.coalesce).map fun h => (h, new)

end Heap

/-! ## Clients -/

/-- A block that a client holds: its address, the bytes asked for, and what they should be. -/
structure Held where
  ptr : Nat
  size : Nat
  data : Nat → UInt8

/-- The heap with its clients. -/
structure HeapSystem where
  heap : Heap
  live : List Held

/-- A call of the allocator, or a client that writes to a block that it holds. -/
inductive HeapEvent
  | malloc (size : Nat) (env : BrkAnswers)
  | calloc (n size : Nat) (env : BrkAnswers)
  | free (ptr : Nat) (env : BrkAnswers)
  | realloc (ptr size : Nat) (env : BrkAnswers)
  | store (ptr i : Nat) (b : UInt8)

namespace HeapSystem

/-- A new block is held, unless the result is `NULL`. -/
def hold (live : List Held) (p size : Nat) (data : Nat → UInt8) : List Held :=
  if p = 0 then live else ⟨p, size, data⟩ :: live

/-- A block is no longer held. -/
def drop (live : List Held) (p : Nat) : List Held := live.filter fun e => e.ptr ≠ p

/-- What the clients may do: they free, resize and write only what they hold. -/
def Permitted (s : HeapSystem) : HeapEvent → Prop
  | .malloc size _ => size < 2 ^ 64
  | .calloc n size _ => n < 2 ^ 64 ∧ size < 2 ^ 64
  | .free ptr _ => ptr = 0 ∨ ∃ e ∈ s.live, e.ptr = ptr
  | .realloc ptr size _ => size < 2 ^ 64 ∧ (ptr = 0 ∨ ∃ e ∈ s.live, e.ptr = ptr)
  | .store ptr i _ => ∃ e ∈ s.live, e.ptr = ptr ∧ i < e.size

/-- A step, with what its clients may expect of the contents: zeros from `calloc`, the old bytes from `realloc`. -/
def next (s : HeapSystem) : HeapEvent → Option HeapSystem
  | .malloc size env =>
    (s.heap.malloc size env).map fun (h, p) => ⟨h, hold s.live p size fun i => h.mem (p + i)⟩
  | .calloc n size env => (s.heap.calloc n size env).map fun (h, p) => ⟨h, hold s.live p (n * size) fun _ => 0⟩
  | .free ptr env => (s.heap.free ptr env.coalesce).map fun h => ⟨h, drop s.live ptr⟩
  | .realloc ptr size env =>
    (s.heap.realloc ptr size env).map fun (h, p) =>
      let old := s.live.find? fun e => e.ptr = ptr
      let data := fun i =>
        match old with
        | some e => if i < min e.size size then e.data i else h.mem (p + i)
        | none => h.mem (p + i)
      -- a failed call leaves the old block alone
      ⟨h, hold (if p = 0 ∧ size ≠ 0 then s.live else drop s.live ptr) p size data⟩
  | .store ptr i b =>
    some ⟨{ s.heap with mem := update s.heap.mem (ptr + i) b },
      s.live.map fun e => if e.ptr = ptr then { e with data := update e.data i b } else e⟩

/-- A step of the system. -/
def Step (s : HeapSystem) (e : HeapEvent) (t : HeapSystem) : Prop := s.Permitted e ∧ s.next e = some t

/-- A process that starts. -/
def init (start : Nat) (mem : Mem) : HeapSystem := ⟨⟨mem, start, start, 0, false⟩, []⟩

end HeapSystem

/-! ## The invariant -/

/-- A block of the heap. -/
structure HeapBlock where
  addr : Nat
  size : Nat
  free : Bool
deriving DecidableEq, Repr

/-- The memory holds these blocks, and a free list in this order. -/
structure Heap.Holds (h : Heap) (bs : List HeapBlock) (order : List Nat) : Prop where
  tiles : Tiles HeapBlock.addr HeapBlock.size h.start bs h.brk
  sizes : ∀ b ∈ bs, MIN_BLOCK_SIZE ≤ b.size ∧ MALLOC_ALIGN ∣ b.size
  headers : ∀ b ∈ bs, h.size b.addr = b.size ∧ h.isFree b.addr = b.free
  list : IsList h.next h.freelist order
  nodup : order.Nodup
  exact : ∀ a, a ∈ order ↔ ∃ b ∈ bs, b.free = true ∧ b.addr = a
  aligned : MALLOC_ALIGN ∣ h.start
  room : 0 < h.start ∧ h.brk ≤ HEAP_LIMIT
  fresh : h.initialized = false → bs = []

/-- The blocks in use are those that the clients hold, and large enough. -/
structure Owned (live : List Held) (bs : List HeapBlock) : Prop where
  nodup : (live.map Held.ptr).Nodup
  block : ∀ e ∈ live, ∃ b ∈ bs, b.free = false ∧ e.ptr = b.addr + HEADER_SIZE ∧ e.size + HEADER_SIZE ≤ b.size
  held : ∀ b ∈ bs, b.free = false → ∃ e ∈ live, e.ptr = b.addr + HEADER_SIZE

/-- The blocks have the contents that the clients expect. -/
def Heap.Stores (h : Heap) (live : List Held) : Prop := ∀ e ∈ live, ∀ i < e.size, h.mem (e.ptr + i) = e.data i

/-- The property of the heap. -/
structure HeapSystem.HeapOk (s : HeapSystem) : Prop where
  aligned : ∀ e ∈ s.live, 16 ∣ e.ptr
  inside : ∀ e ∈ s.live, s.heap.start ≤ e.ptr ∧ e.ptr + e.size ≤ s.heap.brk
  disjoint : s.live.Pairwise fun e f => e.ptr + e.size ≤ f.ptr ∨ f.ptr + f.size ≤ e.ptr
  contents : s.heap.Stores s.live
  blocks : ∃ bs order, s.heap.Holds bs order ∧ Owned s.live bs

/-! ## Requests that wrap -/

/-- A request whose block size can be computed in 64 bits, and whose new break too, unless the kernel refuses what it
wraps to. -/
def Heap.NoWrap (h : Heap) (size : Nat) : Prop :=
  size = 0 ∨
    size + 31 < 2 ^ 64 ∧
      (h.brk + Heap.blockTotal size < 2 ^ 64 ∨
        0 < u64 (h.brk + Heap.blockTotal size) ∧ u64 (h.brk + Heap.blockTotal size) < h.start)

/-- The condition on a step. -/
def HeapSystem.NoWrap (s : HeapSystem) : HeapEvent → Prop
  | .malloc size _ => s.heap.NoWrap size
  | .calloc n size _ => (n * size < 2 ^ 64 ∨ u64 (n * size) = 0) ∧ s.heap.NoWrap (u64 (n * size))
  | .realloc _ size _ => s.heap.NoWrap size
  | _ => True

end OS01.Libc
