import OS01.Aarch64.EarlyArena
import OS01.Aarch64.Walk

/-!
# The runtime tree

The builder of `kernel/arch/aarch64/memory/runtime_tree.c`. It visits every 2 MiB block of the kernel
window, of the device window and of the RAM, makes the tables on the way to a block where they are missing,
and writes the block's descriptor into the level 2 table. The table of level 1 is remembered in the builder;
that of level 2 is found again through the descriptor that was written for it.

The tables live in memory that is addressed by physical page, and a pointer to a table is the page it points
to. The callbacks are functions of the number of pages handed out so far. A build that fails returns its
code; the tables it has written by then are not part of any result.

`hwTranslate` is the walk of the hardware from a root.
-/

namespace OS01.Aarch64

open Function (update)

/-! ## Descriptors -/

def RT_DESC_L2_PA_MASK : Word := 0xffffe00000
def RT_DESC_L_PA_MASK : Word := 0xfffffff000

/-- `rt_encode_table_desc`. -/
def rtEncodeTableDesc (pa : Word) : Word := DESC_VALID ||| DESC_TABLE ||| (pa &&& RT_DESC_L_PA_MASK)

/-- `rt_encode_block_desc`. -/
def rtEncodeBlockDesc (pa : Word) (perm : Perm) : Word :=
  if perm &&& DEVICE ≠ 0 then
    DESC_VALID ||| DESC_AF ||| DESC_SH_NS ||| AP_KERNEL_RW ||| ATTR_DEVICE ||| DESC_PXN ||| DESC_UXN |||
      (pa &&& RT_DESC_L2_PA_MASK)
  else if perm &&& EXEC ≠ 0 then
    DESC_VALID ||| DESC_AF ||| DESC_SH_IS ||| AP_KERNEL_RW ||| ATTR_NORMAL ||| DESC_UXN |||
      (pa &&& RT_DESC_L2_PA_MASK)
  else
    DESC_VALID ||| DESC_AF ||| DESC_SH_IS ||| AP_KERNEL_RW ||| ATTR_NORMAL ||| DESC_PXN ||| DESC_UXN |||
      (pa &&& RT_DESC_L2_PA_MASK)

/-! ## The callbacks and the builder -/

/-- `struct aarch64_tree_ops`. -/
structure TreeOps where
  /-- What the call of `alloc` after `k` pages returns: the page and the pointer to it. -/
  alloc : Nat → Except Int (Word × Option Word)
  /-- What `resolve` returns after `k` pages. -/
  resolve : Nat → Word → Option Word

/-- `rt_builder_t`. A level 1 table has a page and a pointer, which are set together. -/
structure RtBuilder where
  mem : Word → Nat → Word
  rootVa : Word
  pud : Nat → Option (Word × Word)
  firstPa : Word
  lastPa : Word
  pagesIssued : Nat
  pagesCap : Nat

namespace RtBuilder

/-- `p[i] = d`. -/
def store (b : RtBuilder) (p : Word) (i : Nat) (d : Word) : RtBuilder :=
  { b with mem := update b.mem p (update (b.mem p) i d) }

/-- The bookkeeping of `rt_alloc_one` for the page `pa`, which is cleared. -/
def issue (b : RtBuilder) (pa va : Word) : RtBuilder :=
  { b with
    mem := update b.mem va fun _ => 0
    firstPa := if b.pagesIssued = 0 then pa else b.firstPa
    lastPa := pa
    pagesIssued := b.pagesIssued + 1 }

/-- The level 1 table for the slot `l0Idx` of the root. -/
def setPud (b : RtBuilder) (l0Idx : Nat) (pa va : Word) : RtBuilder :=
  { b with pud := update b.pud l0Idx (some (pa, va)) }

end RtBuilder

variable (ops : TreeOps)

/-- `rt_alloc_one`. -/
def rtAllocOne (b : RtBuilder) : Except Int ((Word × Word) × RtBuilder) := do
  require (b.pagesIssued < b.pagesCap) ENOMEM
  let page ← ops.alloc b.pagesIssued
  require (page.1 ≠ 0) EINVAL
  require (page.1 &&& 0xfff = 0) EINVAL
  match page.2 with
  | none => .error (-EINVAL)
  | some va => .ok ((page.1, va), b.issue page.1 va)

/-- `rt_find_pud`. -/
def rtFindPud (b : RtBuilder) (l0Idx : Nat) : Option (Word × Word) := if 2 ≤ l0Idx then none else b.pud l0Idx

/-- `rt_find_pmd`: the table with its pointer, nothing, or the code of a page that is not resolved. -/
def rtFindPmd (b : RtBuilder) (l0Idx l1Idx : Nat) : Except Int (Option (Word × Word)) :=
  if 2 ≤ l0Idx ∨ 512 ≤ l1Idx then .ok none
  else
    match b.pud l0Idx with
    | none => .ok none
    | some pud =>
      let desc := b.mem pud.2 l1Idx
      if desc = 0 then .ok none
      else
        match ops.resolve b.pagesIssued (desc &&& RT_DESC_L_PA_MASK) with
        | none => .error (-EINVAL)
        | some va => .ok (some (desc &&& RT_DESC_L_PA_MASK, va))

/-- `rt_install_pud`. -/
def rtInstallPud (b : RtBuilder) (l0Idx : Nat) : Except Int RtBuilder := do
  require (l0Idx < 2) EINVAL
  let ((pa, va), b) ← rtAllocOne ops b
  return (b.setPud l0Idx pa va).store b.rootVa l0Idx (rtEncodeTableDesc pa)

/-- `rt_install_pmd`. -/
def rtInstallPmd (b : RtBuilder) (l0Idx l1Idx : Nat) : Except Int RtBuilder := do
  require (l0Idx < 2) EINVAL
  require (l1Idx < 512) EINVAL
  match rtFindPud b l0Idx with
  | none => .error (-EINVAL)
  | some pud => do
      let ((pa, _), b) ← rtAllocOne ops b
      return b.store pud.2 l1Idx (rtEncodeTableDesc pa)

/-- The part of `rt_install_block` that makes the level 1 table. -/
def ensurePud (b : RtBuilder) (l0Idx : Nat) : Except Int RtBuilder :=
  match rtFindPud b l0Idx with
  | some _ => .ok b
  | none => do
      let b ← rtInstallPud ops b l0Idx
      require ((rtFindPud b l0Idx).isSome = true) EINVAL
      return b

/-- The part of `rt_install_block` that finds or makes the level 2 table. -/
def ensurePmd (b : RtBuilder) (l0Idx l1Idx : Nat) : Except Int (Word × RtBuilder) := do
  match ← rtFindPmd ops b l0Idx l1Idx with
  | some pmd => return (pmd.2, b)
  | none => do
      let b ← rtInstallPmd ops b l0Idx l1Idx
      match ← rtFindPmd ops b l0Idx l1Idx with
      | some pmd => return (pmd.2, b)
      | none => .error (-EINVAL)

/-- `rt_install_block`. The indices of a block are those of its first page. -/
def rtInstallBlock (b : RtBuilder) (pa : Nat) (perm : Perm) : Except Int RtBuilder := do
  let l0Idx := index (pa / 4096) 0
  let l1Idx := index (pa / 4096) 1
  let l2Idx := index (pa / 4096) 2
  require (l0Idx < 2) ERANGE
  let b ← ensurePud ops b l0Idx
  let (pmdVa, b) ← ensurePmd ops b l0Idx l1Idx
  require (b.mem pmdVa l2Idx = 0) EINVAL
  return b.store pmdVa l2Idx (rtEncodeBlockDesc (BitVec.ofNat 64 pa) perm)

variable (ram : List MemoryRange)

/-- The visits of `rt_walk_expected_blocks`. -/
def rtExpected : List (Nat × Perm) :=
  (blocksOf B_BASE B_END).map (·, KERNEL_RW ||| EXEC) ++ (blocksOf D_BASE D_END).map (·, KERNEL_RW ||| DEVICE) ++
    (ram.flatMap fun r => blocksOf r.physStart r.physEnd).map (·, KERNEL_RW)

/-- The loop of `rt_validate_ram`. -/
def rtValidateFrom (prev : Option Nat) : List MemoryRange → Except Int Unit
  | [] => .ok ()
  | r :: rs => do
      checkRange prev r
      rtValidateFrom (some r.physEnd) rs

/-- `rt_validate_ram`. -/
def rtValidateRam : Except Int Unit := do
  require (ram.length ≤ MEMORY_RANGE_MAX) EINVAL
  rtValidateFrom none ram

/-- `struct aarch64_runtime_tree`. -/
structure RuntimeTree where
  rootPa : Word
  tableBasePa : Word
  tableUsedEndPa : Word
  pageCount : Nat

/-- `aarch64_runtime_tree_build`: the tree and the memory with its tables. -/
def runtimeTreeBuild (arena : EarlyArena) (ops : TreeOps) (mem : Word → Nat → Word) :
    Except Int (RuntimeTree × (Word → Nat → Word)) := do
  require (ram.length ≤ MEMORY_RANGE_MAX) EINVAL
  require (arena.tableBasePa ≠ 0) EINVAL
  require (arena.tableBasePa % PAGE_4K = 0) EINVAL
  require (arena.tablePages ≠ 0) EINVAL
  rtValidateRam ram
  let ((_, rootVa), b) ← rtAllocOne ops ⟨mem, 0, fun _ => none, 0, 0, 0, arena.tablePages⟩
  let b ← (rtExpected ram).foldlM (fun b x => rtInstallBlock ops b x.1 x.2) { b with rootVa := rootVa }
  require (b.pagesIssued ≤ b.pagesCap) ENOMEM
  return (⟨b.firstPa, b.firstPa, b.lastPa + 0x1000, b.pagesIssued⟩, b.mem)

/-! ## The walk of the hardware -/

/-- What a descriptor allows, bit by bit. -/
structure Rights where
  (write user kernelExec userExec device : Bool)
  deriving DecidableEq, Repr

/-- The rights in a descriptor of a page or a block. -/
def rightsOf (d : Word) : Rights where
  write := d &&& 0x80 == 0
  user := d &&& 0x40 != 0
  kernelExec := d &&& DESC_PXN == 0
  userExec := d &&& DESC_UXN == 0
  device := d &&& (0x7 <<< 2) == ATTR_DEVICE

/-- The result for the address `va` at a descriptor of a range of `2 ^ shift` bytes, whose output address is
in the bits of `mask`; without the access flag there is none. -/
def leafTranslate (d mask : Word) (shift va : Nat) : Option (Nat × Rights) :=
  if d &&& DESC_AF = 0 then none else some ((d &&& mask).toNat + va % 2 ^ shift, rightsOf d)

/-- The walk of the hardware for the address `va`, with blocks at levels 1 and 2. -/
def hwTranslate (mem : Word → Nat → Word) (root : Word) (va : Nat) : Option (Nat × Rights) :=
  let n := va / 4096
  let d₀ := mem root (index n 0)
  if d₀ &&& 3 ≠ 3 then none
  else
    let d₁ := mem (d₀ &&& PA_MASK) (index n 1)
    if d₁ &&& DESC_VALID = 0 then none
    else if d₁ &&& DESC_TABLE = 0 then leafTranslate d₁ 0xffffc0000000 30 va
    else
      let d₂ := mem (d₁ &&& PA_MASK) (index n 2)
      if d₂ &&& DESC_VALID = 0 then none
      else if d₂ &&& DESC_TABLE = 0 then leafTranslate d₂ BLOCK_OA_MASK 21 va
      else
        let d₃ := mem (d₂ &&& PA_MASK) (index n 3)
        if d₃ &&& 3 ≠ 3 then none else leafTranslate d₃ 0xfffffffff000 12 va

end OS01.Aarch64
