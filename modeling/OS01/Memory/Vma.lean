import Mathlib.Algebra.Order.Ring.Nat
import OS01.Abi
import OS01.Lib.Bits
import OS01.Lib.Intervals

/-!
# Virtual memory areas

The area list of an address space and the four calls that edit it: `do_mmap`, `do_munmap`,
`do_mprotect` and `mm_set_brk` (`kernel/memory/vma.c`). Addresses are naturals below `2 ^ 64`, and
every C addition that can wrap is written with `u64`.

Each call is given in two parts. What it does to the area list is here. What it does to pages is
returned as data (the address ranges it unmaps or reprotects, the pages a break change adds or
releases), for the page-table model to carry out; no decision of this module depends on pages except
through the outcome of allocations, which is a parameter.
-/

namespace OS01.Memory

open Lib

/-! ## Constants and arithmetic -/

/-- `PAGE_4K_ALIGN`: round up to a page, with the addition wrapping. -/
def pageAlign (n : Nat) : Nat := u64 (n + 4095) / 4096 * 4096

lemma dvd_pageAlign (n : Nat) : 4096 ∣ pageAlign n := Dvd.intro_left _ rfl

/-- End of the two-megabyte user stack. -/
def STACK_END : Nat := USER_STACK_BASE + 0x200000
/-- `addr_limit` of a user task. -/
def ADDR_LIMIT : Nat := 0x00007FFFFFFFFFFF

/-! ## Areas -/

/-- The `VMA_*` flags that some code reads. -/
structure VmFlags where
  (read write exec shared anon io heap : Bool := false)
deriving DecidableEq, Repr

/-- The values `vm_page_prot` takes. -/
inductive PageProt
  /-- `PAGE_USER`, not present: an area without access. -/
  | none
  /-- `PAGE_USER_PTE_RO`. -/
  | ro
  /-- `PAGE_USER_PTE`. -/
  | rw
deriving DecidableEq, Repr

/-- An area (`vma_t`). -/
structure Vma where
  vmStart : Nat
  vmEnd : Nat
  vmFlags : VmFlags
  vmPageProt : PageProt
  /-- File offset in pages. -/
  vmPgoff : Nat
  /-- Backing file, by its node. -/
  vmFile : Option Nat
deriving DecidableEq, Repr

/-- The fields of `mm_t` that the area code uses. -/
structure Mm where
  vmaList : List Vma
  startBrk : Nat
  endBrk : Nat
  mmapBase : Nat
deriving DecidableEq, Repr

/-- `vma_find`: the scan stops at the first area that begins above the address. -/
def vmaFind (addr : Nat) : List Vma → Option Vma
  | [] => none
  | v :: vs =>
    if v.vmStart ≤ addr ∧ addr < v.vmEnd then some v
    else if addr < v.vmStart then none
    else vmaFind addr vs

/-- `vma_insert`: before the first area that begins after the new one. -/
def vmaInsert (l : List Vma) (v : Vma) : List Vma := insertByLo Vma.vmStart v l

/-- `mm_alloc`. -/
def mmAlloc : Mm := ⟨[], 0, 0, 0x40000000⟩

variable (mm : Mm)

/-- `mm_init_user_heap`; `kmalloc` is the outcome of its allocation. -/
def mmInitUserHeap (elfEnd : Nat) (kmalloc : Bool) : Mm × Int :=
  if !kmalloc then (mm, -ENOMEM)
  else
    let heapBase := pageAlign elfEnd
    let hv : Vma := ⟨heapBase, heapBase,
      { read := true, write := true, anon := true, heap := true }, .rw, 0, none⟩
    ({ mm with
        startBrk := heapBase, endBrk := heapBase, vmaList := vmaInsert mm.vmaList hv }, 0)

/-- `mm_user_range_protected`. -/
def mmUserRangeProtected (start stop : Nat) : Bool :=
  if mm.startBrk = 0 then false
  else if stop ≤ start then false
  else
    (decide (start < mm.startBrk) && decide (USER_CODE_ADDR < stop)) ||
    (decide (start < HEAP_LIMIT) && decide (mm.startBrk < stop)) ||
    (decide (start < USER_STACK_BASE) && decide (HEAP_LIMIT < stop)) ||
    (decide (start < STACK_END) && decide (USER_STACK_BASE < stop))

/-- `prot_to_page_flags((int)prot)`: `none` is `-EINVAL`. -/
def protToPageFlags (prot : Nat) : Option (PageProt × VmFlags) :=
  let p := prot % 2 ^ 32
  if 8 ≤ p then none
  else if p.testBit 1 && !p.testBit 0 then none
  else
    match p.testBit 0 || p.testBit 2, p.testBit 1, p.testBit 2 with
    | false, false, false => some (.none, {})
    | true, false, false => some (.ro, { read := true })
    | true, true, false => some (.rw, { read := true, write := true })
    | true, w, true => some (.rw, { read := true, write := w, exec := true })
    | _, _, _ => none

/-! ## Unmapping -/

/-- Insert the right half of a split area while the loop stands between `done` and `todo`. The scan
of `vma_insert` starts at the head of the list; an area put just before the loop's next node is not
visited. -/
def insertZip (done todo : List Vma) (right : Vma) : List Vma × List Vma :=
  if done.any fun v => right.vmStart < v.vmStart then (vmaInsert done right, todo)
  else
    match todo with
    | [] => (done ++ [right], [])
    | v :: vs =>
      if right.vmStart < v.vmStart then (done ++ [right], v :: vs)
      else (done, v :: vmaInsert vs right)

/-- The part of an area that `[addr, stop)` unmaps: `u_start` and `u_end`. -/
def unmapRange (addr stop : Nat) (v : Vma) : Nat × Nat :=
  (if v.vmStart < addr then addr else v.vmStart, if stop < v.vmEnd then stop else v.vmEnd)

/-- What becomes of an area that loses a part. -/
inductive Cut
  /-- It is removed. -/
  | whole
  /-- It falls in two. -/
  | split (left right : Vma)
  /-- One end moves. -/
  | keep (v : Vma)

/-- The case distinction of `do_munmap_locked` on an area that loses `[u_start, u_end)`. -/
def cutVma (v : Vma) (u : Nat × Nat) : Cut :=
  if u.1 ≤ v.vmStart ∧ v.vmEnd ≤ u.2 then .whole
  else if v.vmStart < u.1 ∧ u.2 < v.vmEnd then
    .split { v with vmEnd := u.1 } { v with vmStart := u.2 }
  else if v.vmStart < u.1 then .keep { v with vmEnd := u.1 }
  else .keep { v with vmStart := u.2 }

/-- The case distinction of the loop, by the two ends of the area. -/
lemma cutVma_eq {addr stop : Nat} {v : Vma} : cutVma v (unmapRange addr stop v) = if v.vmStart < addr then
      if stop < v.vmEnd then .split { v with vmEnd := addr } { v with vmStart := stop }
      else .keep { v with vmEnd := addr }
    else if stop < v.vmEnd then .keep { v with vmStart := stop } else .whole := by
  unfold cutVma unmapRange
  split_ifs <;> first | rfl | omega

/-- The loop of `do_munmap_locked` over `[addr, stop)`: the list afterwards and the ranges whose
pages are unmapped. The areas already passed are in `done`. Every round consumes a node of the list
on entry, or a split-off half at which it stops, so the number of nodes and one more rounds are
enough. -/
def munmapLoop (kmalloc : Nat → Bool) (addr stop : Nat) :
    Nat → List Vma → List Vma → List Vma × List (Nat × Nat)
  | 0, done, todo => (done ++ todo, [])
  | _ + 1, done, [] => (done, [])
  | fuel + 1, done, v :: todo =>
    if v.vmEnd ≤ addr then munmapLoop kmalloc addr stop fuel (done ++ [v]) todo
    else if stop ≤ v.vmStart then (done ++ v :: todo, [])
    else
      let (l, ranges) :=
        match cutVma v (unmapRange addr stop v) with
        | .whole => munmapLoop kmalloc addr stop fuel done todo
        | .split left right =>
          -- without memory for the right half it is lost
          if kmalloc fuel then
            let (done', todo') := insertZip (done ++ [left]) todo right
            munmapLoop kmalloc addr stop fuel done' todo'
          else munmapLoop kmalloc addr stop fuel (done ++ [left]) todo
        | .keep w => munmapLoop kmalloc addr stop fuel (done ++ [w]) todo
      (l, unmapRange addr stop v :: ranges)

/-- `do_munmap_locked`: the address space afterwards, the unmapped ranges and the result. -/
def doMunmapLocked (addr length : Nat) (kmalloc : Nat → Bool) :
    Mm × List (Nat × Nat) × Int :=
  let addr := pageAlign addr
  let length := pageAlign length
  if length = 0 then (mm, [], -EINVAL)
  else
    let stop := u64 (addr + length)
    if mmUserRangeProtected mm addr stop then (mm, [], -EINVAL)
    else
      let (l, ranges) := munmapLoop kmalloc addr stop (mm.vmaList.length + 1) [] mm.vmaList
      ({ mm with vmaList := l }, ranges, 0)

/-- `do_munmap`. -/
def doMunmap (addr length : Nat) (kmalloc : Nat → Bool) :
    Mm × List (Nat × Nat) × Int :=
  doMunmapLocked mm addr length kmalloc

/-! ## Mapping -/

/-- What a file descriptor refers to. -/
inductive MmapFile
  /-- A file without an `mmap` handler. -/
  | regular (node : Nat)
  /-- A device whose handler returns `rc`; a handler that succeeds clears `vm_file`. -/
  | device (rc : Int)
deriving DecidableEq, Repr

/-- What the rest of the kernel answers during one `do_mmap`. -/
structure MmapEnv where
  /-- The open file behind the descriptor. -/
  file : Option MmapFile
  /-- The allocation of the area. -/
  kmalloc : Bool
  /-- The allocations of the unmapping of a fixed range. -/
  unmapKmalloc : Nat → Bool

/-- `MAP_SHARED`. -/
def mapShared (flags : Nat) : Bool := flags.testBit 0
/-- `MAP_FIXED`. -/
def mapFixed (flags : Nat) : Bool := flags.testBit 4
/-- `MAP_ANONYMOUS`. -/
def mapAnonymous (flags : Nat) : Bool := flags.testBit 5

/-- A sequence of checks, each returning its error: the first one that applies. -/
def firstError : List (Bool × Int) → Option Int
  | [] => none
  | (bad, err) :: rest => if bad then some err else firstError rest

/-- The argument checks of `do_mmap`, up to the rounding of the length: the error, if any. -/
def mmapCheck (addr length flags fd offset : Nat) (env : MmapEnv) : Option Int :=
  let stop := pageAlign (u64 (addr + length))
  firstError
    [(decide (length = 0), -EINVAL),
     (decide (addr ≠ 0 ∧ addr < USER_MIN_ADDR), -EINVAL),
     (decide (stop < addr), -EINVAL),
     (decide (offset % 4096 ≠ 0), -EINVAL),
     (mapAnonymous flags && decide (fd ≠ 2 ^ 64 - 1), -EINVAL),
     (!mapAnonymous flags && env.file.isNone, -EBADF),
     (mapFixed flags && decide (addr % 4096 ≠ 0), -EINVAL),
     (mapFixed flags && decide (ADDR_LIMIT ≤ addr), -ENOMEM),
     (mapFixed flags && mmUserRangeProtected mm addr stop, -EINVAL),
     (decide (pageAlign length = 0), -EINVAL)]

/-- The gap search of `do_mmap`. `prevEnd` is the end of the area before, if there is one; the
result is the first gap, or the end of the last area. -/
def gapSearch (search length : Nat) : Option Nat → List Vma → Nat
  | prevEnd, [] => prevEnd.getD search
  | prevEnd, v :: vs =>
    let gapStart := max (prevEnd.getD search) search
    if u64 (gapStart + length) ≤ v.vmStart then gapStart
    else gapSearch search length (some v.vmEnd) vs

/-- The address `do_mmap` takes without `MAP_FIXED`. -/
def autoAddr (length : Nat) : Nat :=
  let addr := max (gapSearch mm.mmapBase length none mm.vmaList) mm.mmapBase
  if mmUserRangeProtected mm addr (u64 (addr + length)) then STACK_END else addr

/-- The address part of `do_mmap`: a fixed range is unmapped first, whatever that call returns. -/
def mmapPlace (addr length : Nat) (fixed : Bool) (env : MmapEnv) :
    Mm × List (Nat × Nat) × Nat :=
  if fixed then
    let (mm', ranges, _) := doMunmapLocked mm addr length env.unmapKmalloc
    (mm', ranges, addr)
  else (mm, [], autoAddr mm length)

/-- The area `do_mmap` builds over `[addr, addr + length)`, or its error. -/
def mmapArea (addr length prot flags offset : Nat) (env : MmapEnv) : Except Int Vma :=
  if ADDR_LIMIT < u64 (addr + length) then .error (-ENOMEM)
  else if ADDR_LIMIT ≤ addr then .error (-ENOMEM)
  else
    match protToPageFlags prot with
    | none => .error (-EINVAL)
    | some (pageProt, base) =>
      let vmFlags := { base with shared := mapShared flags, anon := mapAnonymous flags }
      let area (f : VmFlags) (file : Option Nat) : Vma :=
        ⟨addr, u64 (addr + length), f, pageProt, offset / 4096, file⟩
      if mapAnonymous flags then
        if env.kmalloc then .ok (area vmFlags none) else .error (-ENOMEM)
      else
        match env.file with
        | none => .error (-EBADF)
        | some (.regular node) =>
          if env.kmalloc then .ok (area vmFlags (some node)) else .error (-ENOMEM)
        | some (.device rc) =>
          if !mapShared flags then .error (-EINVAL)
          else if mmUserRangeProtected mm addr (u64 (addr + length)) then .error (-EINVAL)
          else if !env.kmalloc then .error (-ENOMEM)
          else if rc < 0 then .error rc
          else .ok (area { vmFlags with io := true } none)

/-- The rest of `do_mmap`: the area is inserted. -/
def mmapFinish (addr length prot flags offset : Nat) (env : MmapEnv) : Mm × Int :=
  match mmapArea mm addr length prot flags offset env with
  | .error err => (mm, err)
  | .ok v => ({ mm with vmaList := vmaInsert mm.vmaList v }, (addr : Int))

/-- `do_mmap`: the address space afterwards, the ranges unmapped on the way and the result. -/
def doMmap (addr length prot flags fd offset : Nat) (env : MmapEnv) :
    Mm × List (Nat × Nat) × Int :=
  match mmapCheck mm addr length flags fd offset env with
  | some err => (mm, [], err)
  | none =>
    let length := pageAlign length
    let (mm', ranges, addr) := mmapPlace mm addr length (mapFixed flags) env
    let (mm'', result) := mmapFinish mm' addr length prot flags offset env
    (mm'', ranges, result)

/-! ## Protection -/

/-- The pre-scan of `do_mprotect`: the error, if the range has a hole or a device area. -/
def mprotectScan (stop : Nat) : Nat → List Vma → Option Int
  | scan, [] => if scan < stop then some (-ENOMEM) else none
  | scan, v :: vs =>
    if v.vmEnd ≤ scan then mprotectScan stop scan vs
    else if stop ≤ v.vmStart then if scan < stop then some (-ENOMEM) else none
    else if scan < v.vmStart then some (-ENOMEM)
    else if v.vmFlags.io then some (-EPERM)
    else if stop ≤ v.vmEnd then none
    else mprotectScan stop v.vmEnd vs

/-- An area with new access flags and page protection. -/
def Vma.reprotect (v : Vma) (pageProt : PageProt) (flags : VmFlags) : Vma :=
  { v with
    vmFlags := { v.vmFlags with read := flags.read, write := flags.write, exec := flags.exec }
    vmPageProt := pageProt }

/-- The update loop of `do_mprotect`: the list afterwards, the ranges whose entries change, and the
address the loop has reached. The whole area gets the new flags even where the range covers only a
part of it. -/
def mprotectLoop (stop : Nat) (pageProt : PageProt) (flags : VmFlags) :
    Nat → List Vma → List Vma × List (Nat × Nat) × Nat
  | addr, [] => ([], [], addr)
  | addr, v :: vs =>
    if v.vmEnd ≤ addr then
      let (l, rs, reached) := mprotectLoop stop pageProt flags addr vs
      (v :: l, rs, reached)
    else if stop ≤ v.vmStart then (v :: vs, [], addr)
    else
      let range := (max addr v.vmStart, min stop v.vmEnd)
      if stop ≤ v.vmEnd then (v.reprotect pageProt flags :: vs, [range], v.vmEnd)
      else
        let (l, rs, reached) := mprotectLoop stop pageProt flags v.vmEnd vs
        (v.reprotect pageProt flags :: l, range :: rs, reached)

/-- `do_mprotect`: the address space afterwards, the ranges whose entries change with their new
protection, and the result. -/
def doMprotect (addr length prot : Nat) :
    Mm × Option (PageProt × List (Nat × Nat)) × Int :=
  let addr := pageAlign addr
  let length := pageAlign length
  if length = 0 then (mm, none, -EINVAL)
  else if u64 (addr + length) < addr then (mm, none, -EINVAL)
  else
    let stop := u64 (addr + length)
    if mmUserRangeProtected mm addr stop then (mm, none, -EINVAL)
    else
      match protToPageFlags prot with
      | none => (mm, none, -EINVAL)
      | some (pageProt, flags) =>
        match mprotectScan stop addr mm.vmaList with
        | some err => (mm, none, err)
        | none =>
          let (l, ranges, reached) := mprotectLoop stop pageProt flags addr mm.vmaList
          ({ mm with vmaList := l }, some (pageProt, ranges),
            if reached < stop then -ENOMEM else 0)

/-! ## The program break -/

/-- What `mm_set_brk` has to do to pages. -/
inductive BrkPlan
  /-- Nothing: the call returns `rc`. -/
  | reply (rc : Int)
  /-- Nothing: the new break lies in a page that is already there. -/
  | commit
  /-- Map fresh pages in `[from, to)`. -/
  | grow (prot : PageProt) (start stop : Nat)
  /-- Clear the tail of the page below `start` and unmap `[start, stop)`. -/
  | shrink (prot : PageProt) (start stop : Nat)
deriving DecidableEq, Repr

/-- Whether an area is the one `mm_set_brk` moves. -/
def isHeap (v : Vma) : Bool := v.vmFlags.heap && decide (v.vmStart = mm.startBrk)

/-- The decisions of `mm_set_brk`. -/
def brkPlan (requested : Nat) : BrkPlan :=
  if requested = 0 then .reply 0
  else if mm.startBrk = 0 then .reply (-ENOMEM)
  else if requested < mm.startBrk then .reply (-EINVAL)
  else if HEAP_LIMIT < requested then .reply (-ENOMEM)
  else if requested = mm.endBrk then .reply 0
  else
    match mm.vmaList.find? (isHeap mm) with
    | none => .reply (-ENOMEM)
    | some hv =>
      if mm.endBrk < requested then
        let alignedOld := pageAlign mm.endBrk
        let alignedNew := min (pageAlign requested) HEAP_LIMIT
        if alignedNew ≤ alignedOld then .commit
        else .grow hv.vmPageProt alignedOld alignedNew
      else .shrink hv.vmPageProt (pageAlign requested) (pageAlign mm.endBrk)

/-- Move the end of the heap area: the first area that `isHeap` accepts. -/
def setHeapEnd (mm : Mm) (requested : Nat) : List Vma → List Vma
  | [] => []
  | v :: vs =>
    if isHeap mm v then { v with vmEnd := requested } :: vs
    else v :: setHeapEnd mm requested vs

/-- The commit of `mm_set_brk`. -/
def commitBrk (requested : Nat) : Mm :=
  { mm with endBrk := requested, vmaList := setHeapEnd mm requested mm.vmaList }

/-- `mm_set_brk`, where `ok` says whether the allocations the plan needs succeed. -/
def mmSetBrk (requested : Nat) (ok : Bool) : Mm × Int :=
  match brkPlan mm requested with
  | .reply rc => (mm, rc)
  | .commit => (commitBrk mm requested, 0)
  | .grow _ _ _ | .shrink _ _ _ => if ok then (commitBrk mm requested, 0) else (mm, -ENOMEM)

end OS01.Memory
