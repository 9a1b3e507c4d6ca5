import OS01.Memory.PageTable

/-!
# The calls that change page tables

The page effects of `do_munmap` and `do_mprotect` (`memory/vma.c`). What they do to the area list is
in `OS01.Memory.Vma`.

A call runs in a context: the memory, the address space it works on, and the page tables of all
other address spaces, which no call reads. Every `free_4k_page` is recorded together with the page
tables at that moment. Where the source frees a page just before it clears the entry, the entry is
cleared first, so that the record shows the remaining entries.
-/

namespace OS01.Memory

open Lib

/-- An address space: `mm_t` with the tables behind `pgdir`. -/
structure Space where
  mm : Mm
  pt : PageTable

/-- What a call works on. -/
structure Ctx where
  mem : PhysMem
  /-- The address space of the call. -/
  cur : Space
  /-- The page tables of the other address spaces. -/
  rest : List PageTable
  /-- The frames given to `free_4k_page` so far, each with the tables at that moment. -/
  freed : List (Nat × List PageTable)

namespace Ctx

variable (c : Ctx)

/-- All page tables. -/
def live : List PageTable := c.cur.pt :: c.rest

/-- The entry in a slot of the current table. -/
def pte (c : Ctx) (n : Nat) : Pte := c.cur.pt.pte n

/-- Replace the memory. -/
def withMem (m : PhysMem) : Ctx := { c with mem := m }

/-- Replace the current table. -/
def withPt (pt : PageTable) : Ctx := { c with cur := { c.cur with pt } }

/-- Replace the area list and the break. -/
def withMm (mm : Mm) : Ctx := { c with cur := { c.cur with mm } }

/-- Store an entry of the current table. -/
def setPte (c : Ctx) (n : Nat) (e : Pte) : Ctx := c.withPt (c.cur.pt.setPte n e)

/-- `free_4k_page`, recorded. -/
def free (f : Nat) : Ctx :=
  { c with mem := c.mem.free4kPage f, freed := (f, c.live) :: c.freed }

/-! ## Unmapping -/

/-- Give up the page of a slot: a shared page loses a reference, and the last one frees it. -/
def dropEntry (n : Nat) : Ctx :=
  let e := c.pte n
  if e.present then
    let c := c.setPte n Pte.clear
    if e.cow then
      match c.mem.cowPut e.phys with
      | (m, true) => (c.withMem m).free e.phys
      | (m, false) => c.withMem m
    else c.free e.phys
  else c

/-- `x86_vmm_unmap_4k_page_with_free`. -/
def unmapPage (va : Nat) : Ctx :=
  match c.cur.pt.walk va with
  | none => c
  | some n => c.dropEntry n

/-- The pages a loop `for (va = start; va < stop; va += PAGE_4K_SIZE)` passes. -/
def rangePages (r : Nat × Nat) : List Nat :=
  (List.range ((r.2 - r.1 + 4095) / 4096)).map fun i => r.1 + 4096 * i

/-- Unmap the pages of ranges. -/
def unmapRanges (rs : List (Nat × Nat)) : Ctx :=
  (rs.flatMap rangePages).foldl unmapPage c

/-! ## Copy-on-write pages -/

/-- Resolve a copy-on-write entry: with other sharers the page is copied to a new frame, otherwise
it is kept. `mk` builds the new entry from the frame. The result is the frame to free, if this was
its last reference; `none` is lack of memory. -/
def resolveCow (n : Nat) (mk : Nat → Pte) (o : Option Nat) : Option (Ctx × Option Nat) :=
  let old := (c.pte n).phys
  if 1 < c.mem.cowRefs old then
    match c.mem.alloc4kPage o with
    | (_, none) => none
    | (m, some new) =>
      let (m, last) := (m.copyPage old new).cowPut old
      some ((c.withMem m).setPte n (mk new), if last then some old else none)
  else
    some ((c.withMem (c.mem.cowPut old).1).setPte n (mk old), none)

/-! ## Protection -/

/-- The loop body of `do_mprotect`, with the list of frames to free when the loop is done. `protNone`
is the comparison of the full argument with `PROT_NONE`. -/
def protectPage (protNone : Bool) (prot : PageProt) (alloc : Nat → Option Nat)
    (st : Ctx × List Nat) (va : Nat) : Ctx × List Nat :=
  let (c, deferred) := st
  match c.cur.pt.walk va with
  | none => st
  | some n =>
    let e := c.pte n
    if !e.present then st
    else if protNone then (c.setPte n e.stash, deferred)
    else if e.cow then
      match c.resolveCow n (fun f => Pte.ofProt f prot) (alloc va) with
      | none => st
      | some (c', pending) => (c', pending.toList ++ deferred)
    else (c.setPte n (Pte.ofProt e.phys prot), deferred)

/-- `do_mprotect`. -/
def doMprotect (c : Ctx) (addr length prot : Nat) (alloc : Nat → Option Nat) : Ctx × Int :=
  match Memory.doMprotect c.cur.mm addr length prot with
  | (_, none, rc) => (c, rc)
  | (mm, some (pageProt, ranges), rc) =>
    let (c, deferred) := (ranges.flatMap rangePages).foldl
      (protectPage (decide (prot = 0)) pageProt alloc) (c, [])
    ((deferred.foldl free c).withMm mm, rc)

end Ctx

/-! ## Pages given up -/

/-- The entries of the current table after a page is given up. -/
lemma dropEntry_pt (c : Ctx) (n : Nat) : (c.dropEntry n).cur.pt =
      if (c.pte n).present then c.cur.pt.setPte n Pte.clear else c.cur.pt := by
  unfold Ctx.dropEntry
  dsimp only
  split_ifs
  · split <;> rfl
  all_goals rfl

/-- Giving up pages does not touch the areas. -/
lemma dropEntry_mm (c : Ctx) (n : Nat) : (c.dropEntry n).cur.mm = c.cur.mm := by
  unfold Ctx.dropEntry
  dsimp only
  split_ifs
  · split <;> rfl
  all_goals rfl

end OS01.Memory
