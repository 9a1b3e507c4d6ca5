import OS01.Memory.PageOps
import OS01.Memory.VmaList

/-!
# `mmap` with its pages, and what a failed call leaves

`do_mmap` (`memory/vma.c`) with the page effects that `OS01.Memory.Vma` leaves out: the unmapping of a fixed range, and
the handler of a device, which fills the page table itself. The only handler is the one of the framebuffer
(`fb_mmap` in `driver/fb.c`, through `devfs_mmap`); it takes its pages back when one of them cannot be mapped.

A call that fails should leave the area list and the entries of the page table as they were. A fixed range is unmapped
before the address limit, the protection, the device and the allocation of the area are checked, so a call that fails
there has already lost what was mapped. `mmap_atomic_iff` says which failing calls leave everything in place.
-/

namespace OS01.Memory

open List Function Lib Pte

/-- The entry of a page of device memory, uncached and written through. -/
def Pte.device (frame : Nat) (writable : Bool) : Pte :=
  { phys := frame, valid := true, user := true, write := writable, other := 0x18 }

namespace Ctx

/-! ## Device handlers -/

/-- What the framebuffer and the allocators answer to `fb_mmap`. -/
structure FbMmapEnv where
  /-- The result of `fb_snapshot_read`. -/
  snapshot : Int
  mappedSize : Nat
  /-- `fb_is_raw_writable_allowed`. -/
  rawWritable : Bool
  /-- `fb_has_owner_or_fallback`. -/
  hasOwner : Bool
  /-- The first frame of the framebuffer. -/
  frame : Nat
  /-- The tables for a page. -/
  tables : Nat → Fin 3 → Option Nat

/-- The checks of `fb_mmap`: the error, if any. -/
def fbMmapCheck (v : Vma) (env : FbMmapEnv) : Option Int :=
  firstError
    [(decide (env.snapshot < 0), env.snapshot),
     (!v.vmFlags.shared, -EINVAL),
     (decide (env.mappedSize = 0 ∨ env.mappedSize < u64 (v.vmEnd + 2 ^ 64 - v.vmStart)), -EINVAL),
     (v.vmFlags.write && !env.rawWritable, -EPERM),
     (v.vmFlags.write && env.hasOwner, -EBUSY)]

/-- The loop of `fb_mmap` that fills the entries: the pages installed so far, and whether all went well. -/
def installPages (v : Vma) (env : FbMmapEnv) : Ctx → List Nat → List Nat → Ctx × List Nat × Bool
  | c, installed, [] => (c, installed, true)
  | c, installed, va :: vas =>
    let e := device (env.frame + (va - v.vmStart) / 4096) v.vmFlags.write
    match PageTable.map4kPage c.mem c.cur.pt va e (env.tables va) with
    | (m, pt, true) => installPages v env ((c.withMem m).withPt pt) (installed ++ [va]) vas
    | (m, pt, false) => ((c.withMem m).withPt pt, installed, false)

variable (c : Ctx)

/-- `fb_mmap`. -/
def fbMmap (v : Vma) (env : FbMmapEnv) : Ctx × Int :=
  match fbMmapCheck v env with
  | some err => (c, err)
  | none =>
    match installPages v env c [] (rangePages (v.vmStart, v.vmEnd)) with
    | (c', _, true) => (c', 0)
    | (c', installed, false) => (installed.foldl unmapPage c', -ENOMEM)

/-- A node of the device file system. -/
inductive DevNode
  /-- The device is gone. -/
  | gone
  /-- A device without an `mmap` handler. -/
  | plain
  /-- The framebuffer. -/
  | fb (env : FbMmapEnv)

/-- `devfs_mmap`. -/
def devfsMmap (v : Vma) : DevNode → Ctx × Int
  | .gone => (c, -EINVAL)
  | .plain => (c, -ENODEV)
  | .fb env => c.fbMmap v env

/-- The pages that a handler fills in before it fails or returns. -/
def devInstalled (v : Vma) : DevNode → List Nat
  | .fb env =>
    match fbMmapCheck v env with
    | some _ => []
    | none => (installPages v env c [] (rangePages (v.vmStart, v.vmEnd))).2.1
  | _ => []

/-! ## The call -/

/-- The node behind a descriptor. -/
inductive OpenNode
  | regular (node : Nat)
  | device (dev : DevNode)

/-- What the rest of the kernel answers during one `do_mmap`. -/
structure MmapCallEnv where
  file : Option OpenNode
  kmalloc : Bool
  unmapKmalloc : Nat → Bool

/-- The same for the area list, where a handler is only its result. -/
def MmapCallEnv.answers (env : MmapCallEnv) (rc : Int) : MmapEnv where
  file := env.file.map fun
    | .regular node => .regular node
    | .device _ => .device rc
  kmalloc := env.kmalloc
  unmapKmalloc := env.unmapKmalloc

/-- The device whose handler the call asks, if it gets that far. -/
def MmapCallEnv.handler (env : MmapCallEnv) (flags : Nat) : Option DevNode :=
  if mapAnonymous flags then none
  else
    match env.file with
    | some (.device dev) => some dev
    | _ => none

/-- An area is put into the list. -/
def insertArea (v : Vma) : Ctx :=
  c.withMm { c.cur.mm with vmaList := vmaInsert c.cur.mm.vmaList v }

/-- `do_mmap` from the checks of the address limit on. -/
def mmapFinish (addr length prot flags offset : Nat) (env : MmapCallEnv) : Ctx × Int :=
  match mmapArea c.cur.mm addr length prot flags offset (env.answers 0) with
  | .error err => (c, err)
  | .ok v =>
    match env.handler flags with
    | none => (c.insertArea v, (addr : Int))
    | some dev =>
      match c.devfsMmap v dev with
      | (c', rc) => if rc < 0 then (c', rc) else (c'.insertArea v, (addr : Int))

/-- `do_mmap`. -/
def doMmap (addr length prot flags fd offset : Nat) (env : MmapCallEnv) : Ctx × Int :=
  match mmapCheck c.cur.mm addr length flags fd offset (env.answers 0) with
  | some err => (c, err)
  | none =>
    let length := pageAlign length
    let (mm, ranges, addr) := mmapPlace c.cur.mm addr length (mapFixed flags) (env.answers 0)
    ((c.unmapRanges ranges).withMm mm).mmapFinish addr length prot flags offset env

/-! ## The specification -/

/-- The area list and the entries of the page table are the same. -/
structure Unchanged (c c' : Ctx) : Prop where
  list : c'.cur.mm.vmaList = c.cur.mm.vmaList
  pte : ∀ n, c'.pte n = c.pte n
  huge : ∀ k e, c'.cur.pt.pmd k = .huge e ↔ c.cur.pt.pmd k = .huge e

end Ctx

/-- Unmapping `[addr, addr + length)` meets no area: it is refused, or the first area that ends above its start begins
at or above its end. -/
def UnmapsNothing (mm : Mm) (addr length : Nat) : Prop :=
  let start := pageAlign addr
  let stop := u64 (start + pageAlign length)
  pageAlign length = 0 ∨ mmUserRangeProtected mm start stop = true ∨
    ∀ v, (mm.vmaList.find? fun v => start < v.vmEnd) = some v → stop ≤ v.vmStart

namespace Ctx

/-- When a call that fails leaves everything in place: its arguments are refused, or there is nothing in a fixed range
to unmap, and no entry that a handler fills in and takes back was in use. -/
def MmapAtomic (c : Ctx) (addr length prot flags fd offset : Nat) (env : MmapCallEnv) : Prop :=
  (mmapCheck c.cur.mm addr length flags fd offset (env.answers 0)).isSome = true ∨
    (mapFixed flags = true → UnmapsNothing c.cur.mm addr (pageAlign length)) ∧
      ∀ dev v, env.handler flags = some dev →
        mmapArea c.cur.mm (if mapFixed flags then addr else autoAddr c.cur.mm (pageAlign length)) (pageAlign length) prot
          flags offset (env.answers 0) = .ok v →
        ∀ va ∈ c.devInstalled v dev, c.pte (PageTable.pageOf va) = clear

end Ctx

/-! ## The unmapping loop -/

variable {addr stop fuel : Nat} {kmalloc : Nat → Bool} {done todo : List Vma}

/-- An area that the loop cuts. -/
def meets (addr stop : Nat) (v : Vma) : Bool := decide (addr < v.vmEnd) && decide (v.vmStart < stop)

lemma insertZip_perm (done todo : List Vma) (right : Vma) :
    ((insertZip done todo right).1 ++ (insertZip done todo right).2).Perm (right :: (done ++ todo)) := by
  unfold insertZip
  split_ifs with hany
  · exact (insertByLo_perm right done).append_right todo
  cases todo with
  | nil => simp
  | cons v vs =>
    dsimp only
    split_ifs with hlt
    · simp
    have hvs : (done ++ v :: vmaInsert vs right).Perm (done ++ v :: right :: vs) :=
      ((insertByLo_perm right vs).cons v).append_left done
    refine hvs.trans ?_
    rw [show done ++ v :: right :: vs = (done ++ [v]) ++ right :: vs by simp]
    refine perm_middle.trans ?_
    simp

/-- Every range that the loop unmaps is one area less that meets the range of the call. -/
lemma munmapLoop_meets : (munmapLoop kmalloc addr stop fuel done todo).1.countP (meets addr stop) +
      (munmapLoop kmalloc addr stop fuel done todo).2.length ≤ (done ++ todo).countP (meets addr stop) := by
  induction fuel generalizing done todo with
  | zero => simp [munmapLoop]
  | succ fuel ih =>
    cases todo with
    | nil => simp [munmapLoop]
    | cons v todo =>
      by_cases hs : v.vmEnd ≤ addr
      · rw [munmapLoop, if_pos hs]
        simpa using @ih (done ++ [v]) todo
      by_cases hbrk : stop ≤ v.vmStart
      · rw [munmapLoop, if_neg hs, if_pos hbrk]
        simp
      have hv : meets addr stop v = true := by
        simp [meets]
        omega
      have hl : meets addr stop { v with vmEnd := addr } = false := by simp [meets]
      have hrt : meets addr stop { v with vmStart := stop } = false := by simp [meets]
      have hcnt : (done ++ v :: todo).countP (meets addr stop) = (done ++ todo).countP (meets addr stop) + 1 := by
        simp only [countP_append, countP_cons_of_pos hv]
        omega
      have hcut := @ih (done ++ [{ v with vmEnd := addr }]) todo
      rw [munmapLoop, if_neg hs, if_neg hbrk, cutVma_eq, hcnt]
      by_cases hlo : v.vmStart < addr <;> by_cases hhi : stop < v.vmEnd
      · simp only [if_pos hlo, if_pos hhi]
        split_ifs
        · have hzip := insertZip_perm (done ++ [{ v with vmEnd := addr }]) todo { v with vmStart := stop }
          have hgo := @ih (insertZip (done ++ [{ v with vmEnd := addr }]) todo { v with vmStart := stop }).1
            (insertZip (done ++ [{ v with vmEnd := addr }]) todo { v with vmStart := stop }).2
          rw [hzip.countP_eq, countP_cons_of_neg (by simp [hrt])] at hgo
          simp [hl] at hgo ⊢
          omega
        · simp [hl] at hcut ⊢
          omega
      · simp only [if_pos hlo, if_neg hhi]
        simp [hl] at hcut ⊢
        omega
      · simp only [if_neg hlo, if_pos hhi]
        have hgo := @ih (done ++ [{ v with vmStart := stop }]) todo
        simp [hrt] at hgo ⊢
        omega
      · simp only [if_neg hlo, if_neg hhi]
        have hgo := @ih done todo
        simp at hgo ⊢
        omega

/-- A loop that unmaps nothing leaves the list as it is. -/
lemma munmapLoop_of_nil (h : (munmapLoop kmalloc addr stop fuel done todo).2 = []) :
    (munmapLoop kmalloc addr stop fuel done todo).1 = done ++ todo := by
  fun_induction munmapLoop kmalloc addr stop fuel done todo with
  | case3 fuel done v todo hs ih => simpa using ih h
  | case5 => cases h
  | _ => simp

/-- The loop unmaps something if the first area that ends above its start begins below its end. -/
lemma munmapLoop_nil_iff (hfl : todo.length < fuel) : (munmapLoop kmalloc addr stop fuel done todo).2 = [] ↔
      ∀ v, (todo.find? fun v => addr < v.vmEnd) = some v → stop ≤ v.vmStart := by
  fun_induction munmapLoop kmalloc addr stop fuel done todo with
  | case1 => omega
  | case2 => simp
  | case3 fuel done v todo hs ih =>
    rw [ih (by simpa using hfl), find?_cons_of_neg (by simpa using hs)]
  | case4 fuel done v todo hs hbrk | case5 fuel done v todo hs hbrk =>
    rw [find?_cons_of_pos (by simpa using hs)]
    simpa using hbrk

/-- The unmapping of a fixed range: nothing at all, or the list is another one. -/
lemma doMunmapLocked_cases (mm : Mm) (addr length : Nat) (kmalloc : Nat → Bool) :
    UnmapsNothing mm addr length ∧ (doMunmapLocked mm addr length kmalloc).1 = mm ∧
        (doMunmapLocked mm addr length kmalloc).2.1 = [] ∨
      ¬ UnmapsNothing mm addr length ∧ (doMunmapLocked mm addr length kmalloc).1.vmaList ≠ mm.vmaList := by
  unfold UnmapsNothing doMunmapLocked
  dsimp only
  split_ifs with hz hp
  · exact .inl ⟨.inl hz, rfl, rfl⟩
  · exact .inl ⟨.inr (.inl hp), rfl, rfl⟩
  have hiff := @munmapLoop_nil_iff (pageAlign addr) (u64 (pageAlign addr + pageAlign length)) _ kmalloc []
    mm.vmaList (Nat.lt_succ_self _)
  by_cases hnil : (munmapLoop kmalloc (pageAlign addr) (u64 (pageAlign addr + pageAlign length))
      (mm.vmaList.length + 1) [] mm.vmaList).2 = []
  · exact .inl ⟨.inr (.inr (hiff.1 hnil)), by rw [munmapLoop_of_nil hnil]; rfl, hnil⟩
  refine .inr ⟨?_, fun heq => ?_⟩
  · rintro (h | h | h)
    · exact hz h
    · exact hp h
    · exact hnil (hiff.2 h)
  have hmts := @munmapLoop_meets (pageAlign addr) (u64 (pageAlign addr + pageAlign length))
    (mm.vmaList.length + 1) kmalloc [] mm.vmaList
  dsimp only at heq
  rw [heq] at hmts
  have hlen := length_pos_of_ne_nil hnil
  rw [nil_append] at hmts
  omega

/-! ## Pages that a handler fills in and takes back -/

namespace PageTable

/-- Tables may have been added. -/
structure Extends (pt pt' : PageTable) : Prop where
  huge : ∀ k e, pt'.pmd k = .huge e ↔ pt.pmd k = .huge e
  table : ∀ k, (pt.pmd k).isTable = true → (pt'.pmd k).isTable = true

variable {pt pt' pt'' : PageTable}

lemma Extends.of_eq (h : pt'.pmd = pt.pmd) : Extends pt pt' := by
  constructor
  · intro k e
    rw [h]
  · intro k hk
    rwa [h]

lemma Extends.trans (h : Extends pt pt') (h' : Extends pt' pt'') : Extends pt pt'' :=
  ⟨fun k e => (h'.huge k e).trans (h.huge k e), fun k hk => h'.table k (h.table k hk)⟩

lemma addPud_pmd {i t : Nat} : (pt.addPud i t).pmd = pt.pmd := by
  unfold addPud
  split <;> rfl

lemma addPmd_pmd {k t : Nat} : (pt.addPmd k t).pmd = pt.pmd := by
  unfold addPmd
  split <;> rfl

lemma addPmde_extends {k t : Nat} : Extends pt (pt.addPmde k (.table t)) := by
  unfold addPmde
  split
  · next h =>
      constructor
      · intro j e
        by_cases hj : j = k
        · subst hj
          simp [h.2]
        · simp [update_of_ne hj]
      · intro j hj
        by_cases hjk : j = k
        · subst hjk
          simp [Pmde.isTable]
        · simpa [update_of_ne hjk] using hj
  · exact .of_eq rfl

variable (m : PhysMem)

lemma ensurePud_extends (pt : PageTable) (i : Nat) (o : Option Nat) : Extends pt (ensurePud m pt i o).2.1 := by
  unfold ensurePud
  split_ifs
  · exact .of_eq rfl
  · split
    · exact .of_eq rfl
    · exact .of_eq addPud_pmd

lemma ensurePmd_extends (pt : PageTable) (k : Nat) (o : Option Nat) : Extends pt (ensurePmd m pt k o).2.1 := by
  unfold ensurePmd
  split_ifs
  · exact .of_eq rfl
  · split
    · exact .of_eq rfl
    · exact .of_eq addPmd_pmd

lemma ensurePt_extends (pt : PageTable) (k : Nat) (o : Option Nat) : Extends pt (ensurePt m pt k o).2.1 := by
  unfold ensurePt
  split
  · exact .of_eq rfl
  · exact .of_eq rfl
  · split
    · exact .of_eq rfl
    · exact addPmde_extends

lemma walkAlloc_extends (pt : PageTable) (va : Nat) (o : Fin 3 → Option Nat) :
    Extends pt (walkAlloc m pt va o).2.1 := by
  have hpud := ensurePud_extends m pt (pageOf va / 2 ^ 27) (o 0)
  unfold walkAlloc
  dsimp only
  split_ifs
  · exact .of_eq rfl
  split
  · next heq => rwa [heq] at hpud
  next m1 pt1 heq =>
    rw [heq] at hpud
    have hpmd := hpud.trans (ensurePmd_extends m1 pt1 (pageOf va / 2 ^ 18) (o 1))
    split
    · next heq1 => rwa [heq1] at hpmd
    next m2 pt2 heq1 =>
      rw [heq1] at hpmd
      have hpt := hpmd.trans (ensurePt_extends m2 pt2 (pageOf va / 512) (o 2))
      split
      all_goals next heq2 => rwa [heq2] at hpt

/-- **Mapping a page** overwrites its entry, or changes none. -/
lemma map4kPage_spec (pt : PageTable) (va : Nat) (e : Pte) (o : Fin 3 → Option Nat) :
    Extends pt (map4kPage m pt va e o).2.1 ∧ ((map4kPage m pt va e o).2.2 = true →
        ((map4kPage m pt va e o).2.1.pmd (pageOf va / 512)).isTable = true ∧
          (map4kPage m pt va e o).2.1.pte = update pt.pte (pageOf va) e) ∧
      ((map4kPage m pt va e o).2.2 = false → (map4kPage m pt va e o).2.1.pte = pt.pte) := by
  have hext := walkAlloc_extends m pt va o
  obtain ⟨hgr, hend⟩ := walkAlloc_spec m pt va o
  unfold map4kPage
  split
  · next heq =>
      rw [heq] at hext hgr
      exact ⟨hext, by simp, fun _ => hgr.pte⟩
  next heq =>
    rw [heq] at hext hgr hend
    obtain ⟨rfl, htab⟩ := hend _ rfl
    refine ⟨hext.trans (.of_eq setPte_pmd), fun _ => ⟨?_, ?_⟩, by simp⟩
    · rw [setPte_pmd]
      exact htab
    · rw [setPte_pte htab]
      exact congrArg (update · (pageOf va) e) hgr.pte

end PageTable

namespace Ctx

open PageTable

/-- A page that has a table and an entry in use, or none, has a clear entry after it is unmapped. -/
lemma unmapPage_spec {c : Ctx} {va : Nat} (htab : (c.cur.pt.pmd (pageOf va / 512)).isTable = true)
    (hin : (c.pte (pageOf va)).present = true ∨ c.pte (pageOf va) = clear) :
    (c.unmapPage va).cur.mm = c.cur.mm ∧ (c.unmapPage va).cur.pt.pmd = c.cur.pt.pmd ∧
      (c.unmapPage va).pte = update c.pte (pageOf va) clear := by
  unfold unmapPage
  rw [walk_of_isTable htab]
  refine ⟨dropEntry_mm c _, ?_, ?_⟩
  · rw [dropEntry_pt]
    split_ifs
    · exact setPte_pmd
    · rfl
  change (c.dropEntry (pageOf va)).cur.pt.pte = _
  rw [dropEntry_pt]
  split_ifs with hp
  · exact setPte_pte htab
  · have hclr := hin.resolve_left hp
    rw [← hclr, update_eq_self]
    rfl

/-- **Taking pages back** clears their entries, and no others. -/
lemma rollback_spec (vas : List Nat) {c : Ctx}
    (hin : ∀ va ∈ vas, (c.cur.pt.pmd (pageOf va / 512)).isTable = true ∧
      ((c.pte (pageOf va)).present = true ∨ c.pte (pageOf va) = clear)) :
    (vas.foldl unmapPage c).cur.mm = c.cur.mm ∧ (vas.foldl unmapPage c).cur.pt.pmd = c.cur.pt.pmd ∧
      ∀ n, (vas.foldl unmapPage c).pte n = if n ∈ vas.map pageOf then clear else c.pte n := by
  induction vas generalizing c with
  | nil => simp
  | cons va vas ih =>
    obtain ⟨hmm, hpmd, hpte⟩ := unmapPage_spec (hin va mem_cons_self).1 (hin va mem_cons_self).2
    have hr := @ih (c.unmapPage va) (by
      intro x hx
      obtain ⟨htab, hx⟩ := hin x (mem_cons_of_mem _ hx)
      rw [hpmd, hpte]
      refine ⟨htab, ?_⟩
      by_cases hs : pageOf x = pageOf va
      · rw [hs, update_self]
        exact .inr rfl
      · rwa [update_of_ne hs])
    obtain ⟨hmm', hpmd', hpte'⟩ := hr
    refine ⟨hmm'.trans hmm, hpmd'.trans hpmd, fun n => ?_⟩
    rw [foldl_cons, hpte' n, hpte]
    by_cases hn : n = pageOf va
    · subst hn
      simp
    · simp [hn]

/-- **The loop of `fb_mmap`**: the pages it filled in have tables and entries in use, and no other entry changed. -/
lemma installPages_spec (v : Vma) (env : FbMmapEnv) (vas : List Nat) (c : Ctx) (old : List Nat) :
    (installPages v env c old vas).1.cur.mm = c.cur.mm ∧
      Extends c.cur.pt (installPages v env c old vas).1.cur.pt ∧
      ∃ new, (installPages v env c old vas).2.1 = old ++ new ∧
        (∀ va ∈ new, ((installPages v env c old vas).1.cur.pt.pmd (pageOf va / 512)).isTable = true ∧
          ((installPages v env c old vas).1.pte (pageOf va)).present = true) ∧
        ∀ n, n ∉ new.map pageOf → (installPages v env c old vas).1.pte n = c.pte n := by
  induction vas generalizing c old with
  | nil => exact ⟨rfl, .of_eq rfl, [], by simp [installPages]⟩
  | cons va vas ih =>
    obtain ⟨hextends, hok, hf⟩ := map4kPage_spec c.mem c.cur.pt va
      (device (env.frame + (va - v.vmStart) / 4096) v.vmFlags.write) (env.tables va)
    rw [installPages]
    split
    · next m pt heq =>
        rw [heq] at hextends hok
        obtain ⟨htab, hpte⟩ := hok rfl
        obtain ⟨hmm, hext, new, hnew, hin, hout⟩ := ih ((c.withMem m).withPt pt) (old ++ [va])
        refine ⟨hmm, hextends.trans hext, va :: new, by simp [hnew], ?_, ?_⟩
        · intro x hx
          obtain rfl | hx := mem_cons.1 hx
          · refine ⟨hext.table _ htab, ?_⟩
            -- a later page may have the same slot; then it is in use again
            by_cases hlater : pageOf x ∈ new.map pageOf
            · obtain ⟨y, hy, hxy⟩ := mem_map.1 hlater
              rw [← hxy]
              exact (hin y hy).2
            · rw [hout _ hlater]
              change (pt.pte (pageOf x)).present = true
              rw [hpte, update_self]
              rfl
          · exact hin x hx
        · intro n hn
          rw [map_cons, mem_cons, not_or] at hn
          rw [hout n hn.2]
          change pt.pte n = c.pte n
          rw [hpte, update_of_ne hn.1]
          rfl
    · next m pt heq =>
        rw [heq] at hextends hf
        refine ⟨rfl, hextends, [], by simp, by simp, fun n _ => ?_⟩
        change pt.pte n = c.pte n
        rw [hf rfl]
        rfl

/-- **A handler that fails** leaves the entries that it filled in clear, and changes nothing else. -/
lemma devfsMmap_spec (c : Ctx) (v : Vma) (dev : DevNode) (hf : (c.devfsMmap v dev).2 < 0) :
    (c.devfsMmap v dev).1.cur.mm = c.cur.mm ∧ Extends c.cur.pt (c.devfsMmap v dev).1.cur.pt ∧
      ∀ n, (c.devfsMmap v dev).1.pte n = if n ∈ (c.devInstalled v dev).map pageOf then clear else c.pte n := by
  cases dev with
  | gone | plain => exact ⟨rfl, .of_eq rfl, by simp [devInstalled, devfsMmap]⟩
  | fb env =>
    obtain ⟨hmm, hext, new, hnew, hin, hout⟩ := installPages_spec v env (rangePages (v.vmStart, v.vmEnd)) c []
    rcases hchk : fbMmapCheck v env with _ | err
    · have hmap : c.devfsMmap v (.fb env) =
          match installPages v env c [] (rangePages (v.vmStart, v.vmEnd)) with
          | (c', _, true) => (c', 0)
          | (c', installed, false) => (installed.foldl unmapPage c', -ENOMEM) := by
        simp [devfsMmap, fbMmap, hchk]
      have hpgs : c.devInstalled v (.fb env) =
          (installPages v env c [] (rangePages (v.vmStart, v.vmEnd))).2.1 := by
        simp [devInstalled, hchk]
      rw [hmap] at hf ⊢
      rw [hpgs]
      split at hf
      · simp at hf
      next c' installed heq =>
        rw [heq] at hmm hext hnew hin hout
        obtain rfl : installed = new := by simpa using hnew
        obtain ⟨hmm', hpmd', hpte'⟩ := rollback_spec installed fun va hva => ⟨(hin va hva).1, .inl (hin va hva).2⟩
        rw [heq]
        refine ⟨hmm'.trans hmm, hext.trans (.of_eq hpmd'), fun n => ?_⟩
        rw [hpte' n]
        by_cases hn : n ∈ installed.map pageOf
        · rw [if_pos hn, if_pos hn]
        · rw [if_neg hn, if_neg hn]
          exact hout n hn
    · have hmap : c.devfsMmap v (.fb env) = (c, err) := by simp [devfsMmap, fbMmap, hchk]
      have hpgs : c.devInstalled v (.fb env) = [] := by simp [devInstalled, hchk]
      rw [hmap, hpgs]
      exact ⟨rfl, .of_eq rfl, by simp⟩

/-! ## The result -/

/-- The rest of a call that fails: only a handler changes anything. -/
lemma mmapFinish_unchanged (c : Ctx) (addr length prot flags offset : Nat) (env : MmapCallEnv)
    (hf : (c.mmapFinish addr length prot flags offset env).2 < 0) :
    (c.mmapFinish addr length prot flags offset env).1.cur.mm = c.cur.mm ∧
      (c.Unchanged (c.mmapFinish addr length prot flags offset env).1 ↔
        ∀ dev v, env.handler flags = some dev →
          mmapArea c.cur.mm addr length prot flags offset (env.answers 0) = .ok v →
          ∀ va ∈ c.devInstalled v dev, c.pte (pageOf va) = clear) := by
  unfold mmapFinish at hf ⊢
  cases ha : mmapArea c.cur.mm addr length prot flags offset (env.answers 0) with
  | error err => exact ⟨rfl, iff_of_true ⟨rfl, fun _ => rfl, fun _ _ => .rfl⟩ (by simp)⟩
  | ok v =>
    rw [ha] at hf
    cases hdev : env.handler flags with
    | none =>
      rw [hdev] at hf
      exact absurd hf (by simp)
    | some dev =>
      rw [hdev] at hf
      dsimp only at hf ⊢
      by_cases hrc : (c.devfsMmap v dev).2 < 0
      · obtain ⟨hmm, hext, hpte⟩ := devfsMmap_spec c v dev hrc
        rw [if_pos hrc]
        refine ⟨hmm, ?_⟩
        constructor
        · rintro hs _ _ ⟨⟩ ⟨⟩ va hva
          rw [← hs.pte, hpte, if_pos (mem_map_of_mem hva)]
        intro hclr
        refine ⟨by rw [hmm], fun n => ?_, hext.huge⟩
        rw [hpte n]
        split_ifs with hn
        · obtain ⟨va, hva, rfl⟩ := mem_map.1 hn
          exact (hclr dev v rfl rfl va hva).symm
        · rfl
      · rw [if_neg hrc] at hf
        exact absurd hf (by simp)

/-- **`do_mmap`.** A call that fails leaves the areas and the entries of the page table as they were exactly if its
arguments are refused at once, or if there is nothing in a fixed range to unmap and the handler of a device took back
only entries that were clear before. -/
theorem mmap_atomic_iff (c : Ctx) (addr length prot flags fd offset : Nat) (env : MmapCallEnv)
    (hfail : (c.doMmap addr length prot flags fd offset env).2 < 0) :
    c.Unchanged (c.doMmap addr length prot flags fd offset env).1 ↔
      c.MmapAtomic addr length prot flags fd offset env := by
  unfold MmapAtomic
  unfold doMmap at hfail ⊢
  cases hchk : mmapCheck c.cur.mm addr length flags fd offset (env.answers 0) with
  | some err => exact iff_of_true ⟨rfl, fun _ => rfl, fun _ _ => .rfl⟩ (.inl rfl)
  | none =>
    rw [hchk] at hfail
    simp only [mmapPlace] at hfail ⊢
    simp only [Option.isSome_none, Bool.false_eq_true, false_or]
    cases hfix : mapFixed flags with
    | false =>
      simp only [hfix, Bool.false_eq_true, false_implies, true_and] at hfail ⊢
      exact (mmapFinish_unchanged c _ _ prot flags offset env hfail).2
    | true =>
      simp only [hfix, if_true, true_implies] at hfail ⊢
      rcases doMunmapLocked_cases c.cur.mm addr (pageAlign length) (env.answers 0).unmapKmalloc with
        ⟨hnothing, hmm, hranges⟩ | ⟨hsm, hl⟩
      · rw [hmm, hranges] at hfail ⊢
        rw [and_iff_right hnothing]
        exact (mmapFinish_unchanged c addr _ prot flags offset env hfail).2
      · refine iff_of_false (fun hs => hl ?_) fun h => hsm h.1
        obtain ⟨hmm, -⟩ := mmapFinish_unchanged _ addr _ prot flags offset env hfail
        rw [← hs.list, hmm]
        rfl

/-- A context with an empty page table and one anonymous area of two pages. -/
def oneArea : Ctx where
  mem := ⟨fun _ => .free, fun _ => false, fun _ => 0, fun _ => 0, fun _ => false⟩
  cur :=
    { mm :=
        { vmaList :=
            [⟨0x402000, 0x402000, { read := true, write := true, anon := true, heap := true }, .rw, 0, none⟩,
              ⟨0x50000000, 0x50002000, { read := true, write := true, anon := true }, .rw, 0, none⟩]
          startBrk := 0x402000
          endBrk := 0x402000
          mmapBase := 0x40000000 }
      pt := .empty 0 }
  rest := []
  freed := []

/-- No file, and memory for every allocation. -/
def anonCall : MmapCallEnv := ⟨none, true, fun _ => true⟩

/-- A fixed mapping beside the area, with a protection that is refused. -/
theorem mmap_atomic_beside : (oneArea.doMmap 0x60000000 0x1000 2 0x32 (2 ^ 64 - 1) 0 anonCall).2 = -EINVAL ∧
      oneArea.Unchanged (oneArea.doMmap 0x60000000 0x1000 2 0x32 (2 ^ 64 - 1) 0 anonCall).1 := by
  have hrc : (oneArea.doMmap 0x60000000 0x1000 2 0x32 (2 ^ 64 - 1) 0 anonCall).2 = -EINVAL := by decide
  refine ⟨hrc, (mmap_atomic_iff oneArea _ _ _ _ _ _ anonCall (by rw [hrc]; decide)).2 (.inr ⟨fun _ => ?_, ?_⟩)⟩
  · refine .inr (.inr ?_)
    intro v hv
    cases hv
  · intro dev v hdev
    cases hdev

/-- The same call over the area: it fails as well, and the first page of the area is gone. -/
theorem mmap_fixed_lost : (oneArea.doMmap 0x50000000 0x1000 2 0x32 (2 ^ 64 - 1) 0 anonCall).2 = -EINVAL ∧
      ¬ oneArea.Unchanged (oneArea.doMmap 0x50000000 0x1000 2 0x32 (2 ^ 64 - 1) 0 anonCall).1 := by
  refine ⟨by decide, fun h => ?_⟩
  have hl := h.list
  revert hl
  decide

end Ctx

end OS01.Memory
