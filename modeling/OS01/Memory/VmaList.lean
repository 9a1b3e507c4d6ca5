import OS01.Lib.Run
import OS01.Memory.Vma

/-!
# The area list over whole runs

In every run of `do_mmap`, `do_munmap`, `do_mprotect` and `mm_set_brk` the area list should stay
sorted, proper, below the address limit and pairwise disjoint. Two additions break it when they
wrap: `gap_start + length` and `addr + length` of an `mmap` that chooses its own address, and
`addr + length` of a `munmap` (`vma_wraps`). `do_mprotect` has the check that both
lack. In every run in which no such addition wraps, or a wrapped `munmap` meets no area, the list is
well formed in every state (`vmaList_wellFormed`), and `vma_find` finds the area that holds an address
exactly if there is one (`vmaFind_exact`).

The proof keeps a stronger invariant: every area ends before the next one begins, where the heap area
counts as reaching up to `HEAP_LIMIT`. So a moving break does not change the invariant at all, and
the reserved-window test of the other calls is exactly what keeps them out of it.
-/

namespace OS01.Memory

open List Lib Vma Chained

/-! ## The invariant -/

/-- Where the room of an area ends: the heap area owns everything up to `HEAP_LIMIT`. -/
def Vma.top (v : Vma) : Nat := if v.vmFlags.heap then HEAP_LIMIT else v.vmEnd

/-- What holds of every area of an address space whose break starts at `startBrk`. -/
structure VmaOk (startBrk : Nat) (v : Vma) : Prop where
  proper : v.vmStart ≤ v.vmEnd
  within : v.vmEnd ≤ v.top
  bounded : v.vmEnd ≤ ADDR_LIMIT
  heapAt : v.vmFlags.heap = true → v.vmStart = startBrk

/-- The invariant of an area list. -/
structure ListOk (startBrk : Nat) (l : List Vma) : Prop where
  chained : Chained vmStart top l
  areas : ∀ v ∈ l, VmaOk startBrk v

/-- The invariant of an address space. -/
structure Mm.Inv (mm : Mm) : Prop where
  list : ListOk mm.startBrk mm.vmaList
  base : mm.mmapBase = 0x40000000
  brk_pos : 0 < mm.startBrk
  brk_le : mm.startBrk ≤ HEAP_LIMIT

/-- An area outside `[addr, stop)`, with its room. -/
def Vma.Apart (addr stop : Nat) (v : Vma) : Prop := v.top ≤ addr ∨ stop ≤ v.vmStart

variable {v : Vma} {addr stop length prot flags offset fd b requested : Nat} {mm : Mm} {f : VmFlags}
  {p : PageProt} {env : MmapEnv} {l : List Vma}

lemma Vma.top_of_not_heap (h : v.vmFlags.heap = false) : v.top = v.vmEnd := by
  simp [top, h]

lemma Vma.top_of_heap (h : v.vmFlags.heap = true) : v.top = HEAP_LIMIT := by
  simp [top, h]

variable {done todo : List Vma} {w x : Vma}

lemma VmaOk.le_top (h : VmaOk b v) : v.vmStart ≤ v.top := h.proper.trans h.within

/-- An ordinary area with new ends. -/
lemma VmaOk.withEnds (h : VmaOk b v) (hh : v.vmFlags.heap = false) {s e : Nat} (hse : s ≤ e)
    (he : e ≤ v.vmEnd) : VmaOk b { v with vmStart := s, vmEnd := e } := by
  have hw : ({ v with vmStart := s, vmEnd := e } : Vma).vmFlags.heap = false := hh
  refine ⟨hse, (top_of_not_heap hw).ge, he.trans h.bounded, fun hhp => ?_⟩
  rw [hw] at hhp
  cases hhp

/-- Inserting an ordinary, nonempty area into room that no area of the list has. -/
lemma ListOk.insert (h : ListOk b l) (hx : VmaOk b x) (hhp : x.vmFlags.heap = false)
    (hpos : x.vmStart < x.vmEnd) (hf : ∀ v ∈ l, v.Apart x.vmStart x.vmEnd) : ListOk b (vmaInsert l x) := by
  have htop := top_of_not_heap hhp
  refine ⟨?_, fun v hv => ?_⟩
  · refine h.chained.insert (by rw [htop]; exact hpos) fun v hv => ?_
    rw [htop]
    exact hf v hv
  · obtain rfl | hv := mem_insertByLo.1 hv
    · exact hx
    · exact h.areas v hv

/-- Cutting an ordinary area down to parts of itself. -/
lemma ListOk.narrow (h : ListOk b (done ++ v :: todo)) (hhp : v.vmFlags.heap = false)
    {m : List Vma} (hm : ListOk b m) (hlo : ∀ w ∈ m, v.vmStart ≤ w.vmStart)
    (hhi : ∀ w ∈ m, w.top ≤ v.vmEnd) : ListOk b (done ++ (m ++ todo)) := by
  refine ⟨h.chained.narrow hm.chained hlo fun w hw => ?_, fun w hw => ?_⟩
  · rw [top_of_not_heap hhp]
    exact hhi w hw
  · obtain hw | hw := mem_append.1 hw
    · exact h.areas w (mem_append_left _ hw)
    · obtain hw | hw := mem_append.1 hw
      · exact hm.areas w hw
      · exact h.areas w (mem_append_right _ (mem_cons_of_mem _ hw))

lemma ListOk.singleton (h : VmaOk b v) : ListOk b [v] :=
  ⟨cons_iff.2 ⟨h.le_top, by simp, nil⟩, by simpa using h⟩

/-! ## Unmapping -/

variable {fuel : Nat} {kmalloc : Nat → Bool}

/-- A loop that meets no area changes nothing. -/
lemma munmapLoop_miss (hm : ∀ v ∈ todo, v.vmEnd ≤ addr ∨ stop ≤ v.vmStart) :
    (munmapLoop kmalloc addr stop fuel done todo).1 = done ++ todo := by
  fun_induction munmapLoop kmalloc addr stop fuel done todo with
  | case3 fuel done v todo hs ih => simpa using ih fun w hw => hm w (mem_cons_of_mem _ hw)
  | case5 fuel done v todo hs hbrk => exact absurd (hm v mem_cons_self) (not_or.2 ⟨hs, hbrk⟩)
  | _ => simp

/-- When the loop splits an area of a well-formed list, the right half goes directly behind the left
one. -/
lemma insertZip_behind {left right : Vma} (hd : ∀ v ∈ done, v.vmStart ≤ right.vmStart)
    (hl : left.vmStart ≤ right.vmStart) (ht : ∀ v ∈ todo, right.vmStart < v.vmStart) :
    insertZip (done ++ [left]) todo right = (done ++ [left, right], todo) := by
  have hany : ((done ++ [left]).any fun v => right.vmStart < v.vmStart) = false := by
    rw [any_eq_false]
    intro v hv
    obtain hv | hv := mem_append.1 hv
    · have hle := hd v hv
      simpa using hle
    · rw [mem_singleton] at hv
      subst hv
      simpa using hl
  cases todo with
  | nil => simp [insertZip, hany]
  | cons v vs =>
    have hlt := ht v mem_cons_self
    simp [insertZip, hany, hlt]

/-- A part of an ordinary area, outside the range. -/
structure Part (b addr stop : Nat) (v w : Vma) : Prop where
  ok : VmaOk b w
  heap : w.vmFlags.heap = false
  lo : v.vmStart ≤ w.vmStart
  hi : w.vmEnd ≤ v.vmEnd
  apart : w.Apart addr stop

/-- An ordinary area that meets the range loses its part in the range, and nothing else. -/
lemma cutVma_cases (hv : VmaOk b v) (hhp : v.vmFlags.heap = false)
    (hend : addr < v.vmEnd) (hst : v.vmStart < stop) : cutVma v (unmapRange addr stop v) = .whole ∨
    (∃ left right, cutVma v (unmapRange addr stop v) = .split left right ∧
      Part b addr stop v left ∧ Part b addr stop v right ∧ left.vmEnd = addr ∧
      right.vmStart = stop ∧ left.vmStart = v.vmStart ∧ right.vmEnd = v.vmEnd ∧ stop < v.vmEnd) ∨
    (∃ w, cutVma v (unmapRange addr stop v) = .keep w ∧ Part b addr stop v w) := by
  have hl : v.vmStart < addr → Part b addr stop v { v with vmEnd := addr } := fun h => by
    have htop : ({ v with vmEnd := addr } : Vma).top = addr := top_of_not_heap hhp
    exact ⟨hv.withEnds hhp h.le hend.le, hhp, le_rfl, hend.le, .inl htop.le⟩
  have hrt : stop < v.vmEnd → Part b addr stop v { v with vmStart := stop } := fun h =>
    ⟨hv.withEnds hhp h.le le_rfl, hhp, hst.le, le_rfl, .inr le_rfl⟩
  by_cases hs : v.vmStart < addr
  · by_cases he : stop < v.vmEnd
    · refine .inr (.inl ⟨_, _, ?_, hl hs, hrt he, rfl, rfl, rfl, rfl, he⟩)
      simp [cutVma, unmapRange, hs, he]
    · refine .inr (.inr ⟨_, ?_, hl hs⟩)
      simp [cutVma, unmapRange, hs, he]
  · by_cases he : stop < v.vmEnd
    · refine .inr (.inr ⟨_, ?_, hrt he⟩)
      have hne : ¬ v.vmEnd ≤ stop := by omega
      simp [cutVma, unmapRange, hs, he, hne]
    · exact .inl (by simp [cutVma, unmapRange, hs, he])

/-- **Loop lemma.** Over a well-formed list whose heap area lies outside the range, the loop leaves a
well-formed list of areas outside the range. -/
lemma munmapLoop_ok (hrng : addr < stop) (hf : todo.length < fuel) (hls : ListOk b (done ++ todo))
    (hhp : ∀ v ∈ done ++ todo, v.vmFlags.heap = true → v.Apart addr stop)
    (hd : ∀ v ∈ done, v.Apart addr stop) : ListOk b (munmapLoop kmalloc addr stop fuel done todo).1 ∧
      ∀ v ∈ (munmapLoop kmalloc addr stop fuel done todo).1, v.Apart addr stop := by
  induction fuel generalizing done todo with
  | zero => omega
  | succ fuel ih =>
    cases todo with
    | nil =>
      rw [append_nil] at hls
      exact ⟨hls, hd⟩
    | cons v todo =>
      have hf' : todo.length < fuel := by simpa using hf
      have hv : VmaOk b v := hls.areas v (by simp)
      obtain ⟨hbef, haft⟩ := hls.chained.around
      -- the loop goes on with parts `m` of `v` in its place
      have hgo : ∀ m : List Vma, v.vmFlags.heap = false → Chained vmStart top m →
          (∀ w ∈ m, Part b addr stop v w) → ListOk b (munmapLoop kmalloc addr stop fuel (done ++ m) todo).1 ∧
            ∀ w ∈ (munmapLoop kmalloc addr stop fuel (done ++ m) todo).1, w.Apart addr stop := by
        intro m hvh hm hp
        refine ih hf' ?_ ?_ ?_
        · rw [append_assoc]
          refine hls.narrow hvh ⟨hm, fun w hw => (hp w hw).ok⟩ (fun w hw => (hp w hw).lo) fun w hw => ?_
          rw [top_of_not_heap (hp w hw).heap]
          exact (hp w hw).hi
        · intro w hw hwh
          rcases mem_append.1 hw with hw | hw
          · obtain hw | hw := mem_append.1 hw
            · exact hd w hw
            · exact (hp w hw).apart
          · exact hhp w (by simp [hw]) hwh
        · intro w hw
          obtain hw | hw := mem_append.1 hw
          · exact hd w hw
          · exact (hp w hw).apart
      by_cases hend : v.vmEnd ≤ addr
      · -- the area ends before the range
        rw [munmapLoop, if_pos hend]
        have hva : v.Apart addr stop := by
          by_cases hvh : v.vmFlags.heap = true
          · exact hhp v (by simp) hvh
          · exact .inl (by rwa [top_of_not_heap (by simpa using hvh)])
        refine ih hf' (by simpa using hls) (by simpa using hhp) fun w hw => ?_
        obtain hw | hw := mem_append.1 hw
        · exact hd w hw
        · rw [mem_singleton] at hw
          exact hw ▸ hva
      by_cases hst : stop ≤ v.vmStart
      · -- the area begins behind the range, and so do all later ones
        rw [munmapLoop, if_neg hend, if_pos hst]
        refine ⟨hls, fun w hw => ?_⟩
        obtain hw | hw := mem_append.1 hw
        · exact hd w hw
        · obtain rfl | hw := mem_cons.1 hw
          · exact .inr hst
          · exact .inr (hst.trans (hv.le_top.trans (haft w hw)))
      -- the area meets the range, so it is not the heap area
      have hvh : v.vmFlags.heap = false := by
        rw [Bool.eq_false_iff]
        intro hvh
        have hwithin := hv.within
        rcases hhp v (by simp) hvh with h | h <;> omega
      rw [munmapLoop, if_neg hend, if_neg hst]
      rcases cutVma_cases hv hvh (not_le.1 hend) (not_le.1 hst) with
        hcut | ⟨left, right, hcut, hl, hr, hm⟩ | ⟨w, hcut, hw⟩
      · simpa [hcut] using hgo [] hvh .nil (by simp)
      · obtain ⟨hln, hrstart, hlstart, hrn, hlt⟩ := hm
        have ht : left.top = addr := by rw [top_of_not_heap hl.heap, hln]
        by_cases hk : kmalloc fuel = true
        · have hzip : insertZip (done ++ [left]) todo right = (done ++ [left, right], todo) := by
            refine insertZip_behind (fun a ha => ?_) (by omega) fun a ha => ?_
            · have h1 := (hls.areas a (by simp [ha])).le_top
              have h2 := hbef a ha
              omega
            · have h1 := haft a ha
              rw [top_of_not_heap hvh] at h1
              omega
          simp only [hcut, hk, hzip]
          refine hgo [left, right] hvh (cons_iff.2 ⟨hl.ok.le_top, ?_,
            (ListOk.singleton hr.ok).chained⟩) (by simpa using ⟨hl, hr⟩)
          rintro a ha
          rw [mem_singleton] at ha
          subst ha
          omega
        · simp only [hcut, hk]
          exact hgo [left] hvh (ListOk.singleton hl.ok).chained (by simpa using hl)
      · simp only [hcut]
        exact hgo [w] hvh (ListOk.singleton hw.ok).chained (by simpa using hw)

/-- A range outside the reserved window leaves the heap's room alone. -/
lemma unprotected_apart (hpos : 0 < mm.startBrk)
    (hrng : addr < stop) (h : mmUserRangeProtected mm addr stop = false)
    (hhp : v.vmFlags.heap = true) (hat : v.vmStart = mm.startBrk) : v.Apart addr stop := by
  have h0 : ¬ mm.startBrk = 0 := by omega
  have hne : ¬ stop ≤ addr := by omega
  simp only [mmUserRangeProtected, h0, hne, if_false, Bool.or_eq_false_iff,
    Bool.and_eq_false_iff, decide_eq_false_iff_not, not_lt] at h
  obtain ⟨⟨⟨-, hwin⟩, -⟩, -⟩ := h
  rw [Vma.Apart, top_of_heap hhp, hat]
  exact hwin

/-- The end of a range on a page boundary, when it does not wrap. -/
lemma u64_of_lt {n : Nat} (h : n < 2 ^ 64) : u64 n = n := Nat.mod_eq_of_lt h

/-- When `do_munmap_locked` edits the list correctly: its range does not wrap, or the wrapped range
meets no area. -/
def MunmapOk (mm : Mm) (addr length : Nat) : Prop :=
  pageAlign addr + pageAlign length < 2 ^ 64 ∨
    ∀ v ∈ mm.vmaList,
      v.vmEnd ≤ pageAlign addr ∨ u64 (pageAlign addr + pageAlign length) ≤ v.vmStart

/-- `do_munmap_locked` keeps the invariant and moves no other field. -/
lemma doMunmapLocked_inv (h : mm.Inv)
    (hok : MunmapOk mm addr length) : (doMunmapLocked mm addr length kmalloc).1.Inv := by
  unfold doMunmapLocked
  simp only
  split_ifs with hz hp
  · exact h
  · exact h
  refine ⟨?_, h.base, h.brk_pos, h.brk_le⟩
  obtain hno | hm := hok
  · rw [u64_of_lt hno] at hp ⊢
    have hrng : pageAlign addr < pageAlign addr + pageAlign length := by omega
    refine (munmapLoop_ok hrng (Nat.lt_succ_self _) h.list (fun v hv hhp => ?_) (by simp)).1
    exact unprotected_apart h.brk_pos hrng (by simpa using hp) hhp ((h.list.areas v hv).heapAt hhp)
  · rw [munmapLoop_miss hm]
    exact h.list

/-- After unmapping a range that does not wrap and is not reserved, no area has room in it. -/
lemma doMunmapLocked_apart (h : mm.Inv) (kmalloc : Nat → Bool)
    (hno : pageAlign addr + pageAlign length < 2 ^ 64) (hpos : 0 < pageAlign length)
    (hp : mmUserRangeProtected mm (pageAlign addr) (pageAlign addr + pageAlign length) = false) :
    ∀ v ∈ (doMunmapLocked mm addr length kmalloc).1.vmaList,
      v.Apart (pageAlign addr) (pageAlign addr + pageAlign length) := by
  have hrng : pageAlign addr < pageAlign addr + pageAlign length := by omega
  have hl : ∀ v ∈ (munmapLoop kmalloc (pageAlign addr) (pageAlign addr + pageAlign length)
      (mm.vmaList.length + 1) [] mm.vmaList).1,
      v.Apart (pageAlign addr) (pageAlign addr + pageAlign length) := by
    refine (munmapLoop_ok hrng (Nat.lt_succ_self _) h.list (fun v hv hhp => ?_) (by simp)).2
    exact unprotected_apart h.brk_pos hrng hp hhp ((h.list.areas v hv).heapAt hhp)
  have hne : pageAlign length ≠ 0 := by omega
  simpa only [doMunmapLocked, u64_of_lt hno, hp, if_neg hne]

/-! ## Mapping -/

/-- No protection argument makes an area a heap area. -/
lemma protToPageFlags_heap (h : protToPageFlags prot = some (p, f)) : f.heap = false := by
  unfold protToPageFlags at h
  simp only at h
  split_ifs at h
  split at h <;> cases h <;> rfl

/-- The area `do_mmap` builds is an ordinary one over the range it was given. -/
lemma mmapArea_ok (h : mmapArea mm addr length prot flags offset env = .ok v) :
    v.vmStart = addr ∧ v.vmEnd = u64 (addr + length) ∧ v.vmFlags.heap = false ∧
      u64 (addr + length) ≤ ADDR_LIMIT ∧ addr < ADDR_LIMIT := by
  unfold mmapArea at h
  by_cases hlim : ADDR_LIMIT < u64 (addr + length)
  · rw [if_pos hlim] at h
    cases h
  by_cases ha : ADDR_LIMIT ≤ addr
  · rw [if_neg hlim, if_pos ha] at h
    cases h
  rw [if_neg hlim, if_neg ha] at h
  cases hp : protToPageFlags prot with
  | none =>
    rw [hp] at h
    cases h
  | some pf =>
    have hhp := protToPageFlags_heap hp
    rw [hp] at h
    simp only at h
    by_cases han : mapAnonymous flags = true
    · rw [if_pos han] at h
      split_ifs at h
      cases h
      exact ⟨rfl, rfl, hhp, not_lt.1 hlim, not_le.1 ha⟩
    rw [if_neg han] at h
    cases hf : env.file with
    | none =>
      rw [hf] at h
      cases h
    | some file =>
      rw [hf] at h
      cases file with
      | regular node | device rc =>
        simp only at h
        split_ifs at h
        cases h
        exact ⟨rfl, rfl, hhp, not_lt.1 hlim, not_le.1 ha⟩

/-- Inserting the area keeps the invariant when its range has no wrap and no other area's room. -/
lemma mmapFinish_inv (h : mm.Inv) (hpos : 0 < length) (hno : addr + length < 2 ^ 64)
    (hf : addr < ADDR_LIMIT → ∀ v ∈ mm.vmaList, v.Apart addr (addr + length)) :
    (mmapFinish mm addr length prot flags offset env).1.Inv := by
  unfold mmapFinish
  split
  · exact h
  next v hv =>
    obtain ⟨hs, he, hhp, hlim, ha⟩ := mmapArea_ok hv
    rw [u64_of_lt hno] at he hlim
    refine ⟨h.list.insert ⟨by omega, ?_, by omega, ?_⟩ hhp (by omega) ?_, h.base, h.brk_pos, h.brk_le⟩
    · rw [top_of_not_heap hhp]
    · intro hh
      rw [hhp] at hh
      cases hh
    · rw [hs, he]
      exact hf ha

variable {search : Nat} {prev : Option Nat}

/-- The beginning of a gap is the search base or the end of the area before. -/
lemma gapStart_mem (prev : Option Nat) (search : Nat) :
    max (prev.getD search) search = search ∨ prev = some (max (prev.getD search) search) := by
  cases prev with
  | none => exact .inl (max_self _)
  | some e =>
    obtain hle | hle := le_total e search
    · exact .inl (max_eq_right hle)
    · exact .inr (by rw [Option.getD_some, max_eq_left hle])

/-- The gap search returns the search base or the end of an area. -/
lemma gapSearch_mem : max (gapSearch search length prev l) search = search ∨
      prev = some (max (gapSearch search length prev l) search) ∨
      ∃ v ∈ l, v.vmEnd = max (gapSearch search length prev l) search := by
  induction l generalizing prev with
  | nil =>
    exact (gapStart_mem prev search).imp_right .inl
  | cons v l ih =>
    rw [gapSearch]
    split
    · rw [max_assoc, max_self]
      exact (gapStart_mem prev search).imp_right .inl
    · obtain h | h | ⟨w, hw, h⟩ := @ih (some v.vmEnd)
      · exact .inl h
      · exact .inr (.inr ⟨v, mem_cons_self, Option.some.inj h⟩)
      · exact .inr (.inr ⟨w, mem_cons_of_mem _ hw, h⟩)

/-- **Gap lemma.** When no end of an area plus the length wraps, the address found begins a range
that no area has room in. The areas already passed are `before`; they all end at or below the
beginning of the current gap. -/
lemma gapSearch_free {before : List Vma} (hl : ListOk b (before ++ l)) (hhp : HEAP_LIMIT ≤ search)
    (hno : ∀ g, g = search ∨ prev = some g ∨ (∃ v ∈ l, v.vmEnd = g) → g + length < 2 ^ 64)
    (hbef : ∀ v ∈ before, v.top ≤ max (prev.getD search) search) : ∀ v ∈ before ++ l,
      v.Apart (max (gapSearch search length prev l) search)
        (max (gapSearch search length prev l) search + length) := by
  induction l generalizing prev before with
  | nil =>
    intro v hv
    rw [append_nil] at hv
    exact .inl (hbef v hv)
  | cons w l ih =>
    have hw : VmaOk b w := hl.areas w (by simp)
    obtain ⟨hb, haft⟩ := hl.chained.around
    rw [gapSearch]
    split
    · next hfit =>
        -- the gap before `w` is large enough
        rw [max_assoc, max_self]
        have hlt : max (prev.getD search) search + length < 2 ^ 64 :=
          hno _ ((gapStart_mem prev search).imp_right .inl)
        rw [u64_of_lt hlt] at hfit
        intro v hv
        obtain hv | hv := mem_append.1 hv
        · exact .inl (hbef v hv)
        · obtain rfl | hv := mem_cons.1 hv
          · exact .inr hfit
          · exact .inr (hfit.trans (hw.le_top.trans (haft v hv)))
    · have hl' : ListOk b ((before ++ [w]) ++ l) := by simpa using hl
      have hs : before ++ w :: l = (before ++ [w]) ++ l := by simp
      rw [hs]
      refine ih hl' (fun g hg => hno g ?_) fun v hv => ?_
      · obtain hg | hg | ⟨v, hv, hg⟩ := hg
        · exact .inl hg
        · exact .inr (.inr ⟨w, mem_cons_self, Option.some.inj hg⟩)
        · exact .inr (.inr ⟨v, mem_cons_of_mem _ hv, hg⟩)
      rw [Option.getD_some]
      obtain hv | hv := mem_append.1 hv
      · exact le_max_of_le_left ((hb v hv).trans hw.proper)
      rw [mem_singleton] at hv
      subst hv
      by_cases hvh : v.vmFlags.heap = true
      · rw [top_of_heap hvh]
        exact le_max_of_le_right hhp
      · rw [top_of_not_heap (by simpa using hvh)]
        exact le_max_left _ _

/-- When an `mmap` that chooses its own address does so correctly: no end of an area, nor the search
base, plus the rounded length wraps. -/
def AutoOk (mm : Mm) (length : Nat) : Prop :=
  ∀ g ∈ mm.mmapBase :: mm.vmaList.map vmEnd, g + pageAlign length < 2 ^ 64

/-- Above the reserved window nothing is protected. -/
lemma not_protected_above (h : mm.Inv) (ha : mm.mmapBase ≤ addr) :
    mmUserRangeProtected mm addr stop = false := by
  have hb := h.base
  have hbrk := h.brk_le
  have hlim : HEAP_LIMIT = 0x203ff000 := rfl
  have hstk : USER_STACK_BASE = 0x20400000 := rfl
  have hend : STACK_END = 0x20600000 := rfl
  have h1 : ¬ addr < mm.startBrk := by omega
  have h2 : ¬ addr < HEAP_LIMIT := by omega
  have h3 : ¬ addr < USER_STACK_BASE := by omega
  have h4 : ¬ addr < STACK_END := by omega
  simp [mmUserRangeProtected, h1, h2, h3, h4]

/-- The address taken without `MAP_FIXED`, when nothing wraps. -/
lemma autoAddr_ok (h : mm.Inv) (hok : AutoOk mm length) :
    autoAddr mm (pageAlign length) + pageAlign length < 2 ^ 64 ∧
      ∀ v ∈ mm.vmaList, v.Apart (autoAddr mm (pageAlign length))
        (autoAddr mm (pageAlign length) + pageAlign length) := by
  have ha : autoAddr mm (pageAlign length)
      = max (gapSearch mm.mmapBase (pageAlign length) none mm.vmaList) mm.mmapBase := by
    unfold autoAddr
    simp only
    rw [not_protected_above h (le_max_right _ _)]
    rfl
  have hmem : ∀ g, g = mm.mmapBase ∨ none = some g ∨ (∃ v ∈ mm.vmaList, v.vmEnd = g) →
      g + pageAlign length < 2 ^ 64 := by
    rintro g (rfl | hg | ⟨v, hv, rfl⟩)
    · exact hok _ mem_cons_self
    · cases hg
    · exact hok _ (mem_cons_of_mem _ (mem_map_of_mem hv))
  have hhp : HEAP_LIMIT ≤ mm.mmapBase := by
    rw [h.base]
    decide
  rw [ha]
  exact ⟨hmem _ gapSearch_mem, gapSearch_free (nil_append mm.vmaList ▸ h.list) hhp hmem (by simp)⟩

/-- No error means that no check applied. -/
lemma firstError_eq_none {l : List (Bool × Int)} (h : firstError l = none) : ∀ p ∈ l, p.1 = false := by
  induction l with
  | nil => simp
  | cons p l ih =>
    obtain ⟨bad, err⟩ := p
    cases bad with
    | true => cases h
    | false =>
      intro q hq
      obtain rfl | hq := mem_cons.1 hq
      · rfl
      · exact ih h q hq

/-- The rounded length that passes the checks is positive. -/
lemma mmapCheck_length (h : mmapCheck mm addr length flags fd offset env = none) : 0 < pageAlign length := by
  have hrnd := firstError_eq_none h (decide (pageAlign length = 0), -EINVAL) (by simp)
  exact Nat.pos_of_ne_zero (of_decide_eq_false hrnd)

/-- The checks on a fixed range leave a range that does not wrap and is not reserved. -/
lemma mmapCheck_fixed (hfix : mapFixed flags = true)
    (h : mmapCheck mm addr length flags fd offset env = none) :
    pageAlign addr = addr ∧ 0 < pageAlign length ∧ addr + pageAlign length < 2 ^ 64 ∧
      pageAlign (pageAlign length) = pageAlign length ∧
      mmUserRangeProtected mm addr (addr + pageAlign length) = false := by
  have hchecks := firstError_eq_none h
  have hrnd := mmapCheck_length h
  have ho : ¬ pageAlign (u64 (addr + length)) < addr :=
    of_decide_eq_false (hchecks (decide (pageAlign (u64 (addr + length)) < addr), -EINVAL) (by simp))
  have hal : addr % 4096 = 0 := by
    have hbad := hchecks (mapFixed flags && decide (addr % 4096 ≠ 0), -EINVAL) (by simp)
    simpa [hfix] using hbad
  have hp := hchecks (mapFixed flags &&
    mmUserRangeProtected mm addr (pageAlign (u64 (addr + length))), -EINVAL) (by simp)
  have hst : pageAlign (u64 (addr + length)) = addr + pageAlign length ∧
      addr + pageAlign length < 2 ^ 64 := by
    unfold pageAlign u64 at ho hrnd ⊢
    omega
  have hs : pageAlign addr = addr ∧ pageAlign (pageAlign length) = pageAlign length := by
    unfold pageAlign u64 at hrnd ⊢
    omega
  rw [hst.1, hfix] at hp
  exact ⟨hs.1, by omega, hst.2, hs.2, by simpa using hp⟩

/-- `do_mmap` keeps the invariant, with `MAP_FIXED` always and without it when nothing wraps. -/
lemma doMmap_inv (h : mm.Inv)
    (hok : mapFixed flags = false → mmapCheck mm addr length flags fd offset env = none →
      AutoOk mm length) : (doMmap mm addr length prot flags fd offset env).1.Inv := by
  unfold doMmap
  split
  · exact h
  next hchk =>
    cases hfix : mapFixed flags with
    | true =>
      obtain ⟨hs, hpos, hno, hrnd, hp⟩ := mmapCheck_fixed hfix hchk
      have hno' : pageAlign addr + pageAlign (pageAlign length) < 2 ^ 64 := by
        rwa [hs, hrnd]
      have hinv : (doMunmapLocked mm addr (pageAlign length) env.unmapKmalloc).1.Inv :=
        doMunmapLocked_inv h (.inl hno')
      have hap := doMunmapLocked_apart h env.unmapKmalloc hno'
        (by rwa [hrnd]) (by rwa [hs, hrnd])
      rw [hs, hrnd] at hap
      exact mmapFinish_inv hinv hpos hno fun _ => hap
    | false =>
      have hpos := mmapCheck_length hchk
      obtain ⟨hno, hap⟩ := autoAddr_ok h (hok hfix hchk)
      exact mmapFinish_inv h hpos hno fun _ => hap

/-! ## Protection and the break -/

/-- Lists with the same ends and heap marks are equally well formed. -/
lemma ListOk.of_map_eq {l' : List Vma} (h : ListOk b l)
    (heq : l'.map (fun v => (v.vmStart, v.top)) = l.map (fun v => (v.vmStart, v.top)))
    (hars : ∀ v ∈ l', VmaOk b v) : ListOk b l' := ⟨h.chained.of_map_eq heq, hars⟩

/-- Reprotecting an area moves none of its ends. -/
lemma VmaOk.reprotect (h : VmaOk b v) (p : PageProt) (f : VmFlags) :
    VmaOk b (v.reprotect p f) := ⟨h.proper, h.within, h.bounded, h.heapAt⟩

/-- The update loop of `do_mprotect` moves no end. -/
lemma mprotectLoop_ok (hars : ∀ v ∈ l, VmaOk b v) :
    (mprotectLoop stop p f addr l).1.map (fun v => (v.vmStart, v.top)) = l.map (fun v => (v.vmStart, v.top)) ∧
      ∀ v ∈ (mprotectLoop stop p f addr l).1, VmaOk b v := by
  induction l generalizing addr with
  | nil => simp [mprotectLoop]
  | cons v l ih =>
    have hv := hars v mem_cons_self
    have hl : ∀ w ∈ l, VmaOk b w := fun w hw => hars w (mem_cons_of_mem _ hw)
    have hre : (v.reprotect p f).vmStart = v.vmStart ∧ (v.reprotect p f).top = v.top := ⟨rfl, rfl⟩
    rw [mprotectLoop]
    split_ifs
    · refine ⟨by simp [(ih hl).1], fun w hw => ?_⟩
      obtain rfl | hw := mem_cons.1 hw
      · exact hv
      · exact (ih hl).2 w hw
    · exact ⟨rfl, hars⟩
    · refine ⟨by simp [hre], fun w hw => ?_⟩
      obtain rfl | hw := mem_cons.1 hw
      · exact hv.reprotect p f
      · exact hl w hw
    · refine ⟨by simp [(ih hl).1, hre], fun w hw => ?_⟩
      obtain rfl | hw := mem_cons.1 hw
      · exact hv.reprotect p f
      · exact (ih hl).2 w hw

/-- `do_mprotect` keeps the invariant. -/
lemma doMprotect_inv (h : mm.Inv) (addr length prot : Nat) : (doMprotect mm addr length prot).1.Inv := by
  unfold doMprotect
  simp only
  split_ifs
  · exact h
  · exact h
  · exact h
  split
  · exact h
  · split
    · exact h
    · obtain ⟨heq, hars⟩ := mprotectLoop_ok (fun v hv => h.list.areas v hv)
      exact ⟨h.list.of_map_eq heq hars, h.base, h.brk_pos, h.brk_le⟩

/-- Moving the end of the heap area inside its room. -/
lemma setHeapEnd_ok (hlo : mm.startBrk ≤ requested)
    (hhi : requested ≤ HEAP_LIMIT) (hars : ∀ v ∈ l, VmaOk mm.startBrk v) :
    (setHeapEnd mm requested l).map (fun v => (v.vmStart, v.top)) = l.map (fun v => (v.vmStart, v.top)) ∧
      ∀ v ∈ setHeapEnd mm requested l, VmaOk mm.startBrk v := by
  induction l with
  | nil => simp [setHeapEnd]
  | cons v l ih =>
    have hl : ∀ w ∈ l, VmaOk mm.startBrk w := fun w hw =>
      hars w (mem_cons_of_mem _ hw)
    rw [setHeapEnd]
    split_ifs with hhp
    · simp only [isHeap, Bool.and_eq_true, decide_eq_true_eq] at hhp
      have htop : ({ v with vmEnd := requested } : Vma).top = HEAP_LIMIT := top_of_heap hhp.1
      refine ⟨by simp [htop, top_of_heap hhp.1], fun w hw => ?_⟩
      obtain rfl | hw := mem_cons.1 hw
      · have hlim : HEAP_LIMIT ≤ ADDR_LIMIT := by decide
        exact ⟨hhp.2.le.trans hlo, hhi.trans htop.ge, hhi.trans hlim, fun _ => hhp.2⟩
      · exact hl w hw
    · refine ⟨by simp [(ih hl).1], fun w hw => ?_⟩
      obtain rfl | hw := mem_cons.1 hw
      · exact hars w mem_cons_self
      · exact (ih hl).2 w hw

/-- A plan that changes the break was made for a break inside the heap's room. -/
lemma brkPlan_bounds (h : ∀ rc, brkPlan mm requested ≠ .reply rc) :
    mm.startBrk ≤ requested ∧ requested ≤ HEAP_LIMIT := by
  unfold brkPlan at h
  split_ifs at h with h1 h2 h3 h4 h5
  · exact absurd rfl (h _)
  · exact absurd rfl (h _)
  · exact absurd rfl (h _)
  · exact absurd rfl (h _)
  · exact absurd rfl (h _)
  all_goals exact ⟨not_lt.1 h3, not_lt.1 h4⟩

/-- `mm_set_brk` keeps the invariant. -/
lemma mmSetBrk_inv (h : mm.Inv) (requested : Nat) (ok : Bool) : (mmSetBrk mm requested ok).1.Inv := by
  have hcommit : (∀ rc, brkPlan mm requested ≠ .reply rc) → (commitBrk mm requested).Inv := by
    intro hpl
    obtain ⟨hlo, hhi⟩ := brkPlan_bounds hpl
    obtain ⟨heq, hars⟩ := setHeapEnd_ok hlo hhi h.list.areas
    exact ⟨h.list.of_map_eq heq hars, h.base, h.brk_pos, h.brk_le⟩
  unfold mmSetBrk
  split
  · exact h
  · next hp => exact hcommit (by simp [hp])
  all_goals
    next hp =>
      split_ifs
      · exact hcommit (by simp [hp])
      · exact h

/-! ## Runs -/

/-- A call that edits the area list, with arbitrary 64-bit arguments and the outcomes of its
allocations. -/
inductive VmaCall
  | mmap (addr length prot flags fd offset : BitVec 64) (env : MmapEnv)
  | munmap (addr length : BitVec 64) (kmalloc : Nat → Bool)
  | mprotect (addr length prot : BitVec 64)
  | brk (requested : BitVec 64) (ok : Bool)

/-- The address space after a call. -/
def VmaCall.next (mm : Mm) : VmaCall → Mm
  | .mmap addr length prot flags fd offset env =>
    (doMmap mm addr.toNat length.toNat prot.toNat flags.toNat fd.toNat offset.toNat env).1
  | .munmap addr length kmalloc => (doMunmap mm addr.toNat length.toNat kmalloc).1
  | .mprotect addr length prot => (doMprotect mm addr.toNat length.toNat prot.toNat).1
  | .brk requested ok => (mmSetBrk mm requested.toNat ok).1

/-- The condition on a call, in terms of its arguments and the state before it. -/
def VmaCall.NoWrap (mm : Mm) : VmaCall → Prop
  | .mmap addr length _ flags fd offset env =>
    mapFixed flags.toNat = false →
    mmapCheck mm addr.toNat length.toNat flags.toNat fd.toNat offset.toNat env = none →
    AutoOk mm length.toNat
  | .munmap addr length _ => MunmapOk mm addr.toNat length.toNat
  | .mprotect _ _ _ => True
  | .brk _ _ => True

/-- A sorted list of proper, pairwise disjoint areas below the address limit. -/
def WellFormed (l : List Vma) : Prop :=
  l.Pairwise (fun v w => v.vmStart ≤ w.vmStart) ∧
  (∀ v ∈ l, v.vmStart ≤ v.vmEnd ∧ v.vmEnd ≤ ADDR_LIMIT) ∧
  l.Pairwise fun v w =>
    ∀ x, ¬ ((v.vmStart ≤ x ∧ x < v.vmEnd) ∧ (w.vmStart ≤ x ∧ x < w.vmEnd))

lemma ListOk.wellFormed (h : ListOk b l) : WellFormed l := by
  refine ⟨h.chained.sorted, fun v hv => ⟨(h.areas v hv).proper, (h.areas v hv).bounded⟩, ?_⟩
  refine h.chained.disjoint.imp_of_mem ?_
  rintro v w hv hw hdis x ⟨⟨h1, h2⟩, h3, h4⟩
  exact hdis x ⟨⟨h1, h2.trans_le (h.areas v hv).within⟩, h3, h4.trans_le (h.areas w hw).within⟩

/-- What `elf_layout_validate` guarantees of the end of a loaded image: it lies above the lowest
user address and at or below the heap's upper bound. -/
def ElfEnd (elfEnd : Nat) : Prop := USER_CODE_ADDR < elfEnd ∧ elfEnd ≤ HEAP_LIMIT

/-- A fresh address space. -/
def freshMm (elfEnd : Nat) : Mm := (mmInitUserHeap mmAlloc elfEnd true).1

lemma freshMm_inv {elfEnd : Nat} (h : ElfEnd elfEnd) : (freshMm elfEnd).Inv := by
  obtain ⟨hlo, hle⟩ := h
  have hhp : HEAP_LIMIT = 0x203ff000 := rfl
  have hlim : HEAP_LIMIT ≤ ADDR_LIMIT := by decide
  have hhi : pageAlign elfEnd ≤ HEAP_LIMIT := by
    unfold pageAlign u64
    omega
  refine ⟨ListOk.singleton ⟨le_rfl, hhi, hhi.trans hlim, fun _ => rfl⟩, rfl, ?_, hhi⟩
  change 0 < pageAlign elfEnd
  unfold pageAlign u64
  omega

/-- **Step lemma.** A call that meets the condition keeps the invariant. -/
lemma VmaCall.next_inv (h : mm.Inv) {c : VmaCall} (hok : c.NoWrap mm) : (c.next mm).Inv := by
  cases c with
  | mmap addr length prot flags fd offset env => exact doMmap_inv h hok
  | munmap addr length kmalloc => exact doMunmapLocked_inv h hok
  | mprotect addr length prot => exact doMprotect_inv h _ _ _
  | brk requested ok => exact mmSetBrk_inv h _ _

/-- **Run lemma.** -/
lemma inv_of_run {elfEnd : Nat} (helf : ElfEnd elfEnd) {cs : List VmaCall}
    (hrun : Run (guarded (ofFun VmaCall.next) fun m c => c.NoWrap m) (freshMm elfEnd) cs mm) : mm.Inv := by
  refine hrun.invariant (I := Mm.Inv) (fun s c t hs hst => ?_) (freshMm_inv helf)
  rw [← hst.2]
  exact VmaCall.next_inv hs hst.1

/-- **The area list stays well formed** in every run from a fresh address space in which no address
computation of `mmap` or `munmap` wraps into an area. -/
theorem vmaList_wellFormed {elfEnd : Nat} (helf : ElfEnd elfEnd) {cs : List VmaCall} {mm : Mm}
    (hrun : Run (guarded (ofFun VmaCall.next) fun m c => c.NoWrap m) (freshMm elfEnd) cs mm) :
    WellFormed mm.vmaList :=
  (inv_of_run helf hrun).list.wellFormed

/-- An `mmap` environment without files in which every allocation succeeds. -/
def anonEnv : MmapEnv := ⟨none, true, fun _ => true⟩

/-- A private anonymous read-write mapping at an address of the kernel's choice. -/
def mmapAnon (length : BitVec 64) : VmaCall := .mmap 0 length 3 0x22 (-1) 0 anonEnv

/-- A mapping, a hole in its middle, and a larger break. -/
def exampleCalls : List VmaCall :=
  [mmapAnon 0x10000, .munmap 0x40004000 0x4000 (fun _ => true), .brk 0x405000 true]

/-- A fresh address space after these calls. -/
def exampleMm : Mm := exampleCalls.foldl VmaCall.next (freshMm 0x401234)

lemma elfEnd_example : ElfEnd 0x401234 := by
  unfold ElfEnd
  decide

lemma exampleCalls_run :
    Run (guarded (ofFun VmaCall.next) fun m c => c.NoWrap m) (freshMm 0x401234) exampleCalls exampleMm := by
  refine .cons ⟨?_, rfl⟩ (.cons ⟨?_, rfl⟩ (.cons ⟨trivial, rfl⟩ (.nil _)))
  · intro _ _
    unfold AutoOk
    decide
  · exact .inl (by decide)

/-- The theorem for these calls, which leave three areas. -/
theorem vmaList_wellFormed_calls :
    ∃ mm, Run (guarded (ofFun VmaCall.next) fun m c => c.NoWrap m) (freshMm 0x401234)
        exampleCalls mm ∧ mm.vmaList.map (fun v => (v.vmStart, v.vmEnd))
        = [(0x402000, 0x405000), (0x40000000, 0x40004000), (0x40008000, 0x40010000)] ∧
      WellFormed mm.vmaList :=
  ⟨exampleMm, exampleCalls_run, by decide, vmaList_wellFormed elfEnd_example exampleCalls_run⟩

/-- A mapping, and a `munmap` inside it whose length wraps to a lower address inside it. -/
def wrappingCalls : List VmaCall :=
  [mmapAnon 0x10000, .munmap 0x40008000 (-0x4000) (fun _ => true)]

/-- Two calls that wrap. An `mmap` of almost the whole address space gets an area that ends below its
beginning; a `munmap` whose length wraps leaves two overlapping areas. -/
theorem vma_wraps : (∃ mm, Run (ofFun VmaCall.next) (freshMm 0x401234) [mmapAnon (-0x40000000)] mm ∧
      mm.vmaList.map (fun v => (v.vmStart, v.vmEnd)) = [(0x402000, 0x402000), (0x40000000, 0)] ∧
      ¬ WellFormed mm.vmaList) ∧ (∃ mm, Run (ofFun VmaCall.next) (freshMm 0x401234) wrappingCalls mm ∧
      mm.vmaList.map (fun v => (v.vmStart, v.vmEnd))
        = [(0x402000, 0x402000), (0x40000000, 0x40008000), (0x40004000, 0x40010000)] ∧
      ¬ WellFormed mm.vmaList) := by
  refine ⟨⟨_, Run.foldl _ _ _, by decide, ?_⟩, ⟨_, Run.foldl _ _ _, by decide, ?_⟩⟩
  · rintro ⟨-, hproper, -⟩
    revert hproper
    decide
  · rintro ⟨-, -, hapart⟩
    have hx := pairwise_iff_getElem.1 hapart 1 2 (by decide) (by decide) (by decide) 0x40004000
    revert hx
    decide

/-! ## Lookup -/

lemma ListOk.vmaFind_iff (h : ListOk b l) :
    vmaFind addr l = some v ↔ v ∈ l ∧ v.vmStart ≤ addr ∧ addr < v.vmEnd := by
  induction l with
  | nil => simp [vmaFind]
  | cons w l ih =>
    obtain ⟨hle, hafter, hc⟩ := Chained.cons_iff.1 h.chained
    have hwithin := (h.areas w mem_cons_self).within
    specialize ih ⟨hc, fun u hu => h.areas u (mem_cons_of_mem w hu)⟩
    -- the areas behind `w` begin where its room ends
    have hl : v ∈ l → w.top ≤ v.vmStart := hafter v
    rw [vmaFind, mem_cons]
    split_ifs <;> grind

/-- **`vma_find` is exact**: in every such run it returns an area if and only if the area is in the list and
holds the address. The walk does not stop too early, and no two areas compete. -/
theorem vmaFind_exact {elfEnd : Nat} (helf : ElfEnd elfEnd) {cs : List VmaCall}
    (hrun : Run (guarded (ofFun VmaCall.next) fun m c => c.NoWrap m) (freshMm elfEnd) cs mm) :
    vmaFind addr mm.vmaList = some v ↔ v ∈ mm.vmaList ∧ v.vmStart ≤ addr ∧ addr < v.vmEnd :=
  (inv_of_run helf hrun).list.vmaFind_iff

/-- The theorem for these calls: an address of the last area, and one in the hole before it. -/
theorem vmaFind_exact_calls : (∃ v, vmaFind 0x4000ffff exampleMm.vmaList = some v ∧ v.vmStart = 0x40008000) ∧
    ∀ v, vmaFind 0x40005000 exampleMm.vmaList ≠ some v := by
  refine ⟨⟨exampleMm.vmaList[2], (vmaFind_exact elfEnd_example exampleCalls_run).2 ⟨?_, by decide, by decide⟩, by decide⟩,
    fun v hv => ?_⟩
  · exact getElem_mem _
  · obtain ⟨hmem, hv⟩ := (vmaFind_exact elfEnd_example exampleCalls_run).1 hv
    revert v
    decide

end OS01.Memory
