import Mathlib.Data.List.Pairwise
import OS01.Memory.VmaList

/-!
# What `munmap` leaves covered

`do_munmap` removes, truncates and splits the areas that its range meets. Afterwards no address of the range should be
covered, and every other address should be covered as before: by an area with the same flags, page protection and file,
at the same offset in that file.

The areas that are left are parts of the old ones (`mem_munmapLoop`), so flags, protection and file are right. The
offset is computed from the start of the area and `vm_pgoff` together, and an area that loses its front gets a new
start but keeps `vm_pgoff`: what is left of a file mapping above the range moves to a lower offset. And a length that
wraps is taken for success, although nothing is unmapped. `munmap_exact_iff` says when the call does what it should.
-/

namespace OS01.Memory

open List Lib

/-! ## Coverage -/

/-- An address is in an area. -/
def Vma.Has (v : Vma) (va : Nat) : Prop := v.vmStart ≤ va ∧ va < v.vmEnd

/-- The offset that `do_page_fault` reads from: `(cr2 - vm_start) + (vm_pgoff << PAGE_4K_SHIFT)`. -/
def Vma.fileOff (v : Vma) (va : Nat) : Nat := u64 (va - v.vmStart + v.vmPgoff * 4096)

/-- What an area gives to an address; an area without a file has no offset. -/
structure Backing where
  vmFlags : VmFlags
  vmPageProt : PageProt
  file : Option (Nat × Nat)
deriving DecidableEq, Repr

/-- What an area gives to an address. -/
def Vma.backing (v : Vma) (va : Nat) : Backing :=
  ⟨v.vmFlags, v.vmPageProt, v.vmFile.map fun f => (f, v.fileOff va)⟩

/-- An address is covered in a certain way. -/
def Covered (l : List Vma) (va : Nat) (b : Backing) : Prop := ∃ v ∈ l, v.Has va ∧ v.backing va = b

/-- Exactly the addresses of a range are no longer covered, and the others are covered as before. -/
def UnmapsExactly (l l' : List Vma) (start stop : Nat) : Prop :=
  ∀ va, (start ≤ va ∧ va < stop → ∀ b, ¬ Covered l' va b) ∧
    (¬ (start ≤ va ∧ va < stop) → ∀ b, Covered l' va b ↔ Covered l va b)

/-- When `do_munmap` does that. Where the end of the range wraps, only if there is nothing at or above its start;
otherwise if no file mapping that meets the range goes on above it. -/
def MunmapExact (l : List Vma) (start stop : Nat) : Prop :=
  if stop < 2 ^ 64 then
    ∀ v ∈ l, v.vmFile.isSome = true → start < v.vmEnd → v.vmStart < stop → v.vmEnd ≤ stop
  else ∀ v ∈ l, v.vmStart < v.vmEnd → v.vmEnd ≤ start

/-! ## The areas that are left -/

/-- What the loop leaves of an area. -/
def carve (addr stop : Nat) (v : Vma) : List Vma :=
  if v.vmEnd ≤ addr ∨ stop ≤ v.vmStart then [v]
  else
    (if v.vmStart < addr then [{ v with vmEnd := addr }] else []) ++
      if stop < v.vmEnd then [{ v with vmStart := stop }] else []

variable {addr stop fuel : Nat} {todo : List Vma}

/-- Where `insertZip` puts an area. -/
lemma insertZip_mem (done todo : List Vma) (right : Vma) :
    (∀ w, w ∈ (insertZip done todo right).1 ↔ w = right ∨ w ∈ done) ∧ (insertZip done todo right).2 = todo ∨
      insertZip done todo right = (done, vmaInsert todo right) := by
  unfold insertZip
  split_ifs with hany
  · exact .inl ⟨fun w => mem_insertByLo, rfl⟩
  cases todo with
  | nil => exact .inl ⟨fun w => by simp [or_comm], rfl⟩
  | cons v vs =>
    dsimp only
    split_ifs with hlt
    · exact .inl ⟨fun w => by simp [or_comm], rfl⟩
    · exact .inr (by simp [vmaInsert, insertByLo, hlt])

/-- Areas in the order of their starts. -/
def SortedAreas (l : List Vma) : Prop := l.Pairwise fun v w => v.vmStart ≤ w.vmStart

/-- The areas that the loop still passes: those that begin before `stop`, or end before `addr`. -/
def ahead (addr stop : Nat) (t : Vma) : Bool := decide (t.vmStart < stop) || decide (t.vmEnd ≤ addr)

/-- **Loop lemma.** With memory for the right halves, the loop leaves the parts of the areas. -/
lemma mem_munmapLoop (hf : todo.countP (ahead addr stop) < fuel) (hsrt : SortedAreas todo) (done : List Vma)
    (w : Vma) :
    w ∈ (munmapLoop (fun _ => true) addr stop fuel done todo).1 ↔ w ∈ done ∨ ∃ v ∈ todo, w ∈ carve addr stop v := by
  induction fuel generalizing done todo with
  | zero => omega
  | succ fuel ih =>
    cases todo with
    | nil => simp [munmapLoop]
    | cons v todo =>
      obtain ⟨hhd, htl⟩ := pairwise_cons.1 hsrt
      by_cases hs : v.vmEnd ≤ addr
      · rw [countP_cons_of_pos (by simp [ahead, hs])] at hf
        rw [munmapLoop, if_pos hs, ih (by omega) htl]
        simp [carve, hs, or_assoc]
      by_cases hbrk : stop ≤ v.vmStart
      · rw [munmapLoop, if_neg hs, if_pos hbrk]
        -- the list is sorted, so no later area meets the range either
        have hr : ∀ t ∈ v :: todo, carve addr stop t = [t] := by
          intro t ht
          have hle : stop ≤ t.vmStart := by
            rcases mem_cons.1 ht with rfl | ht
            · exact hbrk
            · exact hbrk.trans (hhd t ht)
          rw [carve, if_pos (.inr hle)]
        rw [mem_append]
        refine or_congr_right ⟨fun hw => ⟨w, hw, by simp [hr w hw]⟩, ?_⟩
        rintro ⟨t, ht, hw⟩
        rw [hr t ht, mem_singleton] at hw
        exact hw ▸ ht
      rw [countP_cons_of_pos (by simp [ahead]; omega)] at hf
      have hcnt : todo.countP (ahead addr stop) < fuel := by omega
      have hmts : ¬ (v.vmEnd ≤ addr ∨ stop ≤ v.vmStart) := by tauto
      rw [munmapLoop, if_neg hs, if_neg hbrk, cutVma_eq]
      by_cases hlo : v.vmStart < addr <;> by_cases hhi : stop < v.vmEnd
      · simp only [if_pos hlo, if_pos hhi, if_true]
        have hcarve : carve addr stop v = [{ v with vmEnd := addr }, { v with vmStart := stop }] := by
          simp [carve, hmts, hlo, hhi]
        rcases insertZip_mem (done ++ [{ v with vmEnd := addr }]) todo { v with vmStart := stop } with
          ⟨hd, htd⟩ | heq
        · rw [htd, ih hcnt htl, hd]
          simp [hcarve]
          tauto
        -- a right half among the areas to come is not touched again
        have hrt : carve addr stop { v with vmStart := stop } = [{ v with vmStart := stop }] := by
          simp [carve]
        have hnot : ahead addr stop { v with vmStart := stop } = false := by
          simp [ahead]
          omega
        have hcnt' : (vmaInsert todo { v with vmStart := stop }).countP (ahead addr stop) < fuel := by
          rw [vmaInsert, (insertByLo_perm _ todo).countP_eq, countP_cons_of_neg (by simp [hnot])]
          exact hcnt
        rw [heq]
        rw [ih hcnt' (sorted_insertByLo htl)]
        simp [vmaInsert, hcarve, hrt]
        tauto
      · simp only [if_pos hlo, if_neg hhi]
        rw [ih hcnt htl]
        simp [carve, hmts, hlo, hhi, or_assoc]
      · simp only [if_neg hlo, if_pos hhi]
        rw [ih hcnt htl]
        simp [carve, hmts, hlo, hhi, or_assoc]
      · simp only [if_neg hlo, if_neg hhi]
        rw [ih hcnt htl]
        simp [carve, hmts, hlo, hhi]

variable {va : Nat} {v w : Vma} {l l' : List Vma}

/-- In a proper range, what is left of an area are its addresses outside the range. -/
lemma has_carve (hrng : addr < stop) :
    (∃ w ∈ carve addr stop v, w.Has va) ↔ v.Has va ∧ ¬ (addr ≤ va ∧ va < stop) := by
  unfold carve Vma.Has
  split_ifs with hout hlo hhi hhi <;> simp <;> omega

/-- A file mapping that meets a range and goes on above it: what is left there has a new start. -/
def Vma.Moved (addr stop : Nat) (v : Vma) : Prop :=
  v.vmFile.isSome = true ∧ (addr < v.vmEnd ∧ v.vmStart < stop) ∧ stop < v.vmEnd

/-- Other areas leave parts that give the same. -/
lemma backing_of_not_moved (hv : ¬ v.Moved addr stop) (hw : w ∈ carve addr stop v) : w.backing va = v.backing va := by
  unfold carve at hw
  split_ifs at hw with hout hlo hhi hhi
  · rw [mem_singleton.1 hw]
  all_goals
    have hf : stop < v.vmEnd → v.vmFile = none := by
      intro hhi
      rw [← Option.not_isSome_iff_eq_none]
      exact fun hs => hv ⟨hs, by omega, hhi⟩
    simp only [cons_append, nil_append, mem_cons, not_mem_nil, or_false] at hw
  · obtain rfl | rfl := hw
    · rfl
    · simp [Vma.backing, hf hhi]
  · rw [hw]
    rfl
  · rw [hw]
    simp [Vma.backing, hf hhi]

/-- A mapping that moved does not give what it gave. -/
lemma backing_of_moved (hrng : addr < stop) (hv : v.Moved addr stop) (hbd : v.vmEnd ≤ ADDR_LIMIT)
    (hw : w ∈ carve addr stop v) (hhas : w.Has stop) : w.backing stop ≠ v.backing stop := by
  obtain ⟨hfl, hmts, hhi⟩ := hv
  obtain ⟨f, hf⟩ := Option.isSome_iff_exists.1 hfl
  have hmvd : w = { v with vmStart := stop } := by
    unfold carve at hw
    rw [if_neg (by omega), if_pos hhi] at hw
    obtain hw | hw := mem_append.1 hw
    · split_ifs at hw
      · rw [mem_singleton.1 hw] at hhas
        obtain ⟨-, hlt⟩ := hhas
        dsimp only at hlt
        omega
      · cases hw
    · exact mem_singleton.1 hw
  subst hmvd
  intro heq
  have hoff : u64 (stop - stop + v.vmPgoff * 4096) = u64 (stop - v.vmStart + v.vmPgoff * 4096) := by
    simpa [Vma.backing, Vma.fileOff, hf] using heq
  have hlim : ADDR_LIMIT < 2 ^ 64 := by decide
  unfold u64 at hoff
  omega

/-- An address is in one area at most. -/
lemma WellFormed.eq_of_has (h : WellFormed l) (hv : v ∈ l) (hw : w ∈ l) (hva : v.Has va) (hwa : w.Has va) : v = w := by
  by_contra hne
  have : Std.Symm fun v w : Vma => ∀ x, ¬ ((v.vmStart ≤ x ∧ x < v.vmEnd) ∧ (w.vmStart ≤ x ∧ x < w.vmEnd)) :=
    ⟨fun a b hab x hx => hab x ⟨hx.2, hx.1⟩⟩
  exact h.2.2.forall hv hw hne va ⟨hva, hwa⟩

/-- With a range that does not wrap, all is right unless a file mapping moves. -/
lemma carved_iff (h : WellFormed l) (hrng : addr < stop)
    (hl' : ∀ w, w ∈ l' ↔ ∃ v ∈ l, w ∈ carve addr stop v) :
    UnmapsExactly l l' addr stop ↔ ∀ v ∈ l, ¬ v.Moved addr stop := by
  constructor
  · intro hex v hv hmvd
    have hold : Covered l stop (v.backing stop) := ⟨v, hv, ⟨hmvd.2.1.2.le, hmvd.2.2⟩, rfl⟩
    obtain ⟨w, hw, hhas, heq⟩ := ((hex stop).2 (by omega) _).2 hold
    obtain ⟨x, hx, hwx⟩ := (hl' w).1 hw
    have hxv : x = v := h.eq_of_has hx hv ((has_carve hrng).1 ⟨w, hwx, hhas⟩).1 ⟨hmvd.2.1.2.le, hmvd.2.2⟩
    subst hxv
    exact backing_of_moved hrng hmvd (h.2.1 x hx).2 hwx hhas heq
  intro hn va
  constructor
  · rintro hin b ⟨w, hw, hhas, -⟩
    obtain ⟨v, -, hwv⟩ := (hl' w).1 hw
    exact ((has_carve hrng).1 ⟨w, hwv, hhas⟩).2 hin
  intro hout b
  constructor
  · rintro ⟨w, hw, hhas, rfl⟩
    obtain ⟨v, hv, hwv⟩ := (hl' w).1 hw
    exact ⟨v, hv, ((has_carve hrng).1 ⟨w, hwv, hhas⟩).1, (backing_of_not_moved (hn v hv) hwv).symm⟩
  · rintro ⟨v, hv, hhas, rfl⟩
    obtain ⟨w, hwv, hwh⟩ := (has_carve hrng).2 ⟨hhas, hout⟩
    exact ⟨w, (hl' w).2 ⟨v, hv, hwv⟩, hwh, backing_of_not_moved (hn v hv) hwv⟩

/-- With a range that wraps, nothing above its start goes away. -/
lemma wrapped_iff (h : WellFormed l) {last : Nat} (hwr : stop < addr) (hl : 2 ^ 64 ≤ last)
    (hl' : ∀ w, w ∈ l' ↔ ∃ v ∈ l, w ∈ carve addr stop v) :
    UnmapsExactly l l' addr last ↔ ∀ v ∈ l, v.vmStart < v.vmEnd → v.vmEnd ≤ addr := by
  have hlim : ADDR_LIMIT < 2 ^ 64 := by decide
  constructor
  · intro hex v hv hpos
    by_contra hend
    have hbd := (h.2.1 v hv).2
    -- the last address of the area is still covered, by the area itself or by the right half of a split
    obtain ⟨w, hw, hhas⟩ : ∃ w ∈ carve addr stop v, w.Has (v.vmEnd - 1) := by
      unfold carve Vma.Has
      split_ifs <;> simp <;> omega
    exact (hex (v.vmEnd - 1)).1 (by omega) _ ⟨w, (hl' w).2 ⟨v, hv, hw⟩, hhas, rfl⟩
  intro hall
  have hs : ∀ v ∈ l, carve addr stop v = [v] := by
    intro v hv
    have := hall v hv
    rw [carve, if_pos (by omega)]
  have hmem : ∀ w, w ∈ l' ↔ w ∈ l := by
    intro w
    rw [hl' w]
    constructor
    · rintro ⟨v, hv, hw⟩
      rw [hs v hv, mem_singleton] at hw
      exact hw ▸ hv
    · intro hw
      exact ⟨w, hw, by simp [hs w hw]⟩
  have hcovered : ∀ va b, Covered l' va b ↔ Covered l va b := by
    intro va b
    unfold Covered
    simp [hmem]
  refine fun va => ⟨?_, fun _ => hcovered va⟩
  intro hin b hcov
  obtain ⟨v, hv, hhas, -⟩ := (hcovered va b).1 hcov
  have := hall v hv
  unfold Vma.Has at hhas
  omega

/-! ## The call -/

lemma pageAlign_lt (n : Nat) : pageAlign n < 2 ^ 64 := by
  unfold pageAlign u64
  omega

/-- **`do_munmap`.** On a sorted list of disjoint areas and with memory for its allocations, a call that succeeds
uncovers its range, and nothing else changes, exactly if no file mapping that meets the range goes on above it; where
the end of the range wraps, exactly if there is nothing to unmap. -/
theorem munmap_exact_iff {mm mm' : Mm} {addr length : Nat} {ranges : List (Nat × Nat)} (hlist : WellFormed mm.vmaList)
    (hcall : doMunmap mm addr length (fun _ => true) = (mm', ranges, 0)) :
    UnmapsExactly mm.vmaList mm'.vmaList (pageAlign addr) (pageAlign addr + pageAlign length) ↔
      MunmapExact mm.vmaList (pageAlign addr) (pageAlign addr + pageAlign length) := by
  have hlen := pageAlign_lt length
  simp only [doMunmap, doMunmapLocked] at hcall
  split_ifs at hcall with hz hp
  · simp [EINVAL] at hcall
  · simp [EINVAL] at hcall
  obtain ⟨rfl, -⟩ := Prod.mk.inj hcall
  have hcnt : mm.vmaList.countP (ahead (pageAlign addr) (u64 (pageAlign addr + pageAlign length))) <
      mm.vmaList.length + 1 := Nat.lt_succ_of_le countP_le_length
  have hmem := fun w => mem_munmapLoop hcnt hlist.1 [] w
  simp only [not_mem_nil, false_or] at hmem
  unfold MunmapExact
  split_ifs with hw
  · rw [u64_of_lt hw] at hmem
    rw [u64_of_lt hw, carved_iff hlist (by omega) hmem]
    refine forall₂_congr fun v _ => ?_
    constructor
    · intro h hf hlo hhi
      exact not_lt.1 fun hgt => h ⟨hf, ⟨hlo, hhi⟩, hgt⟩
    · rintro h ⟨hf, ⟨hlo, hhi⟩, hgt⟩
      exact absurd (h hf hlo hhi) (not_le.2 hgt)
  · exact wrapped_iff hlist (by unfold u64; omega) (by omega) hmem

/-- Three pages of a file, and an anonymous area above. -/
def mappedFile : Mm :=
  { mmAlloc with
    vmaList := [⟨0x40000000, 0x40003000, { read := true, shared := true }, .ro, 0, some 7⟩,
      ⟨0x40003000, 0x40005000, { read := true, write := true, anon := true }, .rw, 0, none⟩] }

lemma mappedFile_wellFormed : WellFormed mappedFile.vmaList := by
  refine ⟨by simp [mappedFile], by simp [mappedFile, ADDR_LIMIT], ?_⟩
  simp [mappedFile]
  omega

/-- The last page of the file and the first one above it are unmapped. -/
theorem munmap_exact_end :
    UnmapsExactly mappedFile.vmaList (doMunmap mappedFile 0x40002000 0x2000 fun _ => true).1.vmaList
      (pageAlign 0x40002000) (pageAlign 0x40002000 + pageAlign 0x2000) := by
  have hc : doMunmap mappedFile 0x40002000 0x2000 (fun _ => true) =
      ((doMunmap mappedFile 0x40002000 0x2000 fun _ => true).1,
        (doMunmap mappedFile 0x40002000 0x2000 fun _ => true).2.1, 0) := by
    decide
  refine (munmap_exact_iff mappedFile_wellFormed hc).2 ?_
  unfold MunmapExact
  decide

/-- The first page of the file is unmapped: the second one now reads the first page of the file. -/
theorem munmap_front_moves :
    WellFormed mappedFile.vmaList ∧ (doMunmap mappedFile 0x40000000 0x1000 fun _ => true).2.2 = 0 ∧
      ¬ UnmapsExactly mappedFile.vmaList (doMunmap mappedFile 0x40000000 0x1000 fun _ => true).1.vmaList
        (pageAlign 0x40000000) (pageAlign 0x40000000 + pageAlign 0x1000) := by
  refine ⟨mappedFile_wellFormed, by decide, fun hex => ?_⟩
  have hold : Covered mappedFile.vmaList 0x40001000 ⟨{ read := true, shared := true }, .ro, some (7, 0x1000)⟩ := by
    refine ⟨_, mem_cons_self, ?_⟩
    unfold Vma.Has
    decide
  obtain ⟨v, hv, -, hb⟩ := ((hex 0x40001000).2 (by decide) _).2 hold
  revert v
  decide

end OS01.Memory
