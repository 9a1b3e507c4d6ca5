import Mathlib.Data.List.Basic
import OS01.Abi
import OS01.Lib.Bits

/-!
# The layout of an executable

`elf_layout_validate` of `kernel/fs/elf_layout.c`, which decides from the headers of a file whether its
segments can be loaded, and where the heap begins. What it is meant to accept is stated by `Loadable` and the
bound on the program header table, in exact arithmetic.

The loop over the headers is described by two facts about its first `n` rounds: what it has checked
(`Segments`) and what it has collected (`Sums`).
-/

namespace OS01.Fs

open List Nat Lib

/-! ## Headers -/

/-- The fields of `elf64_ehdr_t` that are read. -/
structure Ehdr where
  eIdent : Nat → BitVec 8
  eType : BitVec 16
  eMachine : BitVec 16
  eEntry : BitVec 64
  ePhoff : BitVec 64
  ePhentsize : BitVec 16
  ePhnum : BitVec 16

/-- The fields of `elf64_phdr_t` that are read. -/
structure Phdr where
  pType : BitVec 32
  pFlags : BitVec 32
  (pOffset pVaddr pFilesz pMemsz : BitVec 64)

/-- `sizeof(elf64_phdr_t)`. -/
def SIZEOF_PHDR : Nat := 56

def ELFMAG : List (BitVec 8) := [0x7f, 0x45, 0x4c, 0x46]
def EI_CLASS : Nat := 4
def EI_DATA : Nat := 5
def ELFCLASS64 : BitVec 8 := 2
def ELFDATA2LSB : BitVec 8 := 1
def EM_X86_64 : BitVec 16 := 0x3e
def ET_EXEC : BitVec 16 := 2
def PT_LOAD : BitVec 32 := 1
def PF_X : BitVec 32 := 1

def MAX_LOAD_SEGMENTS : Nat := 32

/-- `elf_layout_t`. -/
structure ElfLayout where
  elfEnd : BitVec 64
  heapBase : BitVec 64
  deriving DecidableEq

/-! ## The validator -/

/-- `align_up_4k`. -/
def alignUp4k (v : BitVec 64) : BitVec 64 := (v + 0xFFF) &&& ~~~0xFFF

/-- `intervals_intersect`. -/
def intervalsIntersect (aLo aHi bLo bHi : BitVec 64) : Bool := aLo < bHi && bLo < aHi

/-- `add_overflows`: the sum, unless it wraps. -/
@[irreducible] def addOverflows (a b : BitVec 64) : Option (BitVec 64) :=
  if BitVec.allOnes 64 - b < a then none else some (a + b)

variable (ehdr : Ehdr)

/-- The identity fields. -/
def Identified : Prop :=
  (range 4).map ehdr.eIdent = ELFMAG ∧ ehdr.eIdent EI_CLASS = ELFCLASS64 ∧
    ehdr.eIdent EI_DATA = ELFDATA2LSB ∧ ehdr.eMachine = EM_X86_64 ∧ ehdr.eType = ET_EXEC

instance (ehdr : Ehdr) : Decidable (Identified ehdr) := inferInstanceAs (Decidable (_ ∧ _ ∧ _ ∧ _ ∧ _))

/-- The check of the part of a segment that is in the file. -/
def checkFile (ph : Phdr) (fileSize : BitVec 64) : Bool :=
  if 0 < ph.pFilesz then (addOverflows ph.pOffset ph.pFilesz).any fun fileEnd => fileEnd ≤ fileSize else true

/-- The checks of one segment by itself; the result is its end. -/
def checkLoad (ph : Phdr) (fileSize : BitVec 64) : Option (BitVec 64) :=
  if ph.pMemsz = 0 then none
  else if ph.pMemsz < ph.pFilesz then none
  else if ph.pVaddr < .ofNat 64 USER_CODE_ADDR then none
  else
    match addOverflows ph.pVaddr ph.pMemsz with
    | none => none
    | some vaddrEnd =>
      if BitVec.ofNat 64 HEAP_LIMIT < vaddrEnd then none
      else if !checkFile ph fileSize then none
      else some vaddrEnd

/-- What the loop has collected. -/
structure Scan where
  foundLoad : Bool
  entryInExec : Bool
  elfEnd : BitVec 64
  loadCount : Nat

/-- What a segment adds to it. -/
def Scan.collect (s : Scan) (ph : Phdr) (vaddrEnd : BitVec 64) : Scan where
  foundLoad := true
  entryInExec := s.entryInExec || (ph.pFlags &&& PF_X != 0 && ph.pVaddr ≤ ehdr.eEntry && ehdr.eEntry < vaddrEnd)
  elfEnd := if !s.foundLoad || s.elfEnd < vaddrEnd then vaddrEnd else s.elfEnd
  loadCount := s.loadCount + 1

/-- One round of the loop over the program headers. -/
def scanOne (phdrs : Nat → Phdr) (fileSize : BitVec 64) (s : Scan) (i : Nat) : Except Int Scan :=
  let ph := phdrs i
  if ph.pType ≠ PT_LOAD then .ok s
  else if MAX_LOAD_SEGMENTS ≤ s.loadCount then .error (-ENOEXEC)
  else
    match checkLoad ph fileSize with
    | none => .error (-ENOEXEC)
    | some vaddrEnd =>
      if (range i).any fun j => (phdrs j).pType == PT_LOAD && (phdrs j).pMemsz != 0 &&
          intervalsIntersect ph.pVaddr vaddrEnd (phdrs j).pVaddr ((phdrs j).pVaddr + (phdrs j).pMemsz)
      then .error (-ENOEXEC)
      else .ok (s.collect ehdr ph vaddrEnd)

/-- The loop over the first `n` program headers. -/
def scan (phdrs : Nat → Phdr) (fileSize : BitVec 64) (n : Nat) : Except Int Scan :=
  (range n).foldlM (scanOne ehdr phdrs fileSize) ⟨false, false, 0, 0⟩

/-- The bound of the program header table. The size of the table is the sum of the number of its entries and
the size of one. -/
def checkTable (fileSize : BitVec 64) : Bool :=
  ((addOverflows (ehdr.ePhnum.zeroExtend 64) (ehdr.ePhentsize.zeroExtend 64)).bind fun phdrTableSize =>
    addOverflows ehdr.ePhoff phdrTableSize).any fun phdrTableEnd => phdrTableEnd ≤ fileSize

/-- `elf_layout_validate`. -/
def elfLayoutValidate (phdrs : Nat → Phdr) (fileSize : BitVec 64) : Except Int ElfLayout :=
  if ¬ Identified ehdr then .error (-ENOEXEC)
  else if ehdr.ePhnum = 0 then .error (-ENOEXEC)
  else if ehdr.ePhentsize.toNat ≠ SIZEOF_PHDR then .error (-ENOEXEC)
  else if !checkTable ehdr fileSize then .error (-ENOEXEC)
  else
    match scan ehdr phdrs fileSize ehdr.ePhnum.toNat with
    | .error e => .error e
    | .ok s =>
      if !s.foundLoad then .error (-ENOEXEC)
      else if BitVec.ofNat 64 HEAP_LIMIT < alignUp4k s.elfEnd then .error (-ENOEXEC)
      else if !s.entryInExec then .error (-ENOEXEC)
      else .ok ⟨s.elfEnd, alignUp4k s.elfEnd⟩

/-! ## What can be loaded -/

/-- The end of a segment in memory. -/
def Phdr.memEnd (ph : Phdr) : Nat := ph.pVaddr.toNat + ph.pMemsz.toNat

/-- Header `i` is that of a segment to load. -/
def IsLoad (phdrs : Nat → Phdr) (i : Nat) : Prop := (phdrs i).pType = PT_LOAD

instance (phdrs : Nat → Phdr) : DecidablePred (IsLoad phdrs) := fun i => inferInstanceAs (Decidable ((phdrs i).pType = PT_LOAD))

/-- A segment that can be loaded by itself. -/
structure SegmentOk (fileSize : BitVec 64) (ph : Phdr) : Prop where
  pos : 0 < ph.pMemsz.toNat
  file : ph.pFilesz.toNat ≤ ph.pMemsz.toNat
  low : USER_CODE_ADDR ≤ ph.pVaddr.toNat
  high : ph.memEnd ≤ HEAP_LIMIT
  inFile : 0 < ph.pFilesz.toNat → ph.pOffset.toNat + ph.pFilesz.toNat ≤ fileSize.toNat

/-- Segment `i` has no byte of a segment before it. -/
def Clear (phdrs : Nat → Phdr) (i : Nat) : Prop := ∀ j < i, IsLoad phdrs j →
  (phdrs i).memEnd ≤ (phdrs j).pVaddr.toNat ∨ (phdrs j).memEnd ≤ (phdrs i).pVaddr.toNat

/-- The segments among the first `n` headers can be loaded together. -/
structure Segments (phdrs : Nat → Phdr) (fileSize : BitVec 64) (n : Nat) : Prop where
  ok : ∀ i < n, IsLoad phdrs i → SegmentOk fileSize (phdrs i)
  disjoint : ∀ i < n, IsLoad phdrs i → Clear phdrs i
  count : (range n).countP (IsLoad phdrs ·) ≤ 32

/-- The entry lies in an executable segment. -/
def Enters (ph : Phdr) : Prop :=
  ph.pFlags &&& PF_X ≠ 0 ∧ ph.pVaddr.toNat ≤ ehdr.eEntry.toNat ∧ ehdr.eEntry.toNat < ph.memEnd

/-- A loadable image, but for the place of the program header table. -/
structure Loadable (ehdr : Ehdr) (phdrs : Nat → Phdr) (fileSize : BitVec 64) : Prop where
  identified : Identified ehdr
  phnum : 0 < ehdr.ePhnum.toNat
  phentsize : ehdr.ePhentsize.toNat = SIZEOF_PHDR
  segments : Segments phdrs fileSize ehdr.ePhnum.toNat
  some : ∃ i < ehdr.ePhnum.toNat, IsLoad phdrs i
  entry : ∃ i < ehdr.ePhnum.toNat, IsLoad phdrs i ∧ Enters ehdr (phdrs i)

/-- The layout of an image. -/
structure LayoutOf (ehdr : Ehdr) (phdrs : Nat → Phdr) (out : ElfLayout) : Prop where
  attained : ∃ i < ehdr.ePhnum.toNat, IsLoad phdrs i ∧ out.elfEnd.toNat = (phdrs i).memEnd
  bound : ∀ i < ehdr.ePhnum.toNat, IsLoad phdrs i → (phdrs i).memEnd ≤ out.elfEnd.toNat
  heap : out.heapBase.toNat = (out.elfEnd.toNat + 4095) / 4096 * 4096

/-! ## The checks -/

lemma HEAP_LIMIT_eq : HEAP_LIMIT = 0x203ff000 := rfl

variable {a b fileSize : BitVec 64} {ehdr : Ehdr} {phdrs : Nat → Phdr}

lemma addOverflows_eq_none : addOverflows a b = none ↔ 2 ^ 64 ≤ a.toNat + b.toNat := by
  have hmax : (BitVec.allOnes 64 - b).toNat = 2 ^ 64 - 1 - b.toNat := by
    rw [BitVec.toNat_sub_of_le (BitVec.le_def.2 (by rw [BitVec.toNat_allOnes]; omega)), BitVec.toNat_allOnes]
  rw [addOverflows, ite_eq_left_iff, BitVec.lt_def]
  simp only [reduceCtorEq, imp_false]
  omega

lemma addOverflows_eq_some {c : BitVec 64} : addOverflows a b = some c ↔ c.toNat = a.toNat + b.toNat := by
  cases h : addOverflows a b with
  | none =>
    have hw := addOverflows_eq_none.1 h
    exact ⟨fun heq => (by cases heq), fun heq => (by omega)⟩
  | some d =>
    have hsum : d.toNat = a.toNat + b.toNat := by
      have hf : ¬ 2 ^ 64 ≤ a.toNat + b.toNat := fun hle => by rw [addOverflows_eq_none.2 hle] at h; cases h
      rw [addOverflows] at h
      split_ifs at h
      cases h
      rw [BitVec.toNat_add, mod_eq_of_lt (by omega)]
    rw [Option.some_inj, ← BitVec.toNat_inj, hsum]
    exact eq_comm

lemma toNat_alignUp4k {v : BitVec 64} (h : v.toNat ≤ HEAP_LIMIT) :
    (alignUp4k v).toNat = (v.toNat + 4095) / 4096 * 4096 := by
  have hadd : (v + 0xFFF).toNat = v.toNat + 4095 := by
    rw [HEAP_LIMIT_eq] at h
    rw [BitVec.toNat_add]
    exact mod_eq_of_lt (by change v.toNat + 4095 < _; omega)
  rw [← hadd]
  exact toNat_and_not_low (v + 0xFFF) 12

/-- A sum that is checked, and compared with a bound. -/
lemma addOverflows_any_le (a b bound : BitVec 64) :
    ((addOverflows a b).any fun c => c ≤ bound) = true ↔ a.toNat + b.toNat ≤ bound.toNat := by
  cases h : addOverflows a b with
  | none =>
    have hw := addOverflows_eq_none.1 h
    exact ⟨fun hf => (by cases hf), fun hle => (by omega)⟩
  | some c => rw [Option.any_some, decide_eq_true_iff, BitVec.le_def, addOverflows_eq_some.1 h]

lemma checkFile_iff (ph : Phdr) (fileSize : BitVec 64) : checkFile ph fileSize = true ↔
      (0 < ph.pFilesz.toNat → ph.pOffset.toNat + ph.pFilesz.toNat ≤ fileSize.toNat) := by
  rw [checkFile]
  split_ifs with hf
  · rw [addOverflows_any_le]
    exact ⟨fun h _ => h, fun h => h (BitVec.lt_def.1 hf)⟩
  · exact ⟨fun _ h => absurd (BitVec.lt_def.2 (by exact h)) hf, fun _ => rfl⟩

lemma checkLoad_eq_some {ph : Phdr} {e : BitVec 64} :
    checkLoad ph fileSize = some e ↔ SegmentOk fileSize ph ∧ e.toNat = ph.memEnd := by
  rw [checkLoad]
  by_cases hmem : ph.pMemsz = 0
  · rw [if_pos hmem]
    exact ⟨fun h => (by cases h), fun h => absurd h.1.pos (by rw [hmem]; decide)⟩
  by_cases hf : ph.pMemsz < ph.pFilesz
  · rw [if_neg hmem, if_pos hf]
    exact ⟨fun h => (by cases h), fun h => absurd h.1.file (not_le.2 (BitVec.lt_def.1 hf))⟩
  by_cases hvaddr : ph.pVaddr < .ofNat 64 USER_CODE_ADDR
  · rw [if_neg hmem, if_neg hf, if_pos hvaddr]
    exact ⟨fun h => (by cases h), fun h => absurd h.1.low (not_le.2 (BitVec.lt_def.1 hvaddr))⟩
  rw [if_neg hmem, if_neg hf, if_neg hvaddr]
  cases hend : addOverflows ph.pVaddr ph.pMemsz with
  | none =>
    refine ⟨fun h => (by cases h), fun h => ?_⟩
    rw [addOverflows_eq_some.2 h.2] at hend
    cases hend
  | some v =>
    have hv : v.toNat = ph.memEnd := addOverflows_eq_some.1 hend
    have hpos : 0 < ph.pMemsz.toNat := Nat.pos_of_ne_zero fun h => hmem (BitVec.eq_of_toNat_eq (h.trans BitVec.toNat_zero.symm))
    rw [BitVec.lt_def, not_lt] at hf hvaddr
    dsimp only
    split_ifs with hhg hin
    · refine ⟨fun h => (by cases h), fun h => absurd h.1.high (not_le.2 ?_)⟩
      rw [← hv]
      exact BitVec.lt_def.1 hhg
    · refine ⟨fun h => (by cases h), fun h => ?_⟩
      rw [(checkFile_iff ph fileSize).2 h.1.inFile] at hin
      cases hin
    · rw [Bool.not_eq_true, Bool.not_eq_false', checkFile_iff] at hin
      rw [BitVec.lt_def, hv, not_lt] at hhg
      rw [Option.some_inj, ← BitVec.toNat_inj, hv]
      exact ⟨fun h => ⟨⟨hpos, hf, hvaddr, hhg, hin⟩, h.symm⟩, fun h => h.2.symm⟩

lemma checkTable_iff (fileSize : BitVec 64) (hs : ehdr.ePhentsize.toNat = SIZEOF_PHDR) :
    checkTable ehdr fileSize = true ↔ ehdr.ePhoff.toNat + (ehdr.ePhnum.toNat + SIZEOF_PHDR) ≤ fileSize.toNat := by
  have hw : ∀ x : BitVec 16, (x.zeroExtend 64).toNat = x.toNat := by
    intro x
    rw [BitVec.toNat_setWidth, mod_eq_of_lt (by omega)]
  unfold checkTable
  cases h : addOverflows (ehdr.ePhnum.zeroExtend 64) (ehdr.ePhentsize.zeroExtend 64) with
  | none =>
    rw [addOverflows_eq_none, hw, hw] at h
    omega
  | some size =>
    rw [addOverflows_eq_some, hw, hw, hs] at h
    have hend := addOverflows_any_le ehdr.ePhoff size fileSize
    rw [h] at hend
    rw [Option.bind_some]
    exact hend

/-! ## The loop -/

variable {n : Nat} {s s' : Scan}

/-- What the loop has collected from the first `n` headers. -/
structure Sums (ehdr : Ehdr) (phdrs : Nat → Phdr) (n : Nat) (s : Scan) : Prop where
  found : s.foundLoad = true ↔ ∃ i < n, IsLoad phdrs i
  entry : s.entryInExec = true ↔ ∃ i < n, IsLoad phdrs i ∧ Enters ehdr (phdrs i)
  count : s.loadCount = (range n).countP (IsLoad phdrs ·)
  attained : s.foundLoad = true → ∃ i < n, IsLoad phdrs i ∧ s.elfEnd.toNat = (phdrs i).memEnd
  bound : ∀ i < n, IsLoad phdrs i → (phdrs i).memEnd ≤ s.elfEnd.toNat

lemma countP_succ (phdrs : Nat → Phdr) (n : Nat) : (range (n + 1)).countP (IsLoad phdrs ·) =
      (range n).countP (IsLoad phdrs ·) + if IsLoad phdrs n then 1 else 0 := by
  rw [range_succ]
  simp

lemma Sums.skip (h : Sums ehdr phdrs n s) (hn : ¬ IsLoad phdrs n) : Sums ehdr phdrs (n + 1) s := by
  have hex : ∀ P : Nat → Prop, (∃ i < n + 1, IsLoad phdrs i ∧ P i) ↔ ∃ i < n, IsLoad phdrs i ∧ P i := by
    intro P
    rw [exists_lt_succ_right, or_iff_left fun hp => hn hp.1]
  exact {
    found := by rw [h.found, exists_lt_succ_right, or_iff_left hn]
    entry := by rw [h.entry, hex]
    count := by rw [h.count, countP_succ, if_neg hn, add_zero]
    attained := fun hf => (hex _).2 (h.attained hf)
    bound := forall_lt_succ_right.2 ⟨h.bound, fun hp => absurd hp hn⟩ }

variable {e : BitVec 64}

lemma Sums.collect (h : Sums ehdr phdrs n s) (hn : IsLoad phdrs n)
    (he : e.toNat = (phdrs n).memEnd) : Sums ehdr phdrs (n + 1) (s.collect ehdr (phdrs n) e) := by
  -- the new end is the larger of the two, or the first
  have hend : (∀ i < n, IsLoad phdrs i → (phdrs i).memEnd ≤ (s.collect ehdr (phdrs n) e).elfEnd.toNat) ∧
      (phdrs n).memEnd ≤ (s.collect ehdr (phdrs n) e).elfEnd.toNat ∧
      ∃ i < n + 1, IsLoad phdrs i ∧ (s.collect ehdr (phdrs n) e).elfEnd.toNat = (phdrs i).memEnd := by
    simp only [Scan.collect]
    split_ifs with hnew
    · refine ⟨fun i hi hl => ?_, he.ge, n, lt_succ_self n, hn, he⟩
      rw [Bool.or_eq_true, decide_eq_true_iff] at hnew
      obtain hfst | hlt := hnew
      · rw [h.found.2 ⟨i, hi, hl⟩] at hfst
        cases hfst
      · exact (h.bound i hi hl).trans hlt.le
    · rw [Bool.or_eq_true, Bool.not_eq_true', decide_eq_true_iff, BitVec.lt_def, not_or, Bool.not_eq_false] at hnew
      obtain ⟨i, hi, hl, heq⟩ := h.attained hnew.1
      exact ⟨h.bound, by omega, i, lt_succ_of_lt hi, hl, heq⟩
  have henters : (phdrs n).pFlags &&& PF_X != 0 && decide ((phdrs n).pVaddr ≤ ehdr.eEntry) &&
      decide (ehdr.eEntry < e) ↔ IsLoad phdrs n ∧ Enters ehdr (phdrs n) := by
    rw [Bool.and_eq_true, Bool.and_eq_true, bne_iff_ne, decide_eq_true_iff, decide_eq_true_iff, BitVec.le_def,
      BitVec.lt_def, he, and_assoc, Enters, and_iff_right hn]
  exact {
    found := ⟨fun _ => ⟨n, lt_succ_self n, hn⟩, fun _ => rfl⟩
    entry := by
      rw [exists_lt_succ_right, ← h.entry, ← henters]
      exact Bool.or_eq_true_iff
    count := by rw [countP_succ, if_pos hn, ← h.count]; rfl
    attained := fun _ => hend.2.2
    bound := forall_lt_succ_right.2 ⟨hend.1, fun _ => hend.2.1⟩ }

/-- The segments before `n` are clear of segment `n`. -/
lemma clear_iff (hp : Segments phdrs fileSize n) (he : e.toNat = (phdrs n).memEnd) :
    ((range n).any fun j => (phdrs j).pType == PT_LOAD && (phdrs j).pMemsz != 0 &&
        intervalsIntersect (phdrs n).pVaddr e (phdrs j).pVaddr ((phdrs j).pVaddr + (phdrs j).pMemsz)) = false ↔
      Clear phdrs n := by
  rw [any_eq_false]
  refine forall_congr' fun j => ?_
  rw [mem_range]
  refine forall_congr' fun hj => ?_
  rw [Bool.and_eq_true, Bool.and_eq_true, beq_iff_eq, bne_iff_ne, not_and, and_imp]
  refine forall_congr' fun hl => ?_
  have hok := hp.ok j hj hl
  have hne : (phdrs j).pMemsz ≠ 0 := fun h => absurd hok.pos (by rw [h]; decide)
  have hsum : ((phdrs j).pVaddr + (phdrs j).pMemsz).toNat = (phdrs j).memEnd := by
    have hhg := hok.high
    rw [Phdr.memEnd, HEAP_LIMIT_eq] at hhg
    rw [BitVec.toNat_add, Phdr.memEnd, mod_eq_of_lt (by omega)]
  rw [intervalsIntersect, Bool.and_eq_true, decide_eq_true_iff, decide_eq_true_iff, BitVec.lt_def, BitVec.lt_def]
  exact ⟨fun h => by have := h hne; omega, fun h _ => by omega⟩

lemma scanOne_skip (hl : ¬ IsLoad phdrs n) : scanOne ehdr phdrs fileSize s n = .ok s := by
  rw [scanOne, if_pos (by exact hl)]

/-- One round, after rounds that were passed. -/
lemma scanOne_eq_ok (hp : Segments phdrs fileSize n) (hl : IsLoad phdrs n) :
    scanOne ehdr phdrs fileSize s n = .ok s' ↔
      s.loadCount < MAX_LOAD_SEGMENTS ∧ SegmentOk fileSize (phdrs n) ∧ Clear phdrs n ∧
        ∃ e : BitVec 64, e.toNat = (phdrs n).memEnd ∧ s' = s.collect ehdr (phdrs n) e := by
  rw [scanOne, if_neg (not_not_intro (by exact hl))]
  split_ifs with hcap
  · exact ⟨fun h => (by cases h), fun h => absurd h.1 (not_lt.2 hcap)⟩
  cases hchk : checkLoad (phdrs n) fileSize with
  | none =>
    refine ⟨fun h => (by cases h), fun ⟨_, hok, _, e, he, _⟩ => ?_⟩
    rw [checkLoad_eq_some.2 ⟨hok, he⟩] at hchk
    cases hchk
  | some e =>
    obtain ⟨hok, he⟩ := checkLoad_eq_some.1 hchk
    dsimp only
    rw [← clear_iff hp he]
    split_ifs with hany
    · exact ⟨fun h => (by cases h), fun h => absurd (h.2.2.1.symm.trans hany) (by decide)⟩
    · rw [Bool.not_eq_true] at hany
      refine ⟨fun h => ⟨not_le.1 hcap, hok, hany, e, he, by cases h; rfl⟩, fun ⟨_, _, _, e', he', heq⟩ => ?_⟩
      rw [heq, BitVec.eq_of_toNat_eq (he'.trans he.symm)]

lemma scan_succ : scan ehdr phdrs fileSize (n + 1) = .ok s' ↔
    ∃ s, scan ehdr phdrs fileSize n = .ok s ∧ scanOne ehdr phdrs fileSize s n = .ok s' := by
  have hb : scan ehdr phdrs fileSize (n + 1) =
      (scan ehdr phdrs fileSize n).bind fun s => scanOne ehdr phdrs fileSize s n := by
    rw [scan, range_succ, foldlM_append]
    exact congrArg _ (funext fun s => (foldlM_cons ..).trans (bind_pure _))
  rw [hb]
  cases scan ehdr phdrs fileSize n with
  | error e => exact ⟨fun h => (by cases h), fun ⟨_, h, _⟩ => (by cases h)⟩
  | ok s => exact ⟨fun h => ⟨s, rfl, h⟩, fun ⟨_, h, h'⟩ => (by cases h; exact h')⟩

lemma Segments.succ_iff : Segments phdrs fileSize (n + 1) ↔ Segments phdrs fileSize n ∧
    (IsLoad phdrs n → SegmentOk fileSize (phdrs n) ∧ Clear phdrs n ∧
      (range n).countP (IsLoad phdrs ·) < MAX_LOAD_SEGMENTS) := by
  simp only [MAX_LOAD_SEGMENTS]
  constructor
  · intro h
    have hcnt := h.count
    rw [countP_succ] at hcnt
    refine ⟨⟨(forall_lt_succ_right.1 h.ok).1, (forall_lt_succ_right.1 h.disjoint).1, by omega⟩, fun hn => ?_⟩
    rw [if_pos hn] at hcnt
    exact ⟨h.ok n (lt_succ_self n) hn, h.disjoint n (lt_succ_self n) hn, by omega⟩
  rintro ⟨h, hn⟩
  have hcnt := h.count
  refine ⟨forall_lt_succ_right.2 ⟨h.ok, fun hl => (hn hl).1⟩,
    forall_lt_succ_right.2 ⟨h.disjoint, fun hl => (hn hl).2.1⟩, ?_⟩
  rw [countP_succ]
  split_ifs with hl
  · have hlt := (hn hl).2.2
    omega
  · omega

/-- The loop passes exactly the segments that can be loaded together. -/
lemma scan_spec (ehdr : Ehdr) (phdrs : Nat → Phdr) (fileSize : BitVec 64) (n : Nat) :
    (∀ s, scan ehdr phdrs fileSize n = .ok s → Sums ehdr phdrs n s) ∧
      ((∃ s, scan ehdr phdrs fileSize n = .ok s) ↔ Segments phdrs fileSize n) := by
  induction n with
  | zero =>
    refine ⟨?_, fun _ => ⟨by simp, by simp, by simp⟩, fun _ => ⟨_, rfl⟩⟩
    rintro s ⟨⟩
    exact ⟨by simp, by simp, by simp, by simp, by simp⟩
  | succ n ih =>
    obtain ⟨hsm, hok⟩ := ih
    constructor
    · intro s' h
      obtain ⟨s, hs, hone⟩ := scan_succ.1 h
      by_cases hl : IsLoad phdrs n
      · obtain ⟨-, -, -, e, he, rfl⟩ := (scanOne_eq_ok (hok.1 ⟨s, hs⟩) hl).1 hone
        exact (hsm s hs).collect hl he
      · rw [scanOne_skip hl, Except.ok.injEq] at hone
        rw [← hone]
        exact (hsm s hs).skip hl
    rw [Segments.succ_iff]
    constructor
    · rintro ⟨s', h⟩
      obtain ⟨s, hs, hone⟩ := scan_succ.1 h
      refine ⟨hok.1 ⟨s, hs⟩, fun hl => ?_⟩
      obtain ⟨hcap, hseg, hclr, -⟩ := (scanOne_eq_ok (hok.1 ⟨s, hs⟩) hl).1 hone
      exact ⟨hseg, hclr, (hsm s hs).count ▸ hcap⟩
    rintro ⟨hsg, hn⟩
    obtain ⟨s, hs⟩ := hok.2 hsg
    by_cases hl : IsLoad phdrs n
    · obtain ⟨hseg, hclr, hcap⟩ := hn hl
      have hhg := hseg.high
      rw [HEAP_LIMIT_eq] at hhg
      have he : (BitVec.ofNat 64 (phdrs n).memEnd).toNat = (phdrs n).memEnd := by
        rw [BitVec.toNat_ofNat, mod_eq_of_lt (by omega)]
      rw [← (hsm s hs).count] at hcap
      exact ⟨_, scan_succ.2 ⟨s, hs, (scanOne_eq_ok hsg hl).2 ⟨hcap, hseg, hclr, _, he, rfl⟩⟩⟩
    · exact ⟨s, scan_succ.2 ⟨s, hs, scanOne_skip hl⟩⟩

/-! ## What is accepted -/

lemma Sums.elfEnd_le
    (h : Sums ehdr phdrs ehdr.ePhnum.toNat s) (hs : Segments phdrs fileSize ehdr.ePhnum.toNat)
    (hfnd : s.foundLoad = true) : s.elfEnd.toNat ≤ HEAP_LIMIT := by
  obtain ⟨i, hi, hl, hend⟩ := h.attained hfnd
  rw [hend]
  exact (hs.ok i hi hl).high

/-- An image that is refused, and may be. -/
lemma refused {P : Prop} (hP : ¬ P) (e : Int) : ((∃ out : ElfLayout, .error e = Except.ok out) ↔ P) ∧
      ∀ out : ElfLayout, .error e = Except.ok out → LayoutOf ehdr phdrs out :=
  ⟨⟨fun ⟨_, h⟩ => (by cases h), fun h => absurd h hP⟩, fun _ h => (by cases h)⟩

/-- What the validator accepts, with the bound it checks, and what it returns. -/
lemma elfLayoutValidate_spec (ehdr : Ehdr) (phdrs : Nat → Phdr) (fileSize : BitVec 64) :
    ((∃ out, elfLayoutValidate ehdr phdrs fileSize = .ok out) ↔ Loadable ehdr phdrs fileSize ∧
        ehdr.ePhoff.toNat + (ehdr.ePhnum.toNat + SIZEOF_PHDR) ≤ fileSize.toNat) ∧
      ∀ out, elfLayoutValidate ehdr phdrs fileSize = .ok out → LayoutOf ehdr phdrs out := by
  obtain ⟨hsm, hok⟩ := scan_spec ehdr phdrs fileSize ehdr.ePhnum.toNat
  unfold elfLayoutValidate
  by_cases hid : Identified ehdr
  swap
  · rw [if_pos hid]
    exact refused (fun h => hid h.1.identified) _
  by_cases hnum : ehdr.ePhnum = 0
  · rw [if_neg (not_not.2 hid), if_pos hnum]
    exact refused (fun h => absurd h.1.phnum (by rw [hnum]; decide)) _
  by_cases hsz : ehdr.ePhentsize.toNat = SIZEOF_PHDR
  swap
  · rw [if_neg (not_not.2 hid), if_neg hnum, if_pos hsz]
    exact refused (fun h => hsz h.1.phentsize) _
  rw [if_neg (not_not.2 hid), if_neg hnum, if_neg (not_not.2 hsz), ← checkTable_iff fileSize hsz]
  cases checkTable ehdr fileSize with
  | false => exact refused (fun h => (by cases h.2)) _
  | true =>
    rw [and_iff_left rfl]
    cases hsc : scan ehdr phdrs fileSize ehdr.ePhnum.toNat with
    | error e =>
      refine refused (fun h => ?_) e
      obtain ⟨s, hs⟩ := hok.2 h.segments
      rw [hs] at hsc
      cases hsc
    | ok s =>
      have hsg := hok.1 ⟨s, hsc⟩
      have hs := hsm s hsc
      dsimp only
      cases hfnd : s.foundLoad with
      | false =>
        refine refused (fun h => ?_) _
        rw [hs.found.2 h.some] at hfnd
        cases hfnd
      | true =>
        have hend := hs.elfEnd_le hsg hfnd
        have hhp := toNat_alignUp4k hend
        have hlim : ¬ BitVec.ofNat 64 HEAP_LIMIT < alignUp4k s.elfEnd := by
          rw [BitVec.lt_def]
          change ¬ HEAP_LIMIT < _
          rw [HEAP_LIMIT_eq] at hend ⊢
          omega
        rw [if_neg hlim]
        cases hent : s.entryInExec with
        | false =>
          refine refused (fun h => ?_) _
          rw [hs.entry.2 h.entry] at hent
          cases hent
        | true =>
          have hpos : 0 < ehdr.ePhnum.toNat := Nat.pos_of_ne_zero fun h =>
            hnum (BitVec.eq_of_toNat_eq (h.trans BitVec.toNat_zero.symm))
          refine ⟨⟨fun _ => ⟨hid, hpos, hsz, hsg, hs.found.1 hfnd, hs.entry.1 hent⟩, fun _ => ⟨_, rfl⟩⟩, ?_⟩
          rintro out ⟨⟩
          exact ⟨hs.attained hfnd, hs.bound, hhp⟩

/-- **The validator is exact** for exactly the images whose program header table fits by the sum that is
checked if and only if it fits by the product. -/
theorem elfLayoutValidate_exact_iff (ehdr : Ehdr) (phdrs : Nat → Phdr) (fileSize : BitVec 64) :
    (((∃ out, elfLayoutValidate ehdr phdrs fileSize = .ok out) ↔ Loadable ehdr phdrs fileSize ∧
          ehdr.ePhoff.toNat + ehdr.ePhnum.toNat * ehdr.ePhentsize.toNat ≤ fileSize.toNat) ∧
        ∀ out, elfLayoutValidate ehdr phdrs fileSize = .ok out → LayoutOf ehdr phdrs out) ↔
      (Loadable ehdr phdrs fileSize →
        (ehdr.ePhoff.toNat + (ehdr.ePhnum.toNat + ehdr.ePhentsize.toNat) ≤ fileSize.toNat ↔
          ehdr.ePhoff.toNat + ehdr.ePhnum.toNat * ehdr.ePhentsize.toNat ≤ fileSize.toNat)) := by
  obtain ⟨haccept, hlayout⟩ := elfLayoutValidate_spec ehdr phdrs fileSize
  rw [and_iff_left hlayout, haccept, and_congr_right_iff]
  refine forall_congr' fun h => ?_
  rw [h.phentsize]

/-- A file with two program headers, of which only the first is in it. -/
theorem elfLayoutValidate_table_outside :
    elfLayoutValidate ⟨fun i => [0x7f, 0x45, 0x4c, 0x46, 2, 1].getD i 0, 2, 0x3e, 0x400000, 64, 56, 2⟩
        (fun i => if i = 0 then ⟨1, 5, 0, 0x400000, 0, 0x1000⟩ else ⟨0, 0, 0, 0, 0, 0⟩) 122 =
      .ok ⟨0x401000, 0x401000⟩ ∧ ¬ 64 + 2 * 56 ≤ 122 := by
  decide +kernel

end OS01.Fs
