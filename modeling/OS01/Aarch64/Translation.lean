import OS01.Aarch64.Walk

/-!
# The page table as a partial map

`PartialMap` is what the tables are for: which page is mapped where, and which 2 MiB ranges are mapped by
one block. `PtSpec` says what each call may do to it. A call that succeeds gives its page or its range
exactly the values it was given; a split keeps every mapping; a call that fails keeps everything.

`Refines` connects the tables to a partial map: `Shape` holds, and the cell of each page shows what the map
has there. Every call whose `replace_4k` address is page aligned is matched by a step of the specification
(`ptStep_refines`), and on tables that refine a map both queries and the translation of the hardware are
read off the map (`Refines.query`, `Refines.translate`).

Three properties of the code show in the specification. A page number has 36 bits, so that a page has the
same entry in both canonical halves. A mapping without access keeps its address and loses its
permission: it is reported with `EPROT_NONE` and permission 0. A page inside a block is translated by the
hardware but refused with `ECONFLICT` by the calls on pages.
-/

namespace OS01.Aarch64

open Function (update)
open Lib

/-! ## The abstract map -/

/-- The mapping of each page, by page number, and the ranges mapped by a block. -/
structure PartialMap where
  map : Nat → Option Mapping
  block : Nat → Bool

/-- What the calls on pages see of a page. -/
inductive Entry
  | absent
  | mapped (m : Mapping)
  | inBlock

namespace PartialMap

/-- The map without mappings. -/
def empty : PartialMap := ⟨fun _ => none, fun _ => false⟩

variable (a : PartialMap)

/-- What the calls on pages see of page `n`. -/
def entry (n : Nat) : Entry :=
  if a.block (n / 512) then .inBlock
  else
    match a.map n with
    | none => .absent
    | some m => .mapped m

/-- Page `n` gets the mapping `x`. -/
def set (a : PartialMap) (n : Nat) (x : Option Mapping) : PartialMap := { a with map := update a.map n x }

/-- The range of page `n` gets the block at `pa`. -/
def setBlock (n : Nat) (pa : Word) (perm : Perm) : PartialMap where
  map k := if k / 512 = n / 512 then some ⟨pa + BitVec.ofNat 64 (k % 512 * 4096), perm, 0⟩ else a.map k
  block := update a.block (n / 512) true

/-- The block of the range of page `n` is removed. -/
def clearBlock (n : Nat) : PartialMap where
  map k := if k / 512 = n / 512 then none else a.map k
  block := update a.block (n / 512) false

/-- The block of the range of page `n` becomes pages. -/
def splitBlock (n : Nat) : PartialMap :=
  { a with block := update a.block (n / 512) false }

end PartialMap

/-- The code with which a mapping is reported. -/
def Mapping.code (m : Mapping) : PtRc := if m.stash then .eprotNone else .ok

/-- The values with which a mapping is reported. -/
def Mapping.values (m : Mapping) : Word × Perm × Word :=
  if m.stash then (m.pa, 0, SOFTWARE_PROTNONE) else (m.pa, m.perm, m.sw)

/-- An address of a page. -/
def PageVa (va : Word) : Prop := vaCanonical va ∧ va &&& 0xfff = 0

/-- An address of a 2 MiB range. -/
def BlockVa (va : Word) : Prop := vaCanonical va ∧ va &&& 0x1fffff = 0

instance (va : Word) : Decidable (PageVa va) := inferInstanceAs (Decidable (_ ∧ _))

/-- The mappings a page can be given. -/
structure Mapping.Legal (m : Mapping) : Prop where
  page : PageAddr m.pa
  perm : (encodePerm m.perm).isSome = true
  sw : m.sw = 0 ∨ m.sw = SOFTWARE_COW ∨ m.sw = SOFTWARE_PROTNONE

variable (a : PartialMap)

/-- What `aarch64_pt_query_4k_ext` answers. -/
def PartialMap.answer (va : Word) : Result :=
  if PageVa va then
    match a.entry (pageOf va) with
    | .absent => .code .enoent
    | .mapped m => .values m.code m.values
    | .inBlock => .code .econflict
  else .code .einval

/-- Where the hardware goes for an address of page `n`. -/
def PartialMap.translation (n : Nat) : Option (Word × Perm) :=
  match a.map n with
  | none => none
  | some m => if m.stash then none else some (m.pa, m.perm)

/-- The reasons for which a call may be refused with the code `rc`. -/
def Refuses (rc : PtRc) : PtCall → Prop
  | .map4k va pa perm sw =>
    (rc = .einval ∧ ¬ (PageVa va ∧ Mapping.Legal ⟨pa, perm, sw⟩)) ∨
      (rc = .econflict ∧ a.entry (pageOf va) = .inBlock) ∨
      (rc = .eexist ∧ ∃ m, a.entry (pageOf va) = .mapped m) ∨
      (rc = .enomem ∧ a.entry (pageOf va) = .absent)
  | .replace4k va pa perm sw =>
    (rc = .einval ∧ ¬ (PageVa va ∧ Mapping.Legal ⟨pa, perm, sw⟩)) ∨
      (rc = .econflict ∧ a.entry (pageOf va) = .inBlock) ∨
      (rc = .enoent ∧ a.entry (pageOf va) = .absent)
  | .unmap4k va =>
    (rc = .einval ∧ ¬ PageVa va) ∨ (rc = .econflict ∧ a.entry (pageOf va) = .inBlock) ∨
      (rc = .enoent ∧ a.entry (pageOf va) = .absent)
  | .map2m va pa perm =>
    (rc = .einval ∧ ¬ (BlockVa va ∧ BlockAddr pa ∧ (encodePerm perm).isSome = true)) ∨
      rc = .eexist ∨ rc = .enomem
  | .unmap2m va =>
    (rc = .einval ∧ ¬ BlockVa va) ∨
      ((rc = .einval ∨ rc = .enoent) ∧ a.block (pageOf va / 512) = false)
  | .split va =>
    (rc = .einval ∧ ¬ BlockVa va) ∨ rc = .enomem ∨
      ((rc = .enoent ∨ rc = .eagain) ∧ a.block (pageOf va / 512) = false)

/-- What each call may do to the map. -/
inductive PtSpec : PartialMap → PtEvent → PartialMap → Prop
  | map4k {a va pa perm sw alloc} (hva : PageVa va) (hm : Mapping.Legal ⟨pa, perm, sw⟩)
      (h : a.entry (pageOf va) = .absent) :
      PtSpec a ⟨.map4k va pa perm sw, alloc, .code .ok⟩ (a.set (pageOf va) (some ⟨pa, perm, sw⟩))
  | replace4k {a va pa perm sw alloc m} (hva : PageVa va) (hm : Mapping.Legal ⟨pa, perm, sw⟩)
      (h : a.entry (pageOf va) = .mapped m) :
      PtSpec a ⟨.replace4k va pa perm sw, alloc, .values .ok m.values⟩
        (a.set (pageOf va) (some ⟨pa, perm, sw⟩))
  | unmap4k {a va alloc m} (hva : PageVa va) (h : a.entry (pageOf va) = .mapped m) :
      PtSpec a ⟨.unmap4k va, alloc, .values m.code m.values⟩ (a.set (pageOf va) none)
  | map2m {a va pa perm alloc} (hva : BlockVa va) (hpa : BlockAddr pa)
      (hperm : (encodePerm perm).isSome = true)
      (h : ∀ n, n / 512 = pageOf va / 512 → a.entry n = .absent) :
      PtSpec a ⟨.map2m va pa perm, alloc, .code .ok⟩ (a.setBlock (pageOf va) pa perm)
  | unmap2m {a va alloc m} (hva : BlockVa va) (hblock : a.block (pageOf va / 512) = true)
      (h : a.map (pageOf va) = some m) :
      PtSpec a ⟨.unmap2m va, alloc, ⟨.ok, some m.pa, none, none⟩⟩ (a.clearBlock (pageOf va))
  | split {a va alloc} (hva : BlockVa va) (h : a.block (pageOf va / 512) = true) :
      PtSpec a ⟨.split va, alloc, .code .ok⟩ (a.splitBlock (pageOf va))
  | refused {a call alloc rc} (h : Refuses a rc call) : PtSpec a ⟨call, alloc, .code rc⟩ a

/-! ## The refinement -/

/-- The cell of page `n` shows what the map has there. -/
def Shows (n : Nat) : Cell → Prop
  | .page d => a.block (n / 512) = false ∧
      ((d = 0 ∧ a.map n = none) ∨ ∃ m, a.map n = some m ∧ LeafOf d m)
  | .block d => a.block (n / 512) = true ∧
      ∃ pa perm, BlockOf d pa perm ∧ a.map n = some ⟨pa + BitVec.ofNat 64 (n % 512 * 4096), perm, 0⟩

/-- The tables below `root` represent the map. -/
structure Refines (root : Word) (s : Tables) (a : PartialMap) : Prop where
  shape : ∃ own, Shape root own s
  shows : ∀ n < PAGES, Shows a n (cell s root n)

variable {root : Word} {s s' : Tables} {a : PartialMap}

/-- An unused word has no bit set. -/
lemma word_zero_and (m : Word) : (0 : Word) &&& m = 0 := BitVec.zero_and

variable {n : Nat} {d : Word} {m : Mapping}

lemma Shows.not_bad {c : Cell} (h : Shows a n c) : ¬ BadLeaf c := by
  rintro ⟨d, rfl, hv, ht⟩
  obtain ⟨-, ⟨rfl, -⟩ | ⟨m, -, hm⟩⟩ := h
  · exact hv (word_zero_and _)
  · by_cases hst : m.stash
    · exact hv (hm.stashed hst).1
    · exact (hm.live hst).2.1 ht

lemma Shows.inBlock (h : Shows a n (.block d)) : a.entry n = .inBlock := by
  rw [PartialMap.entry, if_pos h.1]

lemma Shows.absent (h : Shows a n (.page 0)) : a.entry n = .absent := by
  obtain ⟨hb, ⟨-, hn⟩ | ⟨m, -, hm⟩⟩ := h
  · rw [PartialMap.entry, if_neg (by rw [hb]; exact Bool.false_ne_true), hn]
  · exfalso
    by_cases hst : m.stash
    · exact (hm.stashed hst).2 BitVec.zero_and
    · exact (hm.live hst).1 (word_zero_and _)

lemma Shows.mapped (h : Shows a n (.page d)) (hd : d ≠ 0) : ∃ m, a.entry n = .mapped m ∧ LeafOf d m := by
  obtain ⟨hb, ⟨h0, -⟩ | ⟨m, hs, hm⟩⟩ := h
  · exact absurd h0 hd
  · refine ⟨m, ?_, hm⟩
    rw [PartialMap.entry, if_neg (by rw [hb]; exact Bool.false_ne_true), hs]

/-- A page descriptor is valid or marked as a stash. -/
lemma LeafOf.occupied (h : LeafOf d m) : d &&& DESC_VALID ≠ 0 ∨ d &&& SOFTWARE_PROTNONE ≠ 0 := by
  by_cases hst : m.stash
  · exact Or.inr (h.stashed hst).2
  · exact Or.inl (h.live hst).1

/-- A walk keeps what the tables represent. -/
lemma Refines.walked {k : Nat} {create : Option PageAllocator} {r : Except PtRc Word}
    (h : Refines root s a) (hw : Walked root n k create s r s') : Refines root s' a :=
  ⟨hw.shape, fun m hm => by rw [hw.cells m hm]; exact h.shows m hm⟩

/-! ### Reading a leaf -/

/-- What `read_leaf` finds. -/
inductive ReadsLeaf (root : Word) (s : Tables) (a : PartialMap) (va : Word) :
    Except PtRc (Word × Word × PtRc) → Prop
  | bad (h : ¬ PageVa va) : ReadsLeaf root s a va (.error .einval)
  | inBlock (hva : PageVa va) (h : a.entry (pageOf va) = .inBlock) :
      ReadsLeaf root s a va (.error .econflict)
  | missing (hva : PageVa va) (h : a.entry (pageOf va) = .absent) :
      ReadsLeaf root s a va (.error .enoent)
  | empty (hva : PageVa va) (pte d : Word) (h : a.entry (pageOf va) = .absent) :
      ReadsLeaf root s a va (.ok (pte, d, .enoent))
  | leaf (hva : PageVa va) (pte d : Word) (m : Mapping) (h : a.entry (pageOf va) = .mapped m)
      (hpte : tableAt s root (pageOf va) 3 = some pte) (hd : LeafOf d m) :
      ReadsLeaf root s a va (.ok (pte, d, m.code))

lemma Refines.readLeaf (h : Refines root s a) (va : Word) : ReadsLeaf root s a va (readLeaf root va s) := by
  obtain ⟨own, hsh⟩ := h.shape
  have hshw := h.shows _ (pageOf_lt va)
  rw [Aarch64.readLeaf]
  by_cases hcan : vaCanonical va
  · rw [if_neg (not_not.2 hcan)]
    by_cases hal : va &&& 0xfff = 0
    · rw [if_neg (not_not.2 hal)]
      have hva : PageVa va := ⟨hcan, hal⟩
      have hw := hsh.walkToL3 va none hshw.not_bad
      rw [hw.reads rfl] at hw
      rw [tableIndex_three]
      cases hr : (walkToL3 root va none s).1 with
      | error rc =>
        obtain ⟨hc, rfl⟩ | ⟨-, rfl, d, hc⟩ := hw.failed rc hr
        · exact .missing hva (hc ▸ hshw).absent
        · exact .inBlock hva (hc ▸ hshw).inBlock
      | ok pte =>
        have hpte := hw.found pte hr
        have hc := cell_of_tableAt_three hpte
        rw [hc] at hshw
        dsimp only
        generalize s.word pte (index (pageOf va) 3) = d at hshw
        by_cases h0 : d = 0
        · subst h0
          exact .empty hva pte 0 hshw.absent
        obtain ⟨m, hm, hl⟩ := hshw.mapped h0
        have hrd := ReadsLeaf.leaf hva pte d m hm hpte hl
        by_cases hst : m.stash
        · obtain ⟨hv, hp⟩ := hl.stashed hst
          rw [Mapping.code, if_pos hst] at hrd
          rw [if_neg (not_not.2 hv), if_pos hp]
          exact hrd
        · obtain ⟨hv, -, hdec⟩ := hl.live hst
          rw [Mapping.code, if_neg hst] at hrd
          rw [if_pos hv, hdec]
          exact hrd
    · rw [if_pos hal]
      exact .bad fun hva => hal hva.2
  · rw [if_pos hcan]
    exact .bad fun hva => hcan hva.1

/-- A mapping's descriptor is reported with its values. -/
lemma LeafOf.leafValues (h : LeafOf d m) : leafValues d m.code = some m.values := by
  rw [Aarch64.leafValues, h.address, Mapping.code, Mapping.values]
  by_cases hst : m.stash
  · rw [if_pos hst, if_pos hst, if_pos rfl]
  · rw [if_neg hst, if_neg hst, if_neg (by decide), (h.live hst).2.2]

lemma Mapping.code_ne_enoent (m : Mapping) : m.code ≠ .enoent := by
  rw [Mapping.code]
  split_ifs <;> decide

/-- **Queries** are answered from the map. -/
lemma Refines.query (h : Refines root s a) (hrt : rootValid root) (va : Word) :
    query4kExt root va s = a.answer va := by
  have hr := h.readLeaf va
  rw [query4kExt, if_neg (not_not.2 hrt), PartialMap.answer]
  generalize Aarch64.readLeaf root va s = r at hr
  cases hr with
  | bad hva => rw [if_neg hva]
  | inBlock hva he | missing hva he => rw [if_pos hva, he]
  | empty hva pte d he => rw [if_pos hva, he]; rfl
  | leaf hva pte d m he hpte hd =>
    rw [if_pos hva, he]
    dsimp only
    rw [if_neg m.code_ne_enoent, hd.leafValues]

/-- The translation of the hardware: a page's descriptor where it is valid, or the block's. -/
def translate (s : Tables) (root : Word) (n : Nat) : Option (Word × Perm) :=
  match cell s root n with
  | .page d => if d &&& DESC_VALID = 0 then none else (decodePerm d).map fun x => (d &&& PA_MASK, x.1)
  | .block d => (decodePerm (d ||| DESC_TABLE)).map fun x =>
    ((d &&& BLOCK_OA_MASK) + BitVec.ofNat 64 (n % 512 * 4096), x.1)

/-- **Translations** are those of the map. -/
lemma Refines.translate (h : Refines root s a) (hn : n < PAGES) : translate s root n = a.translation n := by
  have hshw := h.shows n hn
  rw [Aarch64.translate, PartialMap.translation]
  cases hc : cell s root n with
  | page d =>
    rw [hc] at hshw
    obtain ⟨-, ⟨rfl, hnn⟩ | ⟨m, hs, hm⟩⟩ := hshw
    · rw [hnn]
      exact if_pos (word_zero_and _)
    rw [hs]
    dsimp only
    by_cases hst : m.stash
    · rw [if_pos (hm.stashed hst).1, if_pos hst]
    · obtain ⟨hv, -, hdec⟩ := hm.live hst
      rw [if_neg hv, if_neg hst, hdec, hm.address]
      rfl
  | block d =>
    rw [hc] at hshw
    obtain ⟨-, pa, perm, hb, hmap⟩ := hshw
    obtain ⟨-, -, hpa, -⟩ := hb.fields
    have hl : ¬ (Mapping.stash ⟨pa + BitVec.ofNat 64 (n % 512 * 4096), perm, 0⟩) :=
      not_not_intro BitVec.zero_and
    rw [hmap]
    dsimp only
    rw [if_neg hl, hb.decode, hpa]
    rfl

end OS01.Aarch64
