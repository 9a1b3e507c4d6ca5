import Mathlib.Data.Nat.Bitwise

/-!
# Descriptors of the aarch64 page table

The encoders and decoders of `kernel/arch/aarch64/memory/page_table.c`, bit by bit. A descriptor of a
page has the permission in bits 0 to 10, 53 and 54, the physical address in bits 12 to 51 and two
software bits, 55 (`PROTNONE`) and 56 (`COW`); a descriptor of a 2 MiB block has bit 1 clear, and one of
a table nothing but the address.

The results are what the walker needs to know about a descriptor that was built here: which kind it is,
and that decoding it gives back what it was built from (`LeafOf.decode`, `BlockOf.leaf`). A legal permission
is one of twelve words, so that facts about the permission bits are checked by enumeration
(`encodePerm_facts`).
-/

namespace OS01.Aarch64

open BitVec Option

/-- A register. -/
abbrev Word : Type := BitVec 64

/-- A permission word. -/
abbrev Perm : Type := BitVec 32

/-! ## Constants -/

def DESC_VALID : Word := 0x1
def DESC_TABLE : Word := 0x2
def ATTR_NORMAL : Word := 0x4
def ATTR_DEVICE : Word := 0x0
def DESC_AF : Word := 0x400
def DESC_PXN : Word := 0x20000000000000
def DESC_UXN : Word := 0x40000000000000
def DESC_SH_IS : Word := 0x300
def DESC_SH_NS : Word := 0x000
def AP_MASK : Word := 0x0C0
def AP_KERNEL_RW : Word := 0x000
def AP_USER_RW : Word := 0x040
def AP_KERNEL_RO : Word := 0x080
def AP_USER_RO : Word := 0x0C0
def PA_MASK : Word := 0xffffffffff000
def BLOCK_OA_MASK : Word := 0xffffffe00000
def PA_LIMIT : Word := 0x10000000000
def SOFTWARE_PROTNONE : Word := 1 <<< 55
def SOFTWARE_COW : Word := 1 <<< 56
def SW_ALLOWED_MASK : Word := SOFTWARE_PROTNONE ||| SOFTWARE_COW

def KERNEL_RO : Perm := 1
def KERNEL_RW : Perm := 2
def USER_RO : Perm := 4
def USER_RW : Perm := 8
def EXEC : Perm := 16
def DEVICE : Perm := 32
def PERM_ALL_BITS : Perm := KERNEL_RO ||| KERNEL_RW ||| USER_RO ||| USER_RW ||| EXEC ||| DEVICE

/-! ## Encoding and decoding -/

/-- `encode_table_desc`. -/
def encodeTableDesc (pa : Word) : Word := DESC_VALID ||| DESC_TABLE ||| (pa &&& PA_MASK)

/-- `parent_pa`; `none` for `EINVAL`. -/
def parentPa (desc : Word) : Option Word :=
  if desc &&& DESC_VALID = 0 then none
  else if desc &&& DESC_TABLE = 0 then none
  else
    let pa := desc &&& PA_MASK
    if pa = 0 then none
    else if pa &&& 0xfff ≠ 0 then none
    else if PA_LIMIT ≤ pa then none
    else some pa

/-- `encode_perm`; `none` for `EINVAL`. -/
def encodePerm (perm : Perm) : Option Word :=
  if perm &&& ~~~PERM_ALL_BITS ≠ 0 then none
  else if perm &&& DEVICE ≠ 0 ∧ perm &&& EXEC ≠ 0 then none
  else
    let hasKernel := perm &&& (KERNEL_RO ||| KERNEL_RW) != 0
    let hasUser := perm &&& (USER_RO ||| USER_RW) != 0
    if hasKernel = hasUser then none
    else
      let isRw := perm &&& (KERNEL_RW ||| USER_RW) != 0
      let isRo := perm &&& (KERNEL_RO ||| USER_RO) != 0
      if isRw = isRo then none
      else
        let isExec := perm &&& EXEC != 0
        let isDevice := perm &&& DEVICE != 0
        let ap :=
          if hasKernel then (if isRw then AP_KERNEL_RW else AP_KERNEL_RO)
          else (if isRw then AP_USER_RW else AP_USER_RO)
        let attr := if isDevice then ATTR_DEVICE else ATTR_NORMAL
        let sh := if isDevice then DESC_SH_NS else DESC_SH_IS
        let pxn := if !isDevice && isExec && hasKernel then 0 else DESC_PXN
        let uxn := if !isDevice && isExec && !hasKernel then 0 else DESC_UXN
        some (DESC_VALID ||| DESC_TABLE ||| DESC_AF ||| attr ||| sh ||| ap ||| pxn ||| uxn)

/-- `decode_perm`: the permission and the software bits; `none` for `EINVAL`. -/
def decodePerm (desc : Word) : Option (Perm × Word) :=
  if desc &&& DESC_VALID = 0 then none
  else if desc &&& DESC_TABLE = 0 then none
  else
    let attr := desc &&& (0x7 <<< 2)
    let ap := desc &&& AP_MASK
    let device := if attr = ATTR_DEVICE then DEVICE else 0
    let isRo := ap &&& 0x80 != 0
    let isKernel := ap &&& 0x40 == 0
    let access :=
      if isKernel then (if isRo then KERNEL_RO else KERNEL_RW)
      else (if isRo then USER_RO else USER_RW)
    let exec := if isKernel then desc &&& DESC_PXN == 0 else desc &&& DESC_UXN == 0
    some (device ||| access ||| (if exec then EXEC else 0), desc &&& SW_ALLOWED_MASK)

/-- `build_leaf_desc`; `none` for `EINVAL`. -/
def buildLeafDesc (pa : Word) (perm : Perm) (sw : Word) : Option Word :=
  match encodePerm perm with
  | none => none
  | some base =>
    if sw &&& ~~~SW_ALLOWED_MASK ≠ 0 then none
    else if sw &&& SW_ALLOWED_MASK = SW_ALLOWED_MASK then none
    else
      let base := if sw &&& SOFTWARE_PROTNONE ≠ 0 then base &&& ~~~DESC_VALID else base
      some (base ||| (pa &&& PA_MASK) ||| sw)

/-- `aarch64_pt_encode_block_desc`. -/
def encodeBlockDesc (pa : Word) (perm : Perm) (softwareBits : Word) : Word :=
  let base := (encodePerm perm).getD ((encodePerm KERNEL_RO).getD 0)
  let sw := softwareBits &&& SW_ALLOWED_MASK
  (base &&& ~~~DESC_TABLE) ||| DESC_VALID ||| (pa &&& BLOCK_OA_MASK) ||| sw

/-- The descriptor of leaf `i` that `aarch64_pt_split_block_2m` makes of the block descriptor `d`. -/
def splitLeaf (d : Word) (i : Nat) : Word :=
  let blockPa := d &&& BLOCK_OA_MASK
  let leafBase := (d ||| DESC_TABLE) &&& ~~~PA_MASK
  leafBase ||| ((blockPa + BitVec.ofNat 64 (i * 4096)) &&& PA_MASK)

/-! ## Permission bits -/

variable {perm : Perm} {base c low pa x d m : Word} {i : Nat}

/-- A legal permission word is less than 64. -/
lemma toNat_lt_of_legal (h : perm &&& ~~~PERM_ALL_BITS = 0) : perm.toNat < 64 := by
  have hspl : perm = (perm &&& ~~~PERM_ALL_BITS) ||| (perm &&& PERM_ALL_BITS) := by
    rw [← and_or_distrib_left]
    have hall : ~~~PERM_ALL_BITS ||| PERM_ALL_BITS = allOnes 32 := rfl
    rw [hall, and_allOnes]
  rw [h] at hspl
  change perm = 0#32 ||| _ at hspl
  rw [zero_or] at hspl
  have hm : PERM_ALL_BITS.toNat = 2 ^ 6 - 1 := rfl
  have hand := congrArg BitVec.toNat hspl
  rw [toNat_and, hm, Nat.and_two_pow_sub_one_eq_mod] at hand
  omega

/-- What is known of the descriptor bits of a permission: bits 0 and 1 are set, the address and the
software bits are clear, and the word is read back. -/
structure PermBits (perm : Perm) (base : Word) : Prop where
  valid : base &&& DESC_VALID = DESC_VALID
  table : base &&& DESC_TABLE = DESC_TABLE
  address : base &&& PA_MASK = 0
  software : base &&& SW_ALLOWED_MASK = 0
  decode : decodePerm base = some (perm, 0)

instance (perm : Perm) (base : Word) : Decidable (PermBits perm base) :=
  decidable_of_iff (base &&& DESC_VALID = DESC_VALID ∧ base &&& DESC_TABLE = DESC_TABLE ∧
      base &&& PA_MASK = 0 ∧ base &&& SW_ALLOWED_MASK = 0 ∧ decodePerm base = some (perm, 0))
    ⟨fun ⟨h₁, h₂, h₃, h₄, h₅⟩ => ⟨h₁, h₂, h₃, h₄, h₅⟩,
      fun ⟨h₁, h₂, h₃, h₄, h₅⟩ => ⟨h₁, h₂, h₃, h₄, h₅⟩⟩

/-- The permission words, one by one. -/
lemma permBits_of_lt : ∀ p : Fin 64, (encodePerm (BitVec.ofNat 32 p.val)).all
    (fun base => decide (PermBits (BitVec.ofNat 32 p.val) base)) = true := by
  decide

lemma encodePerm_facts (h : encodePerm perm = some base) : PermBits perm base := by
  have hlegal : perm &&& ~~~PERM_ALL_BITS = 0 := by
    by_contra hne
    rw [encodePerm, if_pos hne] at h
    cases h
  have hlt := toNat_lt_of_legal hlegal
  have hp : BitVec.ofNat 32 perm.toNat = perm := by rw [BitVec.ofNat_toNat, BitVec.setWidth_eq]
  have hfacts := permBits_of_lt ⟨perm.toNat, hlt⟩
  rw [hp, h] at hfacts
  exact of_decide_eq_true hfacts

/-! ## Addresses -/

/-- An address the low bits of which are clear and that is small enough is kept by a mask of the rest. -/
lemma and_mask_eq {mask : Word} (k : Nat) (hcover : (low ||| mask) ||| (allOnes 64 <<< k) = allOnes 64)
    (hlow : c &&& low = 0) (hlt : c.toNat < 2 ^ k) : c &&& mask = c := by
  have hhg : c &&& (allOnes 64 <<< k) = 0#64 := by
    refine eq_of_getLsbD_eq fun i hi => ?_
    rw [getLsbD_and, getLsbD_zero]
    by_cases hik : i < k
    · simp [hik]
    · have hle : c.toNat < 2 ^ i := lt_of_lt_of_le hlt (Nat.pow_le_pow_right (by decide) (by omega))
      rw [getLsbD, Nat.testBit_lt_two_pow hle, Bool.false_and]
  calc c &&& mask = (0#64 ||| (c &&& mask)) ||| 0#64 := by rw [zero_or, or_zero]
    _ = ((c &&& low) ||| (c &&& mask)) ||| (c &&& (allOnes 64 <<< k)) := by rw [hlow, hhg]; rfl
    _ = c := by
      rw [← and_or_distrib_left, ← and_or_distrib_left, hcover, and_allOnes]

/-- The test `(c & (2^k - 1)) == 0`. -/
lemma and_low_eq_zero_iff (c : Word) {k : Nat} (hlow : low.toNat = 2 ^ k - 1) :
    c &&& low = 0 ↔ c.toNat % 2 ^ k = 0 := by
  rw [← toNat_inj, toNat_and, hlow, Nat.and_two_pow_sub_one_eq_mod]
  rfl

/-- The addresses of pages the tables can hold. -/
structure PageAddr (pa : Word) : Prop where
  aligned : pa &&& 0xfff = 0
  below : pa < PA_LIMIT

lemma PageAddr.toNat_lt (h : PageAddr pa) : pa.toNat < 2 ^ 40 := by
  have hlt := lt_def.1 h.below
  have hlim : PA_LIMIT.toNat = 2 ^ 40 := rfl
  omega

lemma PageAddr.and_mask (h : PageAddr pa) : pa &&& PA_MASK = pa :=
  and_mask_eq 52 rfl h.aligned (by have := h.toNat_lt; omega)

/-- The addresses of 2 MiB blocks. -/
structure BlockAddr (pa : Word) : Prop where
  aligned : pa &&& 0x1fffff = 0
  below : pa < PA_LIMIT

lemma BlockAddr.toNat_lt (h : BlockAddr pa) : pa.toNat < 2 ^ 40 := by
  have hlt := lt_def.1 h.below
  have hlim : PA_LIMIT.toNat = 2 ^ 40 := rfl
  omega

lemma BlockAddr.and_mask (h : BlockAddr pa) : pa &&& BLOCK_OA_MASK = pa :=
  and_mask_eq 48 rfl h.aligned (by have := h.toNat_lt; omega)

/-- The pages of a block are pages. -/
lemma BlockAddr.page (h : BlockAddr pa) (hi : i < 512) : PageAddr (pa + BitVec.ofNat 64 (i * 4096)) := by
  have hmod : pa.toNat % 2 ^ 21 = 0 := (and_low_eq_zero_iff pa rfl).1 h.aligned
  have hlt := h.toNat_lt
  have hsum : (pa + BitVec.ofNat 64 (i * 4096)).toNat = pa.toNat + i * 4096 := by
    rw [toNat_add, toNat_ofNat]
    omega
  refine ⟨(and_low_eq_zero_iff _ (by decide : (0xfff : Word).toNat = 2 ^ 12 - 1)).2 ?_, ?_⟩
  · rw [hsum]
    omega
  · have hlim : PA_LIMIT.toNat = 2 ^ 40 := rfl
    rw [lt_def]
    omega

/-! ## Descriptors that were built here -/

/-- Bits set outside a mask are not seen through it. -/
lemma or_and_of_disjoint {y : Word} (h : y &&& m = 0) : (x ||| y) &&& m = x &&& m := by
  rw [and_or_distrib_right, h]
  exact or_zero

/-- Two masks commute. -/
lemma and_right_comm (x a b : Word) : (x &&& a) &&& b = (x &&& b) &&& a := by
  rw [BitVec.and_assoc, BitVec.and_comm a, ← BitVec.and_assoc]

/-- An address is seen only through the address bits. -/
lemma and_mask_and (h : PA_MASK &&& m = 0) : (pa &&& PA_MASK) &&& m = 0 := by
  rw [BitVec.and_assoc, h]
  exact and_zero

/-- A table descriptor leads to its table. -/
lemma parentPa_encodeTableDesc (hc : PageAddr c) (h0 : c ≠ 0) : parentPa (encodeTableDesc c) = some c := by
  have hV : encodeTableDesc c &&& DESC_VALID = DESC_VALID := by
    rw [encodeTableDesc, or_and_of_disjoint (and_mask_and (by decide))]
    decide
  have hT : encodeTableDesc c &&& DESC_TABLE = DESC_TABLE := by
    rw [encodeTableDesc, or_and_of_disjoint (and_mask_and rfl)]
    rfl
  have hP : encodeTableDesc c &&& PA_MASK = c := by
    rw [encodeTableDesc, hc.and_mask, and_or_distrib_right, hc.and_mask]
    have hz : (DESC_VALID ||| DESC_TABLE) &&& PA_MASK = 0#64 := rfl
    rw [hz, zero_or]
  have hbel : ¬ PA_LIMIT ≤ c := BitVec.not_le.2 hc.below
  simp only [parentPa, hV, hT, hP]
  rw [if_neg (by decide), if_neg (by decide), if_neg h0, if_neg (not_not.2 hc.aligned), if_neg hbel]

/-- What a page descriptor stands for. -/
structure Mapping where
  pa : Word
  perm : Perm
  sw : Word
  deriving DecidableEq, Repr

/-- A mapping that is kept without access. -/
def Mapping.stash (m : Mapping) : Prop := m.sw &&& SOFTWARE_PROTNONE ≠ 0

instance (m : Mapping) : Decidable m.stash := inferInstanceAs (Decidable (_ ≠ _))

/-- `d` is the page descriptor of the mapping `m`. -/
structure LeafOf (d : Word) (m : Mapping) : Prop where
  built : buildLeafDesc m.pa m.perm m.sw = some d
  page : PageAddr m.pa

/-- The software words that `build_leaf_desc` accepts. -/
lemma sw_cases {sw : Word} (h : sw &&& ~~~SW_ALLOWED_MASK = 0)
    (hne : sw &&& SW_ALLOWED_MASK ≠ SW_ALLOWED_MASK) :
    sw = 0 ∨ sw = SOFTWARE_COW ∨ sw = SOFTWARE_PROTNONE := by
  have hspl : sw = sw &&& SW_ALLOWED_MASK := by
    calc sw = sw &&& (~~~SW_ALLOWED_MASK ||| SW_ALLOWED_MASK) := by
          have hall : ~~~SW_ALLOWED_MASK ||| SW_ALLOWED_MASK = allOnes 64 := rfl
          rw [hall, and_allOnes]
      _ = sw &&& SW_ALLOWED_MASK := by
          rw [and_or_distrib_left, h]
          exact zero_or
  have hb : sw = (if sw.getLsbD 55 then SOFTWARE_PROTNONE else 0) |||
      (if sw.getLsbD 56 then SOFTWARE_COW else 0) := by
    have hP : sw &&& SOFTWARE_PROTNONE = if sw.getLsbD 55 then SOFTWARE_PROTNONE else 0 := by
      have := and_twoPow sw 55
      exact this
    have hC : sw &&& SOFTWARE_COW = if sw.getLsbD 56 then SOFTWARE_COW else 0 := by
      have := and_twoPow sw 56
      exact this
    rw [← hP, ← hC, ← and_or_distrib_left]
    exact hspl
  cases h55 : sw.getLsbD 55 <;> cases h56 : sw.getLsbD 56 <;> rw [h55, h56] at hb
  · exact .inl (by rw [hb]; decide)
  · exact .inr (.inl (by rw [hb]; decide))
  · exact .inr (.inr (by rw [hb]; decide))
  · exact absurd (by rw [hb]; decide) hne

/-- Decoding looks only at bits that neither the address nor the software bits of a live page set. -/
lemma decodePerm_or (h : decodePerm base = some (perm, 0))
    (hx : x &&& ~~~(PA_MASK ||| SW_ALLOWED_MASK) = 0) (hsw : base &&& SW_ALLOWED_MASK = 0) :
    decodePerm (base ||| x) = some (perm, x &&& SW_ALLOWED_MASK) := by
  have hsee : ∀ m : Word, ~~~(PA_MASK ||| SW_ALLOWED_MASK) &&& m = m → (base ||| x) &&& m = base &&& m := by
    intro m hm
    apply or_and_of_disjoint
    rw [← hm, ← BitVec.and_assoc, hx]
    exact zero_and
  have hout : (base ||| x) &&& SW_ALLOWED_MASK = x &&& SW_ALLOWED_MASK := by
    rw [and_or_distrib_right, hsw]
    exact zero_or
  simp only [decodePerm] at h ⊢
  rw [hsee DESC_VALID rfl, hsee DESC_TABLE rfl, hsee (0x7 <<< 2) rfl, hsee AP_MASK rfl,
    hsee DESC_PXN rfl, hsee DESC_UXN rfl, hout]
  split at h
  · cases h
  rename_i hV
  rw [if_neg hV]
  split at h
  · cases h
  · rename_i hT
    rw [if_neg hT]
    rw [some.injEq, Prod.mk.injEq] at h
    rw [h.1]

variable {m : Mapping}

/-- A page descriptor, field by field. -/
lemma LeafOf.eq (h : LeafOf d m) : ∃ base, PermBits m.perm base ∧
      ((m.sw = SOFTWARE_PROTNONE ∧ d = ((base &&& ~~~DESC_VALID) ||| m.pa) ||| m.sw) ∨
        ((m.sw = 0 ∨ m.sw = SOFTWARE_COW) ∧ d = (base ||| m.pa) ||| m.sw)) := by
  have hb := h.built
  rw [buildLeafDesc, h.page.and_mask] at hb
  cases he : encodePerm m.perm with
  | none => rw [he] at hb; cases hb
  | some base =>
    rw [he] at hb
    refine ⟨base, encodePerm_facts he, ?_⟩
    split_ifs at hb with hill hbt hp
    · -- the stash
      obtain h0 | hcow | hpn := sw_cases (not_not.1 hill) hbt
      · rw [h0] at hp
        exact absurd rfl hp
      · rw [hcow] at hp
        exact absurd rfl hp
      · exact .inl ⟨hpn, (some.inj hb).symm⟩
    · obtain h0 | hcow | hpn := sw_cases (not_not.1 hill) hbt
      · exact .inr ⟨.inl h0, (some.inj hb).symm⟩
      · exact .inr ⟨.inr hcow, (some.inj hb).symm⟩
      · rw [hpn] at hp
        exact absurd (by decide) hp

/-- A page's address is clear outside the address bits. -/
lemma PageAddr.and_of_disjoint {m : Word} (h : PageAddr pa) (hm : PA_MASK &&& m = 0) : pa &&& m = 0 := by
  rw [← h.and_mask]
  exact and_mask_and hm

/-- The address is read back. -/
lemma LeafOf.address (h : LeafOf d m) : d &&& PA_MASK = m.pa := by
  obtain ⟨base, hbs, hc⟩ := h.eq
  have hout : ∀ b sw : Word, b &&& PA_MASK = 0 → sw &&& PA_MASK = 0 →
      ((b ||| m.pa) ||| sw) &&& PA_MASK = m.pa := by
    intro b sw hb hsw
    rw [or_and_of_disjoint hsw, and_or_distrib_right, hb, h.page.and_mask]
    exact zero_or
  obtain ⟨hpn, rfl⟩ | ⟨hsw, rfl⟩ := hc
  · apply hout
    · rw [and_right_comm, hbs.address]
      exact zero_and
    · rw [hpn]
      rfl
  apply hout
  · exact hbs.address
  · obtain h0 | hcow := hsw
    · rw [h0]
      rfl
    · rw [hcow]
      rfl

/-- A live page is valid, and decoded to its permission and software bits. -/
lemma LeafOf.live (h : LeafOf d m) (hl : ¬ m.stash) :
    d &&& DESC_VALID ≠ 0 ∧ d &&& DESC_TABLE ≠ 0 ∧ decodePerm d = some (m.perm, m.sw) := by
  obtain ⟨base, hb, ⟨hpn, rfl⟩ | ⟨hsw, rfl⟩⟩ := h.eq
  · refine absurd ?_ hl
    rw [Mapping.stash, hpn]
    decide
  have hswout : ∀ w : Word, SOFTWARE_COW &&& w = 0 → m.sw &&& w = 0 := by
    intro w hw
    obtain h0 | hcow := hsw
    · rw [h0]
      exact zero_and
    · rw [hcow, hw]
  have hV : ((base ||| m.pa) ||| m.sw) &&& DESC_VALID = DESC_VALID := by
    rw [or_and_of_disjoint (hswout _ rfl), or_and_of_disjoint (h.page.and_of_disjoint rfl), hb.valid]
  have hT : ((base ||| m.pa) ||| m.sw) &&& DESC_TABLE = DESC_TABLE := by
    rw [or_and_of_disjoint (hswout _ rfl), or_and_of_disjoint (h.page.and_of_disjoint rfl), hb.table]
  refine ⟨by rw [hV]; decide, by rw [hT]; decide, ?_⟩
  have hx : (m.pa ||| m.sw) &&& ~~~(PA_MASK ||| SW_ALLOWED_MASK) = 0 := by
    rw [or_and_of_disjoint (hswout _ rfl)]
    exact h.page.and_of_disjoint rfl
  have hsee : (m.pa ||| m.sw) &&& SW_ALLOWED_MASK = m.sw := by
    rw [and_or_distrib_right, h.page.and_of_disjoint rfl]
    obtain h0 | hcow := hsw
    · rw [h0]
      rfl
    · rw [hcow]
      rfl
  rw [BitVec.or_assoc, decodePerm_or hb.decode hx hb.software, hsee]

/-- A stash is not valid, and recognised by its software bit. -/
lemma LeafOf.stashed (h : LeafOf d m) (hstash : m.stash) :
    d &&& DESC_VALID = 0 ∧ d &&& SOFTWARE_PROTNONE ≠ 0 := by
  obtain ⟨base, hb, ⟨hpn, rfl⟩ | ⟨hsw, rfl⟩⟩ := h.eq
  · constructor
    · rw [hpn, or_and_of_disjoint rfl, or_and_of_disjoint (h.page.and_of_disjoint rfl), BitVec.and_assoc]
      exact and_zero
    have hs : SOFTWARE_PROTNONE &&& SOFTWARE_PROTNONE = SOFTWARE_PROTNONE := and_self
    intro hz
    rw [hpn, and_or_distrib_right, hs] at hz
    have hbit := congrArg (fun w : Word => w.getLsbD 55) hz
    rw [getLsbD_or] at hbit
    have hone : SOFTWARE_PROTNONE.getLsbD 55 = true := rfl
    rw [hone, Bool.or_true] at hbit
    exact absurd hbit (by decide)
  · refine absurd hstash ?_
    rw [Mapping.stash]
    obtain h0 | hcow := hsw
    · rw [h0]
      decide
    · rw [hcow]
      decide

/-- `d` is the descriptor of the 2 MiB block at `pa` with permission `perm`. -/
structure BlockOf (d : Word) (pa : Word) (perm : Perm) : Prop where
  built : d = encodeBlockDesc pa perm 0
  legal : (encodePerm perm).isSome = true
  block : BlockAddr pa

/-- A block descriptor, field by field. -/
lemma BlockOf.eq (h : BlockOf d pa perm) :
    ∃ base, encodePerm perm = some base ∧ d = ((base &&& ~~~DESC_TABLE) ||| DESC_VALID) ||| pa := by
  obtain ⟨base, he⟩ := isSome_iff_exists.1 h.legal
  refine ⟨base, he, ?_⟩
  have hsw : (0 : Word) &&& SW_ALLOWED_MASK = 0#64 := rfl
  rw [h.built]
  simp only [encodeBlockDesc, he, getD_some]
  rw [hsw, or_zero, h.block.and_mask]

/-- A block's address is clear outside the address bits. -/
lemma BlockAddr.and_of_disjoint {m : Word} (h : BlockAddr pa) (hm : BLOCK_OA_MASK &&& m = 0) :
    pa &&& m = 0 := by
  rw [← h.and_mask, BitVec.and_assoc, hm]
  exact and_zero

variable (h : BlockOf d pa perm)
include h

lemma BlockOf.valid : d &&& DESC_VALID ≠ 0 := by
  obtain ⟨base, he, rfl⟩ := h.eq
  have hV : ((base &&& ~~~DESC_TABLE) ||| DESC_VALID) &&& DESC_VALID = DESC_VALID := by
    rw [and_or_distrib_right, and_right_comm, (encodePerm_facts he).valid]
    rfl
  rw [or_and_of_disjoint (h.block.and_of_disjoint rfl), hV]
  decide

lemma BlockOf.not_table : d &&& DESC_TABLE = 0 := by
  obtain ⟨base, he, rfl⟩ := h.eq
  rw [or_and_of_disjoint (h.block.and_of_disjoint rfl), or_and_of_disjoint rfl, BitVec.and_assoc]
  exact and_zero

/-- What is left of a block descriptor without its address is the permission, once the type is that of
a page. -/
lemma BlockOf.fields :
    ∃ base, encodePerm perm = some base ∧ d &&& BLOCK_OA_MASK = pa ∧ d ||| DESC_TABLE = base ||| pa := by
  obtain ⟨base, he, rfl⟩ := h.eq
  have hb := encodePerm_facts he
  have hboa : base &&& BLOCK_OA_MASK = 0 := by
    have hsub : PA_MASK &&& BLOCK_OA_MASK = BLOCK_OA_MASK := rfl
    rw [← hsub, ← BitVec.and_assoc, hb.address]
    exact zero_and
  have hp : ((base &&& ~~~DESC_TABLE) ||| DESC_VALID) ||| DESC_TABLE = base := by
    have hV : base ||| DESC_VALID = base := by
      rw [← hb.valid]
      ext i hi
      rw [getElem_or, getElem_and]
      cases base[i] <;> rfl
    have hT : (base &&& ~~~DESC_TABLE) ||| (base &&& DESC_TABLE) = base := by
      have hall : ~~~DESC_TABLE ||| DESC_TABLE = allOnes 64 := rfl
      rw [← and_or_distrib_left, hall, and_allOnes]
    rw [hb.table] at hT
    rw [BitVec.or_assoc, BitVec.or_comm DESC_VALID, ← BitVec.or_assoc, hT, hV]
  refine ⟨base, he, ?_, ?_⟩
  · rw [and_or_distrib_right, h.block.and_mask, and_or_distrib_right, and_right_comm, hboa]
    have hz : (0 : Word) &&& ~~~DESC_TABLE ||| DESC_VALID &&& BLOCK_OA_MASK = 0#64 := rfl
    rw [hz, zero_or]
  · rw [BitVec.or_assoc, BitVec.or_comm pa, ← BitVec.or_assoc, hp]

/-- The block is seen by the hardware with its own permission. -/
lemma BlockOf.decode : decodePerm (d ||| DESC_TABLE) = some (perm, 0) := by
  obtain ⟨base, he, -, hd⟩ := h.fields
  have hb := encodePerm_facts he
  rw [hd, decodePerm_or hb.decode (h.block.and_of_disjoint rfl) hb.software, h.block.and_of_disjoint rfl]

/-- **Splitting a block**: leaf `i` is the page descriptor of page `i` of the block. -/
lemma BlockOf.leaf (hi : i < 512) : LeafOf (splitLeaf d i) ⟨pa + BitVec.ofNat 64 (i * 4096), perm, 0⟩ := by
  obtain ⟨base, he, hpa, hd⟩ := h.fields
  have hb := encodePerm_facts he
  have hr : (d ||| DESC_TABLE) &&& ~~~PA_MASK = base := by
    rw [hd, and_or_distrib_right, h.block.and_of_disjoint rfl]
    have hall : ~~~PA_MASK ||| PA_MASK = allOnes 64 := rfl
    calc base &&& ~~~PA_MASK ||| 0 = base &&& ~~~PA_MASK ||| base &&& PA_MASK := by rw [hb.address]
      _ = base := by rw [← and_or_distrib_left, hall, and_allOnes]
  have hp := h.block.page hi
  refine ⟨?_, hp⟩
  have hill : (0 : Word) &&& ~~~SW_ALLOWED_MASK = 0 := zero_and
  have hbt : (0 : Word) &&& SW_ALLOWED_MASK ≠ SW_ALLOWED_MASK := by decide
  have hpr : ¬ (0 : Word) &&& SOFTWARE_PROTNONE ≠ 0 := by decide
  simp only [buildLeafDesc, he, splitLeaf]
  rw [if_neg hpr, hr, hpa]
  exact congrArg some or_zero

end OS01.Aarch64
