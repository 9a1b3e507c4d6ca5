import OS01.Lib.Count
import OS01.Memory.PhysMem

/-!
# Page tables

The user half of a four-level page table (`kernel/memory/vmm.c`), level by level. A table is indexed
by the bits of the virtual address down to its level: `pgd` by `va / 2 ^ 39`, `pud` by
`va / 2 ^ 30`, `pmd` by `va / 2 ^ 21`, `pte` by the page number `va / 2 ^ 12`. The fields of the
structure say that nothing hangs below a missing table, so an entry that a walk cannot reach is
clear.

An entry of the lowest level carries the bits some code reads: `PAGE_VALID`, `PAGE_WRITE`,
`PAGE_USER`, `PAGE_PROTNONE` and `PAGE_COW`; the other low bits are kept together in `other`. No
4 KiB entry of this kernel carries `PAGE_NO_EXEC`.
-/

namespace OS01.Memory

open Function Lib PhysMem

/-! ## Entries -/

/-- A 4 KiB entry; `phys` is a frame number. -/
structure Pte where
  phys : Nat := 0
  (valid write user protnone cow : Bool := false)
  other : Nat := 0
deriving DecidableEq, Repr

namespace Pte

/-- The entry 0. -/
def clear : Pte := {}

/-- `pte & (PAGE_VALID | PAGE_PROTNONE)`. -/
def present (e : Pte) : Bool := e.valid || e.protnone

/-- `phys | vm_page_prot`. -/
def ofProt (phys : Nat) : PageProt → Pte
  | .none => { phys, user := true }
  | .ro => { phys, user := true, valid := true }
  | .rw => { phys, user := true, write := true, valid := true }

/-- The stash of `mprotect(PROT_NONE)`: the frame and its copy-on-write bit are kept. -/
def stash (e : Pte) : Pte := { phys := e.phys, user := true, protnone := true, cow := e.cow }

end Pte

/-- A leaf of the third level. -/
structure HugeEntry where
  /-- Number of the two-megabyte frame. -/
  phys : Nat
  write : Bool
  user : Bool
  noExec : Bool
deriving DecidableEq, Repr

/-- An entry of the third level. -/
inductive Pmde
  | absent
  | huge (e : HugeEntry)
  | table (id : Nat)
deriving DecidableEq, Repr

/-- Whether an entry of the third level points to a table. -/
def Pmde.isTable : Pmde → Bool
  | table _ => true
  | _ => false

/-- The user half of a page table; `root` is the top table itself. -/
structure PageTable where
  root : Nat
  pgd : Nat → Option Nat
  pud : Nat → Option Nat
  pmd : Nat → Pmde
  pte : Nat → Pte
  userHalf : ∀ i, (pgd i).isSome → i < 256
  pudBacked : ∀ k, (pud k).isSome → (pgd (k / 512)).isSome
  pmdBacked : ∀ k, pmd k ≠ .absent → (pud (k / 512)).isSome
  pteBacked : ∀ n, pte n ≠ Pte.clear → (pmd (n / 512)).isTable

namespace PageTable

/-- The table `calloc` returns, with nothing in its user half. -/
def empty (root : Nat) : PageTable where
  root := root
  pgd := fun _ => none
  pud := fun _ => none
  pmd := fun _ => .absent
  pte := fun _ => Pte.clear
  userHalf := by simp
  pudBacked := by simp
  pmdBacked := by simp
  pteBacked := by simp

variable (pt : PageTable)

/-- Store an entry of the lowest level, where there is a table to hold it. -/
def setPte (n : Nat) (e : Pte) : PageTable :=
  if h : (pt.pmd (n / 512)).isTable then
    { pt with
      pte := update pt.pte n e
      pteBacked := by
        intro k hk
        by_cases hkn : k = n
        · exact hkn ▸ h
        · rw [update_of_ne hkn] at hk
          exact pt.pteBacked k hk }
  else pt

/-- Hang a second-level table into the first. -/
def addPud (i t : Nat) : PageTable :=
  if h : i < 256 then
    { pt with
      pgd := update pt.pgd i (some t)
      userHalf := by
        intro j hj
        by_cases hji : j = i
        · exact hji ▸ h
        · rw [update_of_ne hji] at hj
          exact pt.userHalf j hj
      pudBacked := by
        intro k hk
        by_cases hki : k / 512 = i
        · rw [hki, update_self]
          rfl
        · rw [update_of_ne hki]
          exact pt.pudBacked k hk }
  else pt

/-- Hang a third-level table into the second. -/
def addPmd (k t : Nat) : PageTable :=
  if h : (pt.pgd (k / 512)).isSome then
    { pt with
      pud := update pt.pud k (some t)
      pudBacked := by
        intro j hj
        by_cases hjk : j = k
        · exact hjk ▸ h
        · rw [update_of_ne hjk] at hj
          exact pt.pudBacked j hj
      pmdBacked := by
        intro j hj
        by_cases hjk : j / 512 = k
        · rw [hjk, update_self]
          rfl
        · rw [update_of_ne hjk]
          exact pt.pmdBacked j hj }
  else pt

/-- Fill an absent entry of the third level. -/
def addPmde (k : Nat) (e : Pmde) : PageTable :=
  if h : (pt.pud (k / 512)).isSome ∧ pt.pmd k = .absent then
    { pt with
      pmd := update pt.pmd k e
      pmdBacked := by
        intro j hj
        by_cases hjk : j = k
        · exact hjk ▸ h.1
        · rw [update_of_ne hjk] at hj
          exact pt.pmdBacked j hj
      pteBacked := by
        intro n hn
        have htable := pt.pteBacked n hn
        by_cases hnk : n / 512 = k
        · rw [hnk, h.2] at htable
          cases htable
        · rw [update_of_ne hnk]
          exact htable }
  else pt

/-! ## Walking -/

/-- The page number of an address, as the index bits of the four levels give it. -/
def pageOf (va : Nat) : Nat := va / 4096 % 2 ^ 36

/-- `vmm_pt_walk` without allocation: the slot, unless a table is missing or the entry above is a
huge page. -/
def walk (va : Nat) : Option Nat :=
  let n := pageOf va
  if 256 ≤ n / 2 ^ 27 then none
  else if (pt.pgd (n / 2 ^ 27)).isNone then none
  else if (pt.pud (n / 2 ^ 18)).isNone then none
  else
    match pt.pmd (n / 512) with
    | .huge _ => none
    | .absent => none
    | .table _ => some n

variable (m : PhysMem)

/-- The first level of `vmm_pt_walk` with allocation: a missing table is allocated and hung in. -/
def ensurePud (pt : PageTable) (i : Nat) (o : Option Nat) :
    PhysMem × PageTable × Bool :=
  if (pt.pgd i).isSome then (m, pt, true)
  else
    match m.callocTable o with
    | (m', none) => (m', pt, false)
    | (m', some t) => (m', pt.addPud i t, true)

/-- The second level. -/
def ensurePmd (pt : PageTable) (k : Nat) (o : Option Nat) :
    PhysMem × PageTable × Bool :=
  if (pt.pud k).isSome then (m, pt, true)
  else
    match m.callocTable o with
    | (m', none) => (m', pt, false)
    | (m', some t) => (m', pt.addPmd k t, true)

/-- The third level, which refuses to walk into a huge page. -/
def ensurePt (pt : PageTable) (k : Nat) (o : Option Nat) :
    PhysMem × PageTable × Bool :=
  match pt.pmd k with
  | .huge _ => (m, pt, false)
  | .table _ => (m, pt, true)
  | .absent =>
    match m.callocTable o with
    | (m', none) => (m', pt, false)
    | (m', some t) => (m', pt.addPmde k (.table t), true)

/-- `vmm_pt_walk` with allocation; `o` gives the outcomes of its three `calloc`s. A table that was
hung in stays even when a later level fails. -/
def walkAlloc (pt : PageTable) (va : Nat) (o : Fin 3 → Option Nat) :
    PhysMem × PageTable × Option Nat :=
  let n := pageOf va
  if 256 ≤ n / 2 ^ 27 then (m, pt, none)
  else
    match ensurePud m pt (n / 2 ^ 27) (o 0) with
    | (m, pt, false) => (m, pt, none)
    | (m, pt, true) =>
      match ensurePmd m pt (n / 2 ^ 18) (o 1) with
      | (m, pt, false) => (m, pt, none)
      | (m, pt, true) =>
        match ensurePt m pt (n / 512) (o 2) with
        | (m, pt, false) => (m, pt, none)
        | (m, pt, true) => (m, pt, some n)

/-- `x86_vmm_map_4k_page`: the entry is overwritten, whatever it was. The result says whether the
walk succeeded. -/
def map4kPage (pt : PageTable) (va : Nat) (e : Pte) (o : Fin 3 → Option Nat) :
    PhysMem × PageTable × Bool :=
  match walkAlloc m pt va o with
  | (m, pt, none) => (m, pt, false)
  | (m, pt, some n) => (m, pt.setPte n e, true)

/-! ## Reading tables back -/

variable {pt : PageTable} {n k va : Nat} {e : Pte}

@[simp] lemma setPte_pmd : (pt.setPte n e).pmd = pt.pmd := by
  unfold setPte
  split <;> rfl

lemma setPte_pte (h : (pt.pmd (n / 512)).isTable) : (pt.setPte n e).pte = update pt.pte n e := by
  simp [setPte, h]

/-- A walk ends in the slot of the address, which has a table. -/
lemma walk_eq_some (h : pt.walk va = some n) : n = pageOf va ∧ (pt.pmd (n / 512)).isTable := by
  simp only [walk] at h
  split_ifs at h
  split at h
  · cases h
  · cases h
  · next heq =>
      cases h
      exact ⟨rfl, by rw [heq]; rfl⟩

/-- Where there is a table, a walk finds the slot. -/
lemma walk_of_isTable (htab : (pt.pmd (pageOf va / 512)).isTable) : pt.walk va = some (pageOf va) := by
  have hpud := pt.pmdBacked _ (by intro ha; rw [ha] at htab; cases htab)
  have hpgd := pt.pudBacked _ hpud
  have hlt := pt.userHalf _ hpgd
  have h1 : pageOf va / 512 / 512 = pageOf va / 2 ^ 18 := by omega
  have h2 : pageOf va / 2 ^ 18 / 512 = pageOf va / 2 ^ 27 := by omega
  rw [h1] at hpud hpgd hlt
  rw [h2] at hpgd hlt
  unfold walk
  simp only [Nat.not_le.2 hlt, Option.isNone_iff_eq_none, Option.isSome_iff_ne_none.1 hpud,
    Option.isSome_iff_ne_none.1 hpgd]
  cases hp : pt.pmd (pageOf va / 512) with
  | absent | huge e => rw [hp] at htab; cases htab
  | table t => rfl

variable {t : Nat} {x : Pmde}

@[simp] lemma addPud_pte : (pt.addPud k t).pte = pt.pte := by
  unfold addPud
  split <;> rfl

@[simp] lemma addPmd_pte : (pt.addPmd k t).pte = pt.pte := by
  unfold addPmd
  split <;> rfl

@[simp] lemma addPmde_pte : (pt.addPmde k x).pte = pt.pte := by
  unfold addPmde
  split <;> rfl

lemma addPud_pgd (h : k < 256) : ((pt.addPud k t).pgd k).isSome := by
  simp [addPud, h]

lemma addPmd_pud (h : (pt.pgd (k / 512)).isSome) : ((pt.addPmd k t).pud k).isSome := by
  simp [addPmd, h]

lemma addPmde_pmd (h : (pt.pud (k / 512)).isSome) (ha : pt.pmd k = .absent) :
    (pt.addPmde k x).pmd = update pt.pmd k x := by
  simp [addPmde, h, ha]

/-- What the levels of an allocating walk have in common: entries, frames and contents stay. -/
structure Grown (m : PhysMem) (pt : PageTable) (m' : PhysMem) (pt' : PageTable) : Prop where
  books : SameBooks m m'
  bytes : m'.bytes = m.bytes
  pte : pt'.pte = pt.pte

variable {m : PhysMem}

lemma Grown.refl : Grown m pt m pt := ⟨.refl, rfl, rfl⟩

lemma Grown.trans {m' m'' : PhysMem} {pt' pt'' : PageTable} (h : Grown m pt m' pt')
    (h' : Grown m' pt' m'' pt'') : Grown m pt m'' pt'' :=
  ⟨h.books.trans h'.books, h'.bytes.trans h.bytes, h'.pte.trans h.pte⟩

lemma ensurePud_spec (m : PhysMem) (pt : PageTable) (hk : k < 256) (o : Option Nat) :
    Grown m pt (ensurePud m pt k o).1 (ensurePud m pt k o).2.1 ∧
      ((ensurePud m pt k o).2.2 = true → ((ensurePud m pt k o).2.1.pgd k).isSome) := by
  obtain ⟨hb, hby⟩ := callocTable_spec (m := m) o
  unfold ensurePud
  split_ifs with h
  · exact ⟨.refl, fun _ => h⟩
  split
  · next heq =>
      rw [heq] at hb hby
      exact ⟨⟨hb, hby, rfl⟩, by simp⟩
  · next heq =>
      rw [heq] at hb hby
      exact ⟨⟨hb, hby, addPud_pte⟩, fun _ => addPud_pgd hk⟩

lemma ensurePmd_spec (m : PhysMem) (hk : (pt.pgd (k / 512)).isSome) (o : Option Nat) :
    Grown m pt (ensurePmd m pt k o).1 (ensurePmd m pt k o).2.1 ∧
      ((ensurePmd m pt k o).2.2 = true → ((ensurePmd m pt k o).2.1.pud k).isSome) := by
  obtain ⟨hb, hby⟩ := callocTable_spec (m := m) o
  unfold ensurePmd
  split_ifs with h
  · exact ⟨.refl, fun _ => h⟩
  split
  · next heq =>
      rw [heq] at hb hby
      exact ⟨⟨hb, hby, rfl⟩, by simp⟩
  · next heq =>
      rw [heq] at hb hby
      exact ⟨⟨hb, hby, addPmd_pte⟩, fun _ => addPmd_pud hk⟩

lemma ensurePt_spec (m : PhysMem) (hk : (pt.pud (k / 512)).isSome) (o : Option Nat) :
    Grown m pt (ensurePt m pt k o).1 (ensurePt m pt k o).2.1 ∧
      ((ensurePt m pt k o).2.2 = true → ((ensurePt m pt k o).2.1.pmd k).isTable) := by
  obtain ⟨hb, hby⟩ := callocTable_spec (m := m) o
  unfold ensurePt
  split
  · exact ⟨.refl, by simp⟩
  · next h => exact ⟨.refl, fun _ => by rw [h]; rfl⟩
  next ha =>
    split
    · next heq =>
        rw [heq] at hb hby
        exact ⟨⟨hb, hby, rfl⟩, by simp⟩
    · next heq =>
        rw [heq] at hb hby
        refine ⟨⟨hb, hby, addPmde_pte⟩, fun _ => ?_⟩
        rw [addPmde_pmd hk ha, update_self]
        rfl

/-- **An allocating walk** changes no entry; where it ends there is a table. -/
lemma walkAlloc_spec (m : PhysMem) (pt : PageTable) (va : Nat) (o : Fin 3 → Option Nat) :
    Grown m pt (walkAlloc m pt va o).1 (walkAlloc m pt va o).2.1 ∧ ∀ n, (walkAlloc m pt va o).2.2 = some n →
        n = pageOf va ∧ ((walkAlloc m pt va o).2.1.pmd (n / 512)).isTable := by
  unfold walkAlloc
  dsimp only
  split_ifs with hhi
  · exact ⟨.refl, by simp⟩
  have h0 := ensurePud_spec m pt (show pageOf va / 2 ^ 27 < 256 by omega) (o 0)
  split
  · next heq =>
      rw [heq] at h0
      exact ⟨h0.1, by simp⟩
  next m0 pt0 heq =>
    rw [heq] at h0
    obtain ⟨hg0, hp0⟩ := h0
    have hpgd : (pt0.pgd (pageOf va / 2 ^ 18 / 512)).isSome := by
      rw [show pageOf va / 2 ^ 18 / 512 = pageOf va / 2 ^ 27 by omega]
      exact hp0 rfl
    have h1 := ensurePmd_spec m0 hpgd (o 1)
    split
    · next heq1 =>
        rw [heq1] at h1
        exact ⟨hg0.trans h1.1, by simp⟩
    next m1 pt1 heq1 =>
      rw [heq1] at h1
      obtain ⟨hg1, hp1⟩ := h1
      have hpud : (pt1.pud (pageOf va / 512 / 512)).isSome := by
        rw [show pageOf va / 512 / 512 = pageOf va / 2 ^ 18 by omega]
        exact hp1 rfl
      have h2 := ensurePt_spec m1 hpud (o 2)
      split
      · next heq2 =>
          rw [heq2] at h2
          exact ⟨(hg0.trans hg1).trans h2.1, by simp⟩
      · next m2 pt2 heq2 =>
          rw [heq2] at h2
          refine ⟨(hg0.trans hg1).trans h2.1, fun n hn => ?_⟩
          obtain rfl : pageOf va = n := by simpa using hn
          exact ⟨rfl, h2.2 rfl⟩

end PageTable

end OS01.Memory
