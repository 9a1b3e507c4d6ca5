import Mathlib.Tactic.IntervalCases
import OS01.Aarch64.PageTable

/-!
# Paths through the tables

A walk for a virtual address follows the four indices of its page number `n`. `tableAt` is the table such a
path reaches at a level and `cell` what it finds at its end: a word of a level 3 table (0 where there is no
table) or a 2 MiB block.

`Shape` is the invariant: each table page belongs to one level and one run of page numbers, and a
descriptor in it leads to the page that belongs to the corresponding part of that run. From it a write to a
table is seen by exactly the paths that go through the written slot (`cell_store_of_ne`), and linking a
fresh empty table is seen by none (`Shape.ensure`). `Walked` is what the walkers then achieve.
-/

namespace OS01.Aarch64

open Nat Option Tables

open Function

/-! ## Page numbers -/

/-- The number of pages. -/
def PAGES : Nat := 512 ^ 4

/-- The page number of an address: bits 12 to 47. -/
def pageOf (va : Word) : Nat := va.toNat / 4096 % PAGES

/-- The index of page `n` in the table of level `k` on its path. -/
def index (n k : Nat) : Nat := n / 512 ^ (3 - k) % 512

/-- The leading indices of page `n`, before level `k`. -/
def stem (n k : Nat) : Nat := n / 512 ^ (4 - k)

lemma pageOf_lt (va : Word) : pageOf va < PAGES := mod_lt _ (by decide)

lemma index_lt (n k : Nat) : index n k < 512 := mod_lt _ (by decide)

variable {n k n' j i k₀ n₀ k' : Nat} {p c pte d q : Word} {create : Option PageAllocator}

lemma stem_zero (hn : n < PAGES) : stem n 0 = 0 := div_eq_of_lt hn

lemma stem_four (n : Nat) : stem n 4 = n := Nat.div_one n

lemma index_three (n : Nat) : index n 3 = n % 512 := by
  simp [index]

lemma stem_succ (n : Nat) (hk : k < 4) : stem n (k + 1) = stem n k * 512 + index n k := by
  interval_cases k <;> simp only [stem, index] <;> omega

/-- A stem determines the shorter one and the index between. -/
lemma stem_eq_of_succ (hk : k < 4) (h : stem n (k + 1) = stem n' (k + 1)) :
    stem n k = stem n' k ∧ index n k = index n' k := by
  rw [stem_succ n hk, stem_succ n' hk] at h
  have h1 := index_lt n k
  have h2 := index_lt n' k
  omega

lemma toNat_tableIndex (va : Word) (shift : Nat) : tableIndex va shift = va.toNat / 2 ^ shift % 512 := by
  have hm : (0x1ff : Word).toNat = 2 ^ 9 - 1 := rfl
  rw [tableIndex, BitVec.toNat_and, hm, and_two_pow_sub_one_eq_mod, BitVec.toNat_ushiftRight,
    shiftRight_eq_div_pow]

@[simp] lemma tableIndex_zero (va : Word) : tableIndex va L0_SHIFT = index (pageOf va) 0 := by
  rw [toNat_tableIndex]
  simp only [L0_SHIFT, index, pageOf, PAGES]
  omega

@[simp] lemma tableIndex_one (va : Word) : tableIndex va L1_SHIFT = index (pageOf va) 1 := by
  rw [toNat_tableIndex]
  simp only [L1_SHIFT, index, pageOf, PAGES]
  omega

@[simp] lemma tableIndex_two (va : Word) : tableIndex va L2_SHIFT = index (pageOf va) 2 := by
  rw [toNat_tableIndex]
  simp only [L2_SHIFT, index, pageOf, PAGES]
  omega

@[simp] lemma tableIndex_three (va : Word) : tableIndex va L3_SHIFT = index (pageOf va) 3 := by
  rw [toNat_tableIndex]
  simp only [L3_SHIFT, index, pageOf, PAGES]
  omega

/-! ## Tables and cells on a path -/

/-- The table that the path of page `n` reaches at a level. -/
def tableAt (s : Tables) (root : Word) (n : Nat) : Nat → Option Word
  | 0 => some root
  | k + 1 => (tableAt s root n k).bind fun p => parentPa (s.word p (index n k))

/-- What is at the end of a path. -/
inductive Cell
  | page (d : Word)
  | block (d : Word)

/-- What the path of page `n` finds; `page 0` also where a table is missing. -/
def cell (s : Tables) (root : Word) (n : Nat) : Cell :=
  match tableAt s root n 2 with
  | none => .page 0
  | some pmd =>
    let d := s.word pmd (index n 2)
    if d &&& DESC_VALID ≠ 0 ∧ d &&& DESC_TABLE = 0 then .block d
    else
      match parentPa d with
      | none => .page 0
      | some pte => .page (s.word pte (index n 3))

variable {root : Word}

variable {s s' : Tables}

lemma tableAt_succ (h : tableAt s root n k = some p) :
    tableAt s root n (k + 1) = parentPa (s.word p (index n k)) := by
  rw [tableAt, h, bind_some]

lemma tableAt_succ_inv (h : tableAt s root n (k + 1) = some c) :
    ∃ p, tableAt s root n k = some p ∧ parentPa (s.word p (index n k)) = some c := bind_eq_some_iff.1 h

lemma tableAt_mono_none (h : tableAt s root n k = none) : tableAt s root n (k + 1) = none := by
  rw [tableAt, h, bind_none]

/-- A path that has ended does not go on. -/
lemma tableAt_none_of_le (h : tableAt s root n j = none) (hjk : j ≤ k) : tableAt s root n k = none := by
  induction hjk with
  | refl => exact h
  | step _ ih => exact tableAt_mono_none ih

/-- Paths with a common stem share their tables. -/
lemma tableAt_eq_of_stem (hk : k ≤ 4)
    (h : stem n k = stem n' k) : tableAt s root n k = tableAt s root n' k := by
  induction k with
  | zero => rfl
  | succ k ih =>
    obtain ⟨hs, hidx⟩ := stem_eq_of_succ (by omega) h
    rw [tableAt, tableAt, ih (by omega) hs, hidx]

/-- The words a path reads decide where it goes. -/
lemma tableAt_eq_of_agree
    (h : ∀ j < k, ∀ q, tableAt s root n j = some q → s'.word q (index n j) = s.word q (index n j)) :
    tableAt s' root n k = tableAt s root n k := by
  induction k with
  | zero => rfl
  | succ k ih =>
    have hk := ih fun j hj => h j (by omega)
    rw [tableAt, tableAt, hk]
    cases hq : tableAt s root n k with
    | none => rfl
    | some q => rw [bind_some, bind_some, h k (by omega) q hq]

/-- The words a path reads decide what it finds. -/
lemma cell_eq_of_agree
    (h : ∀ j < 4, ∀ q, tableAt s root n j = some q → s'.word q (index n j) = s.word q (index n j)) :
    cell s' root n = cell s root n := by
  rw [cell, cell, tableAt_eq_of_agree fun j hj => h j (by omega)]
  cases hpmd : tableAt s root n 2 with
  | none => rfl
  | some pmd =>
    dsimp only
    rw [h 2 (by omega) pmd hpmd]
    split_ifs with hblk
    · rfl
    · cases hpte : parentPa (s.word pmd (index n 2)) with
      | none => rfl
      | some pte =>
        dsimp only
        rw [h 3 (by omega) pte (by rw [tableAt_succ hpmd, hpte])]

/-- A path that reaches level 3 finds a word there. -/
lemma cell_of_tableAt_three (h : tableAt s root n 3 = some pte) :
    cell s root n = .page (s.word pte (index n 3)) := by
  obtain ⟨pmd, hpmd, hpte⟩ := tableAt_succ_inv h
  rw [cell, hpmd]
  dsimp only
  have htab : s.word pmd (index n 2) &&& DESC_TABLE ≠ 0 := by
    intro hz
    rw [parentPa] at hpte
    split_ifs at hpte
  rw [if_neg (fun hb => htab hb.2), hpte]

lemma parentPa_of_invalid (h : d &&& DESC_VALID = 0) : parentPa d = none := by
  rw [parentPa, if_pos h]

lemma parentPa_of_block (h : d &&& DESC_TABLE = 0) : parentPa d = none := by
  rw [parentPa, if_pos h]
  split_ifs <;> rfl

/-- Below an unused slot there is nothing. -/
lemma cell_of_invalid (hk : k < 3)
    (hp : tableAt s root n k = some p) (hd : s.word p (index n k) &&& DESC_VALID = 0) :
    cell s root n = .page 0 := by
  have hn : tableAt s root n (k + 1) = none := by rw [tableAt_succ hp, parentPa_of_invalid hd]
  rw [cell]
  rcases (by omega : k = 0 ∨ k = 1 ∨ k = 2) with rfl | rfl | rfl
  · rw [tableAt_mono_none hn]
  · rw [hn]
  · rw [hp]
    dsimp only
    rw [if_neg (fun hb => hb.1 hd), parentPa_of_invalid hd]

/-- A block at level 2. -/
lemma cell_of_block (hp : tableAt s root n 2 = some p)
    (hv : s.word p (index n 2) &&& DESC_VALID ≠ 0) (ht : s.word p (index n 2) &&& DESC_TABLE = 0) :
    cell s root n = .block (s.word p (index n 2)) := by
  rw [cell, hp]
  exact if_pos ⟨hv, ht⟩

/-! ## The invariant of the tables -/

/-- What a slot of a table of level `k` may hold, where `c` is the stem it stands for. -/
inductive SlotOk (own : Word → Option (Nat × Nat)) (k c : Nat) : Word → Prop
  | empty : SlotOk own k c 0
  | table (p : Word) (hp : PageAddr p) (h0 : p ≠ 0) (hown : own p = some (k + 1, c)) :
      SlotOk own k c (encodeTableDesc p)
  | block (d : Word) (hk : k = 2) (hv : d &&& DESC_VALID ≠ 0) (ht : d &&& DESC_TABLE = 0) :
      SlotOk own k c d

/-- The tables below `root`: `own` gives the level and the stem of each table page. -/
structure Shape (root : Word) (own : Word → Option (Nat × Nat)) (s : Tables) : Prop where
  root_own : own root = some (0, 0)
  used : ∀ p x, own p = some x → s.used p = true
  slot : ∀ p k c i, own p = some (k, c) → k < 3 → i < 512 → SlotOk own k (c * 512 + i) (s.word p i)
  unpublished : s.published root = false

variable {own : Word → Option (Nat × Nat)} {s' s₁ : Tables}

/-- Where a slot leads. -/
lemma SlotOk.child {c : Nat} (h : SlotOk own k c d) (hd : parentPa d = some p) : own p = some (k + 1, c) := by
  cases h with
  | empty =>
    cases hd
  | table q hq h0 hown =>
    rw [parentPa_encodeTableDesc hq h0, some.injEq] at hd
    exact hd ▸ hown
  | block d hk hv ht =>
    rw [parentPa_of_block ht] at hd
    cases hd

section

variable (h : Shape root own s)
include h

/-- The tables of a path own its stems. -/
lemma Shape.own_tableAt (hn : n < PAGES) (hk : k ≤ 3)
    (hp : tableAt s root n k = some p) : own p = some (k, stem n k) := by
  induction k generalizing p with
  | zero =>
    obtain rfl : root = p := some.inj hp
    rw [stem_zero hn]
    exact h.root_own
  | succ k ih =>
    obtain ⟨q, hq, hch⟩ := tableAt_succ_inv hp
    have hown := ih (by omega) hq
    have hs := h.slot q k _ (index n k) hown (by omega) (index_lt n k)
    rw [stem_succ n (by omega)]
    exact hs.child hch

/-- The slot that a path reads. -/
lemma Shape.slot_tableAt (hn : n < PAGES) (hk : k < 3)
    (hp : tableAt s root n k = some p) : SlotOk own k (stem n (k + 1)) (s.word p (index n k)) := by
  rw [stem_succ n (by omega)]
  exact h.slot p k _ _ (h.own_tableAt hn (by omega) hp) hk (index_lt n k)

/-- Only the tables matter. -/
lemma Shape.of_agree (hw : ∀ p x, own p = some x → s'.word p = s.word p)
    (hu : ∀ p x, own p = some x → s'.used p = true) (hpub : s'.published = s.published) :
    Shape root own s' where
  root_own := h.root_own
  used := hu
  slot := by
    intro p k c i hown hk hi
    rw [hw p _ hown]
    exact h.slot p k c i hown hk hi
  unpublished := by rw [hpub]; exact h.unpublished

/-- Pages that are not tables can change. -/
lemma Shape.cell_of_agree (hw : ∀ p x, own p = some x → s'.word p = s.word p)
    (hn : n < PAGES) : cell s' root n = cell s root n :=
  cell_eq_of_agree fun j hj q hq => by rw [hw q _ (h.own_tableAt hn (by omega) hq)]

end

/-! ## Writing a slot -/

@[simp] lemma word_store_self (s : Tables) (p : Word) (i : Nat) (d : Word) : (s.store p i d).word p i = d := by
  rw [store]
  dsimp only
  rw [update_self, update_self]

lemma word_store_of_ne (s : Tables) (d : Word) (h : q = p → j ≠ i) : (s.store p i d).word q j = s.word q j := by
  rw [store]
  dsimp only
  by_cases hq : q = p
  · subst hq
    rw [update_self, update_of_ne (h rfl)]
  · rw [update_of_ne hq]

/-- The table of a page with the same stem. -/
lemma tableAt_of_stem (hk : k < 4) (hp : tableAt s root n₀ k = some p)
    (h : stem n (k + 1) = stem n₀ (k + 1)) : tableAt s root n k = some p ∧ index n k = index n₀ k := by
  obtain ⟨hs, hidx⟩ := stem_eq_of_succ hk h
  exact ⟨by rw [tableAt_eq_of_stem (by omega) hs, hp], hidx⟩

section

variable (h : Shape root own s)
include h

/-- A written slot is on the path of the pages it stands for and of no other. -/
lemma Shape.word_store (d : Word) (hn : n < PAGES)
    (hk₀ : k₀ ≤ 3) (hp : own p = some (k₀, stem n₀ k₀)) (hi : i = index n₀ k₀)
    (hne : stem n (k₀ + 1) ≠ stem n₀ (k₀ + 1) ∨ k ≠ k₀) (hk : k ≤ 3)
    (hq : tableAt s root n k = some q) : (s.store p i d).word q (index n k) = s.word q (index n k) := by
  apply word_store_of_ne
  rintro rfl hidx
  have hown := h.own_tableAt hn hk hq
  rw [hp, some.injEq, Prod.mk.injEq] at hown
  obtain ⟨rfl, hs⟩ := hown
  obtain hne | hne := hne
  · apply hne
    rw [stem_succ n (by omega), stem_succ n₀ (by omega), hs, hidx, hi]
  · exact hne rfl

/-- **Frame**: the cells of other pages keep what they have. -/
lemma Shape.cell_store_of_ne (d : Word) (hn : n < PAGES)
    (hn₀ : n₀ < PAGES) (hk₀ : k₀ ≤ 3) (hp : tableAt s root n₀ k₀ = some p)
    (hne : stem n (k₀ + 1) ≠ stem n₀ (k₀ + 1)) :
    cell (s.store p (index n₀ k₀) d) root n = cell s root n := cell_eq_of_agree fun _ hj _ hq =>
    h.word_store d hn hk₀ (h.own_tableAt hn₀ hk₀ hp) rfl (.inl hne) (by omega) hq

/-- The path down to a written slot does not change. -/
lemma Shape.tableAt_store (d : Word) (hn : n < PAGES)
    (hn₀ : n₀ < PAGES) (hk₀ : k₀ ≤ 3) (hp : tableAt s root n₀ k₀ = some p)
    (hk : k ≤ k₀) : tableAt (s.store p (index n₀ k₀) d) root n k = tableAt s root n k :=
  tableAt_eq_of_agree fun _ hj _ hq =>
    h.word_store d hn hk₀ (h.own_tableAt hn₀ hk₀ hp) rfl (.inr (by omega)) (by omega) hq

/-- **Writing a page's word.** -/
lemma Shape.cell_store_leaf (d : Word) (hn : n < PAGES)
    (hn₀ : n₀ < PAGES) (hpte : tableAt s root n₀ 3 = some pte) :
    cell (s.store pte (index n₀ 3) d) root n = if n = n₀ then .page d else cell s root n := by
  split_ifs with heq
  · subst heq
    have hp : tableAt (s.store pte (index n 3) d) root n 3 = some pte := by
      rw [h.tableAt_store d hn hn₀ le_rfl hpte le_rfl, hpte]
    rw [cell_of_tableAt_three hp, word_store_self]
  · refine h.cell_store_of_ne d hn hn₀ le_rfl hpte ?_
    rw [stem_four, stem_four]
    exact heq

/-- **Writing a level 2 slot** with a block or with nothing. -/
lemma Shape.cell_store_block {pmd : Word} (d : Word) (hn : n < PAGES)
    (hn₀ : n₀ < PAGES) (hpmd : tableAt s root n₀ 2 = some pmd) (hd : d &&& DESC_TABLE = 0) :
    cell (s.store pmd (index n₀ 2) d) root n =
      if n / 512 = n₀ / 512 then (if d &&& DESC_VALID ≠ 0 then .block d else .page 0) else cell s root n := by
  by_cases heq : n / 512 = n₀ / 512
  · obtain ⟨hp, hidx⟩ := tableAt_of_stem (by omega) hpmd heq
    have hp' : tableAt (s.store pmd (index n₀ 2) d) root n 2 = some pmd := by
      rw [h.tableAt_store d hn hn₀ (by omega) hpmd le_rfl, hp]
    have hw : (s.store pmd (index n₀ 2) d).word pmd (index n 2) = d := by rw [hidx, word_store_self]
    rw [if_pos heq]
    split_ifs with hv
    · rw [cell_of_block hp' (by rw [hw]; exact hv) (by rw [hw]; exact hd), hw]
    · exact cell_of_invalid (by omega) hp' (by rw [hw]; exact not_not.1 hv)
  · rw [if_neg heq]
    exact h.cell_store_of_ne d hn hn₀ (by omega) hpmd heq

/-- A slot can be given a word of the right kind. -/
lemma Shape.store {c : Nat} (hp : own p = some (k, c))
    (hd : k < 3 → SlotOk own k (c * 512 + i) d) : Shape root own (s.store p i d) where
  root_own := h.root_own
  used := h.used
  slot := by
    intro q k' c' j hq hk hj
    by_cases heq : q = p ∧ j = i
    · obtain ⟨rfl, rfl⟩ := heq
      rw [hp] at hq
      obtain ⟨rfl, rfl⟩ := hq
      rw [word_store_self]
      exact hd hk
    · rw [word_store_of_ne s d fun hqp hji => heq ⟨hqp, hji⟩]
      exact h.slot q k' c' j hq hk hj
  unpublished := h.unpublished

end

/-! ## Linking a table -/

/-- A page that becomes a table. -/
lemma SlotOk.extend {c : Nat} {x : Nat × Nat} (h : SlotOk own k c d) (hp : own p = none) :
    SlotOk (update own p (some x)) k c d := by
  cases h with
  | empty => exact .empty
  | table q hq h0 hown =>
    refine .table q hq h0 ?_
    rw [update_of_ne, hown]
    rintro rfl
    rw [hp] at hown
    cases hown
  | block d hk hv ht => exact .block d hk hv ht

/-- A page whose slots are empty, or that is for level 3, can be made a table. -/
lemma Shape.adopt (h : Shape root own s) {x : Nat} (hc : own c = none) (hu : s.used c = true)
    (hz : k < 3 → ∀ j, s.word c j = 0) : Shape root (update own c (some (k, x))) s where
  root_own := by
    rw [update_of_ne, h.root_own]
    rintro rfl
    rw [h.root_own] at hc
    cases hc
  used := by
    intro p y hp
    by_cases hpc : p = c
    · rw [hpc, hu]
    · rw [update_of_ne hpc] at hp
      exact h.used p y hp
  slot := by
    intro p k' c' i hp hk hi
    by_cases hpc : p = c
    · subst hpc
      rw [update_self, some.injEq, Prod.mk.injEq] at hp
      rw [hz (by omega)]
      exact .empty
    · rw [update_of_ne hpc] at hp
      exact (h.slot p k' c' i hp hk hi).extend hc
  unpublished := h.unpublished

/-- **Linking a table**: the pages below the slot are seen through the new table, the others as before. -/
lemma Shape.link (h : Shape root own s) (hn₀ : n₀ < PAGES) (hk₀ : k₀ < 3)
    (hp : tableAt s root n₀ k₀ = some p) (hc : own c = none) (hu : s.used c = true) (hpg : PageAddr c)
    (h0 : c ≠ 0) (hz : k₀ + 1 < 3 → ∀ j, s.word c j = 0) :
    Shape root (update own c (some (k₀ + 1, stem n₀ (k₀ + 1))))
        (s.store p (index n₀ k₀) (encodeTableDesc c)) ∧ (∀ n < PAGES, stem n (k₀ + 1) = stem n₀ (k₀ + 1) →
        tableAt (s.store p (index n₀ k₀) (encodeTableDesc c)) root n (k₀ + 1) = some c) ∧
      ∀ j, (s.store p (index n₀ k₀) (encodeTableDesc c)).word c j = s.word c j := by
  have hown := h.own_tableAt hn₀ (by omega) hp
  have hpc : p ≠ c := by
    rintro rfl
    rw [hc] at hown
    cases hown
  refine ⟨?_, ?_, ?_⟩
  · have hadopt := h.adopt (x := stem n₀ (k₀ + 1)) hc hu hz
    refine hadopt.store (k := k₀) (c := stem n₀ k₀) ?_ fun _ => ?_
    · rw [update_of_ne hpc, hown]
    · rw [← stem_succ n₀ (by omega)]
      exact .table c hpg h0 (update_self ..)
  · intro n hn hs
    obtain ⟨hpt, hidx⟩ := tableAt_of_stem (by omega) hp hs
    have hp' : tableAt (s.store p (index n₀ k₀) (encodeTableDesc c)) root n k₀ = some p := by
      rw [h.tableAt_store _ hn hn₀ (by omega) hp le_rfl, hpt]
    rw [tableAt_succ hp', hidx, word_store_self, parentPa_encodeTableDesc hpg h0]
  · intro j
    exact word_store_of_ne s _ fun hcp => absurd hcp.symm hpc

/-- Below a table that has just been made there is nothing. -/
lemma cell_of_fresh (hk : k ≤ 3) (hc : tableAt s root n k = some c)
    (hz : ∀ j, s.word c j = 0) : cell s root n = .page 0 := by
  rcases (by omega : k < 3 ∨ k = 3) with hlt | rfl
  · refine cell_of_invalid hlt hc ?_
    rw [hz]
    rfl
  · rw [cell_of_tableAt_three hc, hz]

/-- What making the page `c` the table below the slot of level `k₀` on the path of page `n₀` changes: the
paths through that slot now have the table `c`, and no cell is another. -/
structure Grown (root : Word) (n₀ k₀ : Nat) (c : Word) (s : Tables) (own : Word → Option (Nat × Nat)) (s' : Tables) :
    Prop where
  shape : Shape root own s'
  cells : ∀ m < PAGES, cell s' root m = cell s root m
  path : ∀ m < PAGES, ∀ j ≤ 3, tableAt s' root m j =
    if j = k₀ + 1 ∧ stem m (k₀ + 1) = stem n₀ (k₀ + 1) then some c else tableAt s root m j

/-- **Adding a table**: a cleared page that is no table is linked into an unused slot. -/
lemma Shape.grow (h : Shape root own s) (hn₀ : n₀ < PAGES) (hk₀ : k₀ < 3)
    (hp : tableAt s root n₀ k₀ = some p) (hv : s.word p (index n₀ k₀) &&& DESC_VALID = 0) (hc : own c = none)
    (hpg : PageAddr c) (h0 : c ≠ 0) (hw : ∀ p x, own p = some x → s₁.word p = s.word p)
    (hsh : Shape root own s₁) (hu : s₁.used c = true) (hz : ∀ j, s₁.word c j = 0) :
    Grown root n₀ k₀ c s (update own c (some (k₀ + 1, stem n₀ (k₀ + 1))))
      (s₁.store p (index n₀ k₀) (encodeTableDesc c)) := by
  have hsm : ∀ m < PAGES, ∀ j ≤ 3, tableAt s₁ root m j = tableAt s root m j := by
    intro m hm j hj
    refine tableAt_eq_of_agree fun i hi q hq => ?_
    rw [hw q _ (h.own_tableAt hm (by omega) hq)]
  have hp1 : tableAt s₁ root n₀ k₀ = some p := by rw [hsm n₀ hn₀ k₀ (by omega), hp]
  obtain ⟨hl, hpt, hnew⟩ := hsh.link hn₀ hk₀ hp1 hc hu hpg h0 fun _ => hz
  refine ⟨hl, ?_, ?_⟩
  · intro m hm
    by_cases hs : stem m (k₀ + 1) = stem n₀ (k₀ + 1)
    · -- below the new table, where nothing was before
      obtain ⟨hpm, hidx⟩ := tableAt_of_stem (by omega) hp hs
      rw [cell_of_fresh (by omega) (hpt m hm hs) fun j => by rw [hnew, hz],
        cell_of_invalid hk₀ hpm (by rw [hidx]; exact hv)]
    · rw [hsh.cell_store_of_ne _ hm hn₀ (by omega) hp1 hs]
      exact h.cell_of_agree hw hm
  intro m hm j hj
  by_cases hs : stem m (k₀ + 1) = stem n₀ (k₀ + 1)
  · obtain hlt | rfl | hgt := lt_trichotomy j (k₀ + 1)
    · rw [if_neg (by omega), hsh.tableAt_store _ hm hn₀ (by omega) hp1 (by omega), hsm m hm j hj]
    · rw [if_pos ⟨rfl, hs⟩, hpt m hm hs]
    -- the new table is empty, and the slot was
    obtain ⟨hpm, hidx⟩ := tableAt_of_stem (by omega) hp hs
    have hbef : tableAt s root m (k₀ + 1) = none := by
      rw [tableAt_succ hpm, hidx, parentPa_of_invalid hv]
    have haft : tableAt (s₁.store p (index n₀ k₀) (encodeTableDesc c)) root m (k₀ + 2) = none := by
      rw [tableAt_succ (hpt m hm hs), hnew, hz]
      exact parentPa_of_invalid rfl
    rw [if_neg (by omega), tableAt_none_of_le hbef (by omega), tableAt_none_of_le haft (by omega)]
  · rw [if_neg (fun hand => hs hand.2), ← hsm m hm j hj]
    exact tableAt_eq_of_agree fun i hi q hq =>
      hsh.word_store _ hm (by omega) (hsh.own_tableAt hn₀ (by omega) hp1) rfl (.inl hs) (by omega) hq

/-! ## Walks -/

/-- Why a walk to level `k` can fail: a table is missing and none is made, or a block is in the way to
level 3. -/
def Missing (k : Nat) (create : Option PageAllocator) (rc : PtRc) (c : Cell) : Prop :=
  (c = .page 0 ∧ rc = if create.isNone then .enoent else .enomem) ∨
    (k = 3 ∧ rc = .econflict ∧ ∃ d, c = .block d)

/-- What a walk for page `n` to level `k` achieves. It changes no cell, and without `create` nothing. -/
structure Walked (root : Word) (n k : Nat) (create : Option PageAllocator) (s : Tables)
    (r : Except PtRc Word) (s' : Tables) : Prop where
  shape : ∃ own, Shape root own s'
  cells : ∀ m < PAGES, cell s' root m = cell s root m
  reads : create = none → s' = s
  found : ∀ c, r = .ok c → tableAt s' root n k = some c
  failed : ∀ rc, r = .error rc → Missing k create rc (cell s root n)

/-- A walk goes on from where it is. -/
lemma Walked.trans {r : Except PtRc Word}
    {s₂ : Tables} (hn : n < PAGES) (h : Walked root n k create s (.ok c) s₁)
    (h' : Walked root n k' create s₁ r s₂) : Walked root n k' create s r s₂ where
  shape := h'.shape
  cells m hm := by rw [h'.cells m hm, h.cells m hm]
  reads hcreate := by rw [h'.reads hcreate, h.reads hcreate]
  found := h'.found
  failed rc hrc := by
    have hf := h'.failed rc hrc
    rwa [h.cells n hn] at hf

/-- A walk that has failed. -/
lemma Walked.error {rc : PtRc} (hk : k ≤ k') (hk' : k' ≤ 3)
    (h : Walked root n k create s (.error rc) s₁) : Walked root n k' create s (.error rc) s₁ where
  shape := h.shape
  cells := h.cells
  reads := h.reads
  found c hc := by cases hc
  failed rc' hrc := by
    obtain hm | ⟨hk3, hcn⟩ := h.failed rc' hrc
    · exact .inl hm
    · exact .inr ⟨by omega, hcn⟩

section

variable (h : Shape root own s)
include h

/-- A page from the allocator is not a table. -/
lemma Shape.not_own (hc : s.used c = false) : own c = none := by
  cases hown : own c with
  | none => rfl
  | some x =>
    rw [h.used c x hown] at hc
    cases hc

/-- Taking a page and clearing it leaves the tables alone. -/
lemma Shape.take (hc : own c = none) : (∀ p x, own p = some x →
        ((zeroPage { s with used := update s.used c true } c).word p = s.word p ∧
          (zeroPage { s with used := update s.used c true } c).used p = true)) ∧
      Shape root own (zeroPage { s with used := update s.used c true } c) := by
  have hagr : ∀ p x, own p = some x →
      ((zeroPage { s with used := update s.used c true } c).word p = s.word p ∧
        (zeroPage { s with used := update s.used c true } c).used p = true) := by
    intro p x hp
    have hpc : p ≠ c := by
      rintro rfl
      rw [hc] at hp
      cases hp
    exact ⟨update_of_ne hpc _ _, (update_of_ne hpc _ _).trans (h.used p x hp)⟩
  exact ⟨hagr, h.of_agree (fun p x hp => (hagr p x hp).1) (fun p x hp => (hagr p x hp).2) rfl⟩

/-- **One level of a walk.** -/
lemma Shape.ensure (hn : n < PAGES) (hk : k < 3)
    (hp : tableAt s root n k = some p) (create : Option PageAllocator) (isL0 : Bool)
    (hL0 : isL0 = true → k = 0) :
    Walked root n (k + 1) create s (ensureChildTable p (index n k) create isL0 s).1
      (ensureChildTable p (index n k) create isL0 s).2 := by
  have hs := h.slot_tableAt hn hk hp
  have stay : ∀ r : Except PtRc Word, (∀ c, r = .ok c → tableAt s root n (k + 1) = some c) →
      (∀ rc, r = .error rc → Missing (k + 1) create rc (cell s root n)) → Walked root n (k + 1) create s r s :=
    fun r hfnd hfld => ⟨⟨own, h⟩, fun _ _ => rfl, fun _ => rfl, hfnd, hfld⟩
  unfold ensureChildTable
  by_cases hv : s.word p (index n k) &&& DESC_VALID = 0
  · rw [if_pos hv]
    have hcl := cell_of_invalid hk hp hv
    cases create with
    | none =>
      refine stay _ (fun c hc => by cases hc) fun rc hrc => .inl ⟨hcl, ?_⟩
      cases hrc
      rfl
    | some alloc =>
      cases htk : alloc.take s.used with
      | none =>
        have halc : s.alloc4kPage alloc = none := by rw [alloc4kPage, htk]
        simp only [halc]
        refine stay _ (fun c hc => by cases hc) fun rc hrc => .inl ⟨hcl, ?_⟩
        cases hrc
        rfl
      | some c =>
        obtain ⟨hf, hpg, h0⟩ := alloc.sound _ _ htk
        have hc := h.not_own hf
        obtain ⟨hagr, hsh⟩ := h.take hc
        have halc : s.alloc4kPage alloc = some (c, { s with used := update s.used c true }) := by
          rw [alloc4kPage, htk]
        simp only [halc]
        generalize hs1 : zeroPage { s with used := update s.used c true } c = s₁ at hagr hsh ⊢
        have hz : ∀ j, s₁.word c j = 0 := by
          intro j
          rw [← hs1]
          exact congrFun (update_self c _ s.word) j
        have hu : s₁.used c = true := by
          rw [← hs1]
          exact update_self c true s.used
        have hgr := h.grow hn hk hp hv hc hpg h0 (fun q x hq => (hagr q x hq).1) hsh hu hz
        rw [word_store_self, childTable, parentPa_encodeTableDesc hpg h0]
        refine ⟨⟨_, hgr.shape⟩, hgr.cells, by rintro ⟨⟩, ?_, by rintro rc ⟨⟩⟩
        rintro c' ⟨⟩
        rw [hgr.path n hn (k + 1) (by omega), if_pos ⟨rfl, rfl⟩]
  · rw [if_neg hv]
    by_cases ht : s.word p (index n k) &&& DESC_TABLE = 0
    · rw [if_pos ht]
      generalize hd : s.word p (index n k) = d at hs hv ht
      have hk2 : k = 2 := by
        cases hs with
        | empty => exact absurd rfl hv
        | table q hq h0 hown =>
          have hch := parentPa_encodeTableDesc hq h0
          rw [parentPa_of_block ht] at hch
          cases hch
        | block d hk hv ht => exact hk
      subst hk2
      have hL : isL0 = false := by
        cases isL0 with
        | false => rfl
        | true => exact absurd (hL0 rfl) (by decide)
      subst hL
      refine stay _ (fun c hc => by cases hc) fun rc hrc => .inr ⟨rfl, ?_, d, ?_⟩
      · cases hrc
        rfl
      · rw [cell_of_block hp (by rw [hd]; exact hv) (by rw [hd]; exact ht), hd]
    · rw [if_neg ht, childTable]
      have hnx := tableAt_succ hp
      cases hch : parentPa (s.word p (index n k)) with
      | none =>
        exfalso
        generalize s.word p (index n k) = d at hs hv ht hch
        cases hs with
        | empty => exact hv rfl
        | table q hq h0 hown =>
          rw [parentPa_encodeTableDesc hq h0] at hch
          cases hch
        | block d hk hv ht' => exact ht ht'
      | some c =>
        refine stay _ ?_ (by rintro rc ⟨⟩)
        rintro c' ⟨⟩
        rw [hnx, hch]

/-- `walk_to_l2`. -/
lemma Shape.walkToL2 (va : Word) (create : Option PageAllocator) :
    Walked root (pageOf va) 2 create s (walkToL2 root va create s).1 (walkToL2 root va create s).2 := by
  have hn := pageOf_lt va
  have h0 := h.ensure hn (by omega : 0 < 3) rfl create true fun _ => rfl
  rw [Aarch64.walkToL2, tableIndex_zero, tableIndex_one]
  generalize ensureChildTable root (index (pageOf va) 0) create true s = r0 at h0
  obtain ⟨r0, s₁⟩ := r0
  cases r0 with
  | error rc => exact h0.error (by omega) (by omega)
  | ok pud =>
    obtain ⟨own1, h1⟩ := h0.shape
    exact h0.trans hn (h1.ensure hn (by omega) (h0.found pud rfl) create false (by rintro ⟨⟩))

end

/-- A walk to level 3 stops at a word that is neither a page nor absent. -/
def BadLeaf (c : Cell) : Prop := ∃ d, c = .page d ∧ d &&& DESC_VALID ≠ 0 ∧ d &&& DESC_TABLE = 0

/-- `walk_to_l3`. -/
lemma Shape.walkToL3 (h : Shape root own s) (va : Word) (create : Option PageAllocator)
    (hl : ¬ BadLeaf (cell s root (pageOf va))) :
    Walked root (pageOf va) 3 create s (walkToL3 root va create s).1 (walkToL3 root va create s).2 := by
  have hn := pageOf_lt va
  have h2 := h.walkToL2 va create
  rw [Aarch64.walkToL3, tableIndex_two, tableIndex_three]
  generalize Aarch64.walkToL2 root va create s = r2 at h2
  obtain ⟨r2, s₁⟩ := r2
  cases r2 with
  | error rc => exact h2.error (by omega) (by omega)
  | ok pmd =>
    obtain ⟨own1, hsh⟩ := h2.shape
    have h3 := h2.trans hn (hsh.ensure hn (by omega) (h2.found pmd rfl) create false (by rintro ⟨⟩))
    dsimp only
    generalize ensureChildTable pmd (index (pageOf va) 2) create false s₁ = r3 at h3
    obtain ⟨r3, s2⟩ := r3
    cases r3 with
    | error rc => exact h3
    | ok pte =>
      have hc := cell_of_tableAt_three (h3.found pte rfl)
      rw [h3.cells _ hn] at hc
      dsimp only
      rw [if_neg fun hb => hl ⟨_, hc, hb⟩]
      exact h3

end OS01.Aarch64
