import OS01.Aarch64.Translation

/-!
# Runs of page table calls

Each call on tables that represent a map is a step of the specification, and so is each run of calls
(`pageTable_refines_partialMap`): calls with arbitrary arguments, in any order, with the allocator failing
where it likes. The physical address of `replace_4k` has to be page aligned. It is the one call that does
not check this, and an address that is not is mapped rounded down (`replace4k_rounds_down`).
-/

namespace OS01.Aarch64

open Function Tables
open Lib

variable {root : Word} {s s' : Tables} {a a' : PartialMap}

/-! ## Steps -/

variable {n n₀ : Nat} {d pmd : Word} {own : Word → Option (Nat × Nat)}

/-- What a cell shows depends on the map at its page. -/
lemma Shows.congr {c : Cell} (h : Shows a n c) (hmap : a'.map n = a.map n)
    (hblk : a'.block (n / 512) = a.block (n / 512)) : Shows a' n c := by
  cases c with
  | page d | block d =>
    rw [Shows, hmap, hblk]
    exact h

lemma store_store (s : Tables) (p : Word) (i : Nat) (x d : Word) :
    (s.store p i x).store p i d = s.store p i d := by
  rw [store, store, store]
  dsimp only
  rw [update_self, update_idem, update_idem]

/-- Writing a page's word sets the page. -/
lemma Refines.store_leaf (h : Refines root s a) (hn : n < PAGES) {pte : Word}
    (hpte : tableAt s root n 3 = some pte) {x : Option Mapping}
    (hx : (d = 0 ∧ x = none) ∨ ∃ m, x = some m ∧ LeafOf d m) :
    Refines root (s.store pte (index n 3) d) (a.set n x) := by
  obtain ⟨own, hsh⟩ := h.shape
  refine ⟨⟨own, hsh.store (hsh.own_tableAt hn le_rfl hpte) fun h3 => absurd h3 (by decide)⟩, ?_⟩
  intro k hk
  rw [hsh.cell_store_leaf d hk hn hpte]
  split_ifs with heq
  · subst heq
    have hshw := h.shows k hn
    rw [cell_of_tableAt_three hpte] at hshw
    refine ⟨hshw.1, ?_⟩
    rw [PartialMap.set]
    dsimp only
    rwa [update_self]
  · exact (h.shows k hk).congr (update_of_ne heq _ _) rfl

/-- The arguments that `build_leaf_desc` accepts. -/
lemma buildLeafDesc_isSome_iff (pa : Word) (perm : Perm) (sw : Word) :
    (buildLeafDesc pa perm sw).isSome = true ↔
      (encodePerm perm).isSome = true ∧ (sw = 0 ∨ sw = SOFTWARE_COW ∨ sw = SOFTWARE_PROTNONE) := by
  rw [buildLeafDesc]
  cases encodePerm perm with
  | none => simp
  | some base =>
    dsimp only
    rw [Option.isSome_some, eq_self, true_and]
    constructor
    · intro hs
      by_cases hill : sw &&& ~~~SW_ALLOWED_MASK = 0
      · by_cases hb : sw &&& SW_ALLOWED_MASK = SW_ALLOWED_MASK
        · rw [if_neg (not_not.2 hill), if_pos hb] at hs
          cases hs
        · exact sw_cases hill hb
      · rw [if_pos hill] at hs
        cases hs
    · rintro (rfl | rfl | rfl)
      all_goals rfl

/-- The specification allows what a call returns, and the tables it leaves. -/
abbrev Allows (root : Word) (a : PartialMap) (call : PtCall) (alloc : PageAllocator) (r : Result × Tables) : Prop :=
  ∃ a', PtSpec a ⟨call, alloc, r.1⟩ a' ∧ Refines root r.2 a'

variable {call : PtCall} {alloc : PageAllocator} {p : Prop} [Decidable p] {r : Result × Tables}

section

variable (h : Refines root s a)
include h

/-- A call that is refused. -/
lemma Refines.refused {rc : PtRc} (hrc : Refuses a rc call) :
    Allows root a call alloc (.code rc, s) := ⟨a, .refused hrc, h⟩

/-- An argument check of a call. -/
lemma Refines.check (hbad : p → Refuses a .einval call)
    (hg : ¬p → Allows root a call alloc r) :
    Allows root a call alloc (if p then (.code .einval, s) else r) := by
  split_ifs with hp
  · exact h.refused (hbad hp)
  · exact hg hp

lemma Refines.needs (hbad : ¬p → Refuses a .einval call)
    (hg : p → Allows root a call alloc r) : Allows root a call alloc (if ¬p then (.code .einval, s) else r) :=
  h.check hbad fun hp => hg (not_not.1 hp)

/-- `aarch64_pt_map_4k_ext`. -/
lemma Refines.map4kExt (hr : rootValid root) (va pa : Word) (perm : Perm)
    (sw : Word) (alloc : PageAllocator) :
    Allows root a (.map4k va pa perm sw) alloc (map4kExt root va pa perm sw alloc s) := by
  have hn := pageOf_lt va
  unfold Aarch64.map4kExt
  rw [if_neg (not_not.2 hr), tableIndex_three]
  refine h.needs (fun hcan => .inl ⟨rfl, fun hok => hcan hok.1.1⟩) fun hcan => ?_
  refine h.needs (fun hal => .inl ⟨rfl, fun hok => hal hok.1.2⟩) fun hal => ?_
  refine h.needs (fun hpa => .inl ⟨rfl, fun hok => hpa hok.2.page.aligned⟩) fun hpa => ?_
  refine h.check (fun hlim => .inl ⟨rfl, fun hok => BitVec.not_le.2 hok.2.page.below hlim⟩) fun hlim => ?_
  have hblt := buildLeafDesc_isSome_iff pa perm sw
  cases hd : buildLeafDesc pa perm sw with
  | none =>
    rw [hd] at hblt
    exact h.refused (.inl ⟨rfl, fun hok => Bool.false_ne_true (hblt.2 ⟨hok.2.perm, hok.2.sw⟩)⟩)
  | some desc =>
    rw [hd] at hblt
    obtain ⟨hpr, hsw⟩ := hblt.1 rfl
    have hpg : PageAddr pa := ⟨hpa, BitVec.not_le.1 hlim⟩
    have hlegal : Mapping.Legal ⟨pa, perm, sw⟩ := ⟨hpg, hpr, hsw⟩
    obtain ⟨own, hsh⟩ := h.shape
    have hshw := h.shows _ hn
    have hw := hsh.walkToL3 va (some alloc) hshw.not_bad
    generalize walkToL3 root va (some alloc) s = r at hw
    obtain ⟨r, s1⟩ := r
    have h1 := h.walked hw
    cases r with
    | error rc =>
      obtain ⟨hc, rfl⟩ | ⟨-, rfl, d, hc⟩ := hw.failed rc rfl
      · exact h1.refused (.inr (.inr (.inr ⟨rfl, (hc ▸ hshw).absent⟩)))
      · exact h1.refused (.inr (.inl ⟨rfl, (hc ▸ hshw).inBlock⟩))
    | ok pte =>
      have hpte := hw.found pte rfl
      have hshw1 := h1.shows _ hn
      rw [cell_of_tableAt_three hpte] at hshw1
      dsimp only
      by_cases h0 : s1.word pte (index (pageOf va) 3) = 0
      · rw [h0] at hshw1
        rw [h0]
        exact ⟨_, .map4k ⟨hcan, hal⟩ hlegal hshw1.absent, h1.store_leaf hn hpte (.inr ⟨_, rfl, hd, hpg⟩)⟩
      obtain ⟨m, hm, hl⟩ := hshw1.mapped h0
      have hrfd : Allows root a (.map4k va pa perm sw) alloc (.code .eexist, s1) :=
        h1.refused (.inr (.inr (.inl ⟨rfl, m, hm⟩)))
      split_ifs with hv hp
      · exact hrfd
      · exact hrfd
      · obtain ho | ho := hl.occupied
        · exact absurd ho hv
        · exact absurd ho hp

/-- `aarch64_pt_unmap_4k_ext`. -/
lemma Refines.unmap4kExt (hrt : rootValid root) (va : Word) (alloc : PageAllocator) :
    Allows root a (.unmap4k va) alloc (unmap4kExt root va s) := by
  have hr := h.readLeaf va
  unfold Aarch64.unmap4kExt
  rw [if_neg (not_not.2 hrt), tableIndex_three]
  generalize Aarch64.readLeaf root va s = r at hr
  cases hr with
  | bad hva => exact h.refused (.inl ⟨rfl, hva⟩)
  | inBlock hva he => exact h.refused (.inr (.inl ⟨rfl, he⟩))
  | missing hva he | empty hva pte d he => exact h.refused (.inr (.inr ⟨rfl, he⟩))
  | leaf hva pte d m he hpte hd =>
    dsimp only
    rw [if_neg m.code_ne_enoent, hd.leafValues]
    exact ⟨_, .unmap4k hva he, h.store_leaf (pageOf_lt va) hpte (.inl ⟨rfl, rfl⟩)⟩

/-- `aarch64_pt_replace_4k` with a page aligned address. -/
lemma Refines.replace4k (hrt : rootValid root) (va pa : Word) (perm : Perm)
    (sw : Word) (alloc : PageAllocator) (hpa : pa &&& 0xfff = 0) :
    Allows root a (.replace4k va pa perm sw) alloc (replace4k root va pa perm sw s) := by
  unfold Aarch64.replace4k
  rw [if_neg (not_not.2 hrt), tableIndex_three]
  refine h.needs (fun hcan => .inl ⟨rfl, fun hok => hcan hok.1.1⟩) fun hcan => ?_
  refine h.needs (fun hal => .inl ⟨rfl, fun hok => hal hok.1.2⟩) fun hal => ?_
  refine h.check (fun hlim => .inl ⟨rfl, fun hok => BitVec.not_le.2 hok.2.page.below hlim⟩) fun hlim => ?_
  have hblt := buildLeafDesc_isSome_iff pa perm sw
  cases hd : buildLeafDesc pa perm sw with
  | none =>
    rw [hd] at hblt
    exact h.refused (.inl ⟨rfl, fun hok => Bool.false_ne_true (hblt.2 ⟨hok.2.perm, hok.2.sw⟩)⟩)
  | some newDesc =>
    rw [hd] at hblt
    obtain ⟨hpr, hsw⟩ := hblt.1 rfl
    have hp : PageAddr pa := ⟨hpa, BitVec.not_le.1 hlim⟩
    have hr := h.readLeaf va
    generalize Aarch64.readLeaf root va s = r at hr
    cases hr with
    | bad hva => exact absurd ⟨hcan, hal⟩ hva
    | inBlock hva he => exact h.refused (.inr (.inl ⟨rfl, he⟩))
    | missing hva he | empty hva pte d he => exact h.refused (.inr (.inr ⟨rfl, he⟩))
    | leaf hva pte d m he hpte hold =>
      have hdn : Refines root (s.store pte (index (pageOf va) 3) newDesc)
          (a.set (pageOf va) (some ⟨pa, perm, sw⟩)) :=
        h.store_leaf (pageOf_lt va) hpte (.inr ⟨_, rfl, hd, hp⟩)
      dsimp only
      rw [if_neg m.code_ne_enoent, hold.leafValues]
      dsimp only
      -- both ways of writing end with the new descriptor
      rw [store_store]
      split_ifs
      all_goals exact ⟨_, .replace4k hva ⟨hp, hpr, hsw⟩ he, hdn⟩

end

/-- Pages of one range are pages together. -/
lemma lt_pages_of_range (hn₀ : n₀ < PAGES) (h : n / 512 = n₀ / 512) : n < PAGES := by
  have hpgs : PAGES = 512 * 134217728 := by decide
  omega

/-- The address of a range is that of its first page. -/
lemma BlockVa.page_mod {va : Word} (h : BlockVa va) : pageOf va % 512 = 0 := by
  have hmod : va.toNat % 2 ^ 21 = 0 := (and_low_eq_zero_iff va rfl).1 h.2
  have hpgs : PAGES = 512 * 134217728 := by decide
  rw [pageOf, hpgs]
  omega

section

variable (h : Refines root s a)
include h

/-- `aarch64_pt_map_2m_block`. -/
lemma Refines.map2mBlock (hr : rootValid root) (va pa : Word) (perm : Perm) (alloc : PageAllocator) :
    Allows root a (.map2m va pa perm) alloc (map2mBlock root va pa perm alloc s) := by
  have hn := pageOf_lt va
  unfold Aarch64.map2mBlock
  rw [if_neg (not_not.2 hr), tableIndex_two]
  refine h.needs (fun hcan => .inl ⟨rfl, fun hok => hcan hok.1.1⟩) fun hcan => ?_
  refine h.needs (fun hal => .inl ⟨rfl, fun hok => hal hok.1.2⟩) fun hal => ?_
  refine h.needs (fun hpa => .inl ⟨rfl, fun hok => hpa hok.2.1.aligned⟩) fun hpa => ?_
  refine h.check (fun hlim => .inl ⟨rfl, fun hok => BitVec.not_le.2 hok.2.1.below hlim⟩) fun hlim => ?_
  cases he : encodePerm perm with
  | none =>
    refine h.refused (.inl ⟨rfl, fun hok => ?_⟩)
    rw [he] at hok
    exact Bool.false_ne_true hok.2.2
  | some base =>
    have hlegal : (encodePerm perm).isSome = true := by rw [he]; rfl
    have hblk : BlockOf (encodeBlockDesc pa perm 0) pa perm := ⟨rfl, hlegal, ⟨hpa, BitVec.not_le.1 hlim⟩⟩
    obtain ⟨own, hsh⟩ := h.shape
    have hw := hsh.walkToL2 va (some alloc)
    generalize walkToL2 root va (some alloc) s = r at hw
    obtain ⟨r, s1⟩ := r
    have h1 := h.walked hw
    cases r with
    | error rc =>
      obtain ⟨-, rfl⟩ | ⟨h3, -⟩ := hw.failed rc rfl
      · exact h1.refused (.inr (.inr rfl))
      · cases h3
    | ok pmd =>
      have hpmd := hw.found pmd rfl
      obtain ⟨own1, hsh1⟩ := h1.shape
      dsimp only
      split_ifs with hocc
      · exact h1.refused (.inr (.inl rfl))
      push Not at hocc
      have habsent : ∀ n, n / 512 = pageOf va / 512 → a.entry n = .absent := by
        intro n hrng
        have hnp := lt_pages_of_range hn hrng
        obtain ⟨hp, hidx⟩ := tableAt_of_stem (by decide) hpmd hrng
        have hc := cell_of_invalid (by decide) hp (by rw [hidx]; exact hocc.1)
        exact (hc ▸ h1.shows n hnp).absent
      refine ⟨_, .map2m ⟨hcan, hal⟩ hblk.block hlegal habsent, ?_, ?_⟩
      · refine ⟨own1, hsh1.store (hsh1.own_tableAt hn (by decide) hpmd) fun _ => ?_⟩
        exact .block _ rfl hblk.valid hblk.not_table
      intro n hnp
      rw [hsh1.cell_store_block _ hnp hn hpmd hblk.not_table]
      by_cases hrng : n / 512 = pageOf va / 512
      · rw [if_pos hrng, if_pos hblk.valid]
        refine ⟨?_, pa, perm, hblk, if_pos hrng⟩
        rw [hrng]
        exact update_self ..
      · rw [if_neg hrng]
        exact (h1.shows n hnp).congr (if_neg hrng) (update_of_ne hrng _ _)

/-- A level 2 slot that is neither a block nor linked. -/
lemma Refines.not_block (hn : n < PAGES)
    (hc : cell s root n = .page d) : a.block (n / 512) = false := (hc ▸ h.shows n hn).1

/-- What is at level 2 of a path: a block that the map has, or none. -/
lemma Refines.level2 (hn : n < PAGES) (hpmd : tableAt s root n 2 = some pmd) :
    (a.block (n / 512) = false ∧ (s.word pmd (index n 2) &&& DESC_VALID = 0 ∨
        s.word pmd (index n 2) &&& DESC_TABLE ≠ 0)) ∨
      (a.block (n / 512) = true ∧ s.word pmd (index n 2) &&& DESC_VALID ≠ 0 ∧
        s.word pmd (index n 2) &&& DESC_TABLE = 0 ∧ cell s root n = .block (s.word pmd (index n 2))) := by
  by_cases hv : s.word pmd (index n 2) &&& DESC_VALID = 0
  · exact .inl ⟨h.not_block hn (cell_of_invalid (by decide) hpmd hv), .inl hv⟩
  by_cases ht : s.word pmd (index n 2) &&& DESC_TABLE = 0
  · have hc := cell_of_block hpmd hv ht
    exact .inr ⟨(hc ▸ h.shows n hn).1, hv, ht, hc⟩
  refine .inl ⟨?_, .inr ht⟩
  have hc : ∃ d, cell s root n = .page d := by
    rw [cell, hpmd]
    dsimp only
    rw [if_neg fun hb => ht hb.2]
    cases parentPa (s.word pmd (index n 2)) with
    | none | some pte => exact ⟨_, rfl⟩
  obtain ⟨d, hd⟩ := hc
  exact h.not_block hn hd

/-- `aarch64_pt_unmap_2m_block`. -/
lemma Refines.unmap2mBlock (hrt : rootValid root) (va : Word) (alloc : PageAllocator) :
    Allows root a (.unmap2m va) alloc (unmap2mBlock root va s) := by
  have hn := pageOf_lt va
  unfold Aarch64.unmap2mBlock
  rw [if_neg (not_not.2 hrt), tableIndex_two]
  refine h.needs (fun hcan => .inl ⟨rfl, fun hok => hcan hok.1⟩) fun hcan => ?_
  refine h.needs (fun hal => .inl ⟨rfl, fun hok => hal hok.2⟩) fun hal => ?_
  have hva : BlockVa va := ⟨hcan, hal⟩
  obtain ⟨own, hsh⟩ := h.shape
  have hw := hsh.walkToL2 va none
  rw [hw.reads rfl] at hw
  cases hr : (walkToL2 root va none s).1 with
  | error rc =>
    obtain ⟨hc, rfl⟩ | ⟨h3, -⟩ := hw.failed rc hr
    · exact h.refused (.inr ⟨.inr rfl, h.not_block hn hc⟩)
    · cases h3
  | ok pmd =>
    have hpmd := hw.found pmd hr
    dsimp only
    obtain ⟨hblk, hwr⟩ | ⟨hblk, hv, ht, hc⟩ := h.level2 hn hpmd
    · split_ifs with hv ht
      · exact h.refused (.inr ⟨.inr rfl, hblk⟩)
      · exact h.refused (.inr ⟨.inl rfl, hblk⟩)
      · obtain hwr | hwr := hwr
        · exact absurd hwr hv
        · exact absurd hwr ht
    rw [if_neg hv, if_neg (not_not.2 ht)]
    obtain ⟨-, pa, perm, hb, hmap⟩ := hc ▸ h.shows _ hn
    obtain ⟨-, -, hpa, -⟩ := hb.fields
    rw [hva.page_mod, BitVec.add_zero] at hmap
    rw [hpa]
    refine ⟨_, .unmap2m hva hblk hmap, ?_, ?_⟩
    · exact ⟨own, hsh.store (hsh.own_tableAt hn (by decide) hpmd) fun _ => .empty⟩
    intro n hnp
    rw [hsh.cell_store_block _ hnp hn hpmd (word_zero_and _)]
    by_cases hrng : n / 512 = pageOf va / 512
    · rw [if_pos hrng]
      refine ⟨?_, .inl ⟨rfl, if_pos hrng⟩⟩
      rw [hrng]
      exact update_self ..
    · rw [if_neg hrng]
      exact (h.shows n hnp).congr (if_neg hrng) (update_of_ne hrng _ _)

end

/-- The loop of the split writes each page of the block to the new table and nothing else. -/
lemma word_fillLeaves (s : Tables) (l3 d : Word) (k : Nat) (p : Word) (i : Nat) :
    (s.fillLeaves l3 d k).word p i = if p = l3 ∧ i < k then splitLeaf d i else s.word p i := by
  induction k with
  | zero => rw [fillLeaves, if_neg fun h => Nat.not_lt_zero i h.2]
  | succ k ih =>
    rw [fillLeaves]
    by_cases hp : p = l3 ∧ i = k
    · obtain ⟨rfl, rfl⟩ := hp
      rw [word_store_self, if_pos ⟨rfl, Nat.lt_succ_self i⟩]
    rw [word_store_of_ne _ _ fun hpl hik => hp ⟨hpl, hik⟩, ih]
    refine if_congr ?_ rfl rfl
    constructor
    · rintro ⟨hpl, hik⟩
      exact ⟨hpl, by omega⟩
    · rintro ⟨hpl, hik⟩
      have hne : i ≠ k := fun hik' => hp ⟨hpl, hik'⟩
      exact ⟨hpl, by omega⟩

lemma used_fillLeaves (s : Tables) (l3 d : Word) (k : Nat) :
    (s.fillLeaves l3 d k).used = s.used ∧ (s.fillLeaves l3 d k).published = s.published := by
  induction k with
  | zero => exact ⟨rfl, rfl⟩
  | succ k ih => exact ih

/-- Tables that agree on the pages in use represent the same map. -/
lemma Refines.of_agree (h : Refines root s a) (hsh : Shape root own s)
    (hsh' : Shape root own s') (hw : ∀ p x, own p = some x → s'.word p = s.word p) : Refines root s' a :=
  ⟨⟨own, hsh'⟩, fun n hn => by rw [hsh.cell_of_agree hw hn]; exact h.shows n hn⟩

/-- Linking a table with the pages of a block in place of the block. -/
lemma Refines.linkSplit (h : Refines root s a) (hsh : Shape root own s)
    (hn₀ : n₀ < PAGES) {c : Word} (hpmd : tableAt s root n₀ 2 = some pmd)
    (hc : own c = none) (hu : s.used c = true) (hpg : PageAddr c) (h0 : c ≠ 0)
    (hv : s.word pmd (index n₀ 2) &&& DESC_VALID ≠ 0) (ht : s.word pmd (index n₀ 2) &&& DESC_TABLE = 0) :
    Refines root ((s.fillLeaves c (s.word pmd (index n₀ 2)) 512).store pmd (index n₀ 2) (encodeTableDesc c))
      (a.splitBlock n₀) := by
  generalize hd : s.word pmd (index n₀ 2) = d at hv ht ⊢
  generalize hs' : s.fillLeaves c d 512 = s'
  have hagr : ∀ p x, own p = some x → s'.word p = s.word p := by
    intro p x hp
    have hpc : p ≠ c := by
      rintro rfl
      rw [hc] at hp
      cases hp
    funext i
    rw [← hs', word_fillLeaves, if_neg fun hpi => hpc hpi.1]
  have hsh' : Shape root own s' := by
    refine hsh.of_agree hagr (fun p x hp => ?_) ?_
    · rw [← hs', (used_fillLeaves s c d 512).1]
      exact hsh.used p x hp
    · rw [← hs', (used_fillLeaves s c d 512).2]
  have hpmd' : tableAt s' root n₀ 2 = some pmd := by
    rw [← hpmd]
    refine tableAt_eq_of_agree fun j hj q hq => ?_
    rw [hagr q _ (hsh.own_tableAt hn₀ (by omega) hq)]
  have hu' : s'.used c = true := by rw [← hs', (used_fillLeaves s c d 512).1, hu]
  obtain ⟨hl, hpt, hw⟩ := hsh'.link hn₀ (by decide) hpmd' hc hu' hpg h0 fun h3 => absurd h3 (by decide)
  refine ⟨⟨_, hl⟩, fun n hn => ?_⟩
  by_cases hrng : n / 512 = n₀ / 512
  · -- the page is now in the new table
    rw [cell_of_tableAt_three (hpt n hn hrng), hw, ← hs', word_fillLeaves,
      if_pos ⟨rfl, index_lt n 3⟩, index_three]
    obtain ⟨hpm, hidx⟩ := tableAt_of_stem (by decide) hpmd hrng
    have hold : cell s root n = .block d := by
      rw [cell_of_block hpm (by rw [hidx, hd]; exact hv) (by rw [hidx, hd]; exact ht), hidx, hd]
    obtain ⟨-, pa, perm, hb, hmap⟩ := hold ▸ h.shows n hn
    refine ⟨?_, .inr ⟨_, hmap, hb.leaf (Nat.mod_lt n (by decide))⟩⟩
    rw [hrng]
    exact update_self ..
  · rw [hsh'.cell_store_of_ne _ hn hn₀ (by decide) hpmd' hrng, hsh.cell_of_agree hagr hn]
    exact (h.shows n hn).congr rfl (update_of_ne hrng _ _)

/-- `aarch64_pt_split_block_2m`. -/
lemma Refines.splitBlock2m (h : Refines root s a) (hrt : rootValid root) (va : Word) (alloc : PageAllocator) :
    Allows root a (.split va) alloc (splitBlock2m root va alloc s) := by
  have hn := pageOf_lt va
  obtain ⟨own, hsh⟩ := h.shape
  unfold Aarch64.splitBlock2m
  rw [if_neg (not_not.2 hrt), hsh.unpublished, tableIndex_two]
  refine h.needs (fun hcan => .inl ⟨rfl, fun hok => hcan hok.1⟩) fun hcan => ?_
  refine h.needs (fun hal => .inl ⟨rfl, fun hok => hal hok.2⟩) fun hal => ?_
  rw [if_neg Bool.false_ne_true]
  have hva : BlockVa va := ⟨hcan, hal⟩
  cases htk : alloc.take s.used with
  | none =>
    have halc : s.alloc4kPage alloc = none := by rw [alloc4kPage, htk]
    simp only [halc]
    exact h.refused (.inr (.inl rfl))
  | some c =>
    have halc : s.alloc4kPage alloc = some (c, { s with used := update s.used c true }) := by
      rw [alloc4kPage, htk]
    obtain ⟨hf, hpg, h0⟩ := alloc.sound _ _ htk
    have hc := hsh.not_own hf
    obtain ⟨hagr, hsh1⟩ := hsh.take hc
    have hu : (zeroPage { s with used := update s.used c true } c).used c = true := by
      exact update_self c true s.used
    simp only [halc]
    generalize zeroPage { s with used := update s.used c true } c = s1 at hagr hsh1 hu ⊢
    have h1 : Refines root s1 a := h.of_agree hsh hsh1 fun p x hp => (hagr p x hp).1
    have hb : Refines root (s1.free4kPage c) a := by
      refine h1.of_agree hsh1 (hsh1.of_agree (fun _ _ _ => rfl) (fun p x hp => ?_) rfl) fun _ _ _ => rfl
      have hpc : p ≠ c := by
        rintro rfl
        rw [hc] at hp
        cases hp
      exact (update_of_ne hpc _ _).trans (hsh1.used p x hp)
    have hw := hsh1.walkToL2 va none
    rw [hw.reads rfl] at hw
    cases hr : (walkToL2 root va none s1).1 with
    | error rc =>
      obtain ⟨hcl, rfl⟩ | ⟨h3, -⟩ := hw.failed rc hr
      · exact hb.refused (.inr (.inr ⟨.inl rfl, h1.not_block hn hcl⟩))
      · cases h3
    | ok pmd =>
      have hpmd := hw.found pmd hr
      dsimp only
      obtain ⟨hblk, hwr⟩ | ⟨hblk, hv, ht, -⟩ := h1.level2 hn hpmd
      · split_ifs with hv ht
        · exact hb.refused (.inr (.inr ⟨.inl rfl, hblk⟩))
        · exact hb.refused (.inr (.inr ⟨.inr rfl, hblk⟩))
        · obtain hwr | hwr := hwr
          · exact absurd hwr hv
          · exact absurd hwr ht
      · rw [if_neg hv, if_neg (not_not.2 ht)]
        exact ⟨_, .split hva hblk, h1.linkSplit hsh1 hn hpmd hc hu hpg h0 hv ht⟩

/-! ## Runs -/

/-- The address that `replace_4k` is called with is page aligned. -/
def AlignedReplace (_ : Tables) (e : PtEvent) : Prop :=
  match e.call with
  | .replace4k _ pa _ _ => pa &&& 0xfff = 0
  | _ => True

/-- A root whose table page has just been cleared, and that is not published. -/
structure Fresh (root : Word) (s : Tables) : Prop where
  used : s.used root = true
  clear : ∀ i < 512, s.word root i = 0
  unpublished : s.published root = false

/-- A fresh root represents the empty map. -/
lemma Fresh.refines (h : Fresh root s) : Refines root s .empty := by
  have hsh : Shape root (update (fun _ => none) root (some (0, 0))) s := by
    refine ⟨update_self .., ?_, ?_, h.unpublished⟩
    · intro p x hp
      by_cases hpr : p = root
      · rw [hpr, h.used]
      · rw [update_of_ne hpr] at hp
        cases hp
    intro p k c i hp hk hi
    by_cases hpr : p = root
    · rw [hpr, h.clear i hi]
      exact .empty
    · rw [update_of_ne hpr] at hp
      cases hp
  refine ⟨⟨_, hsh⟩, fun n hn => ?_⟩
  have hc : cell s root n = .page 0 := by
    refine cell_of_invalid (k := 0) (by decide) rfl ?_
    rw [h.clear _ (index_lt n 0)]
    exact word_zero_and _
  rw [hc]
  exact ⟨rfl, .inl ⟨rfl, rfl⟩⟩

/-- **One call.** -/
lemma ptStep_refines (hr : rootValid root) {e : PtEvent} (h : Refines root s a)
    (hs : guarded (ptStep root) AlignedReplace s e s') : ∃ a', PtSpec a e a' ∧ Refines root s' a' := by
  obtain ⟨hal, hrun⟩ := hs
  obtain ⟨call, alloc, result⟩ := e
  have hres : result = (call.run root alloc s).1 := by rw [hrun]
  have hst : s' = (call.run root alloc s).2 := by rw [hrun]
  rw [hres, hst]
  cases call with
  | map4k va pa perm sw => exact h.map4kExt hr va pa perm sw alloc
  | replace4k va pa perm sw => exact h.replace4k hr va pa perm sw alloc hal
  | unmap4k va => exact h.unmap4kExt hr va alloc
  | map2m va pa perm => exact h.map2mBlock hr va pa perm alloc
  | unmap2m va => exact h.unmap2mBlock hr va alloc
  | split va => exact h.splitBlock2m hr va alloc

/-- **The page table is a partial map.** On an unpublished root, every sequence of calls with page aligned
addresses for `replace_4k` does to the tables what the specification does to a partial map: afterwards each
query is answered, and each page translated, from the map. -/
theorem pageTable_refines_partialMap (root : Word) (hroot : rootValid root) (s₀ s : Tables)
    (es : List PtEvent) (hfresh : Fresh root s₀)
    (hrun : Run (guarded (ptStep root) AlignedReplace) s₀ es s) : ∃ a, Run PtSpec .empty es a ∧
      ∀ va, query4kExt root va s = a.answer va ∧ translate s root (pageOf va) = a.translation (pageOf va) := by
  have hmatch : ∀ s e s' a, Refines root s a → guarded (ptStep root) AlignedReplace s e s' →
      ∃ a', PtSpec a e a' ∧ Refines root s' a' := fun _ _ _ _ h hst => ptStep_refines hroot h hst
  obtain ⟨a, hs, hR⟩ := hrun.simulates hmatch hfresh.refines
  exact ⟨a, hs, fun va => ⟨hR.query hroot va, hR.translate (pageOf_lt va)⟩⟩

/-! ## A run, and where the map differs from its arguments -/

/-- Tables with a cleared root at page `0x1000` and nothing else in use. -/
def clearTables : Tables := ⟨fun _ _ => 0, fun p => p == 0x1000, fun _ => false⟩

/-- An allocator of four pages. -/
def smallAllocator : PageAllocator where
  take used := [0x2000, 0x3000, 0x4000, 0x5000].find? fun p => !used p
  sound := by
    intro used p hp
    have hfree := List.find?_some hp
    have hmem := List.mem_of_find?_eq_some hp
    rw [Bool.not_eq_true'] at hfree
    refine ⟨hfree, ?_⟩
    have hall : ([0x2000, 0x3000, 0x4000, 0x5000] : List Word).all
        (fun q => decide ((q &&& 0xfff = 0 ∧ q < PA_LIMIT) ∧ q ≠ 0)) = true := rfl
    obtain ⟨⟨hal, hlim⟩, h0⟩ := of_decide_eq_true (List.all_eq_true.1 hall p hmem)
    exact ⟨⟨hal, hlim⟩, h0⟩

lemma clearTables_fresh : Fresh 0x1000 clearTables := ⟨rfl, fun _ _ => rfl, rfl⟩

/-- The tables after page `0x1000` has been mapped. -/
def mappedTables : Tables := (map4kExt 0x1000 0x1000 0x50000000 USER_RW 0 smallAllocator clearTables).2

/-- Two calls and what they return: a page is mapped, and then given another mapping. -/
def mapThenReplace : List PtEvent :=
  [⟨.map4k 0x1000 0x50000000 USER_RW 0, smallAllocator, .code .ok⟩,
    ⟨.replace4k 0x1000 0x40000000 USER_RO SOFTWARE_COW, smallAllocator,
      ⟨.ok, some 0x50000000, some USER_RW, some 0⟩⟩]

/-- The theorem for a page that is mapped and then replaced. -/
theorem pageTable_refines_partialMap_replace : ∃ s a, Run PtSpec .empty mapThenReplace a ∧
      ∀ va, query4kExt 0x1000 va s = a.answer va ∧
        translate s 0x1000 (pageOf va) = a.translation (pageOf va) := by
  have h1 : (map4kExt 0x1000 0x1000 0x50000000 USER_RW 0 smallAllocator clearTables).1 = .code .ok := by
    rfl
  have h2 : (replace4k 0x1000 0x1000 0x40000000 USER_RO SOFTWARE_COW mappedTables).1 =
      ⟨.ok, some 0x50000000, some USER_RW, some 0⟩ := by
    rfl
  have hs1 : guarded (ptStep 0x1000) AlignedReplace clearTables
      ⟨.map4k 0x1000 0x50000000 USER_RW 0, smallAllocator, .code .ok⟩ mappedTables :=
    ⟨trivial, Prod.ext h1 rfl⟩
  have hs2 : guarded (ptStep 0x1000) AlignedReplace mappedTables
      ⟨.replace4k 0x1000 0x40000000 USER_RO SOFTWARE_COW, smallAllocator,
        ⟨.ok, some 0x50000000, some USER_RW, some 0⟩⟩
      (replace4k 0x1000 0x1000 0x40000000 USER_RO SOFTWARE_COW mappedTables).2 :=
    ⟨(by decide : (0x40000000 : Word) &&& 0xfff = 0), Prod.ext h2 rfl⟩
  exact ⟨_, pageTable_refines_partialMap 0x1000 (by decide) clearTables _ mapThenReplace
    clearTables_fresh (.cons hs1 (.cons hs2 (.nil _)))⟩

/-- A mapping without access is reported without its permission, and a page is seen in both canonical
halves: after one call for `0x1000` with permission `USER_RW`, its query gives permission 0, and the query
for `0xffff000000001000`, which found nothing before, gives the same. -/
theorem query_after_stash : (query4kExt 0x1000 0xffff000000001000 clearTables).rc = .enoent ∧
      (map4kExt 0x1000 0x1000 0x40000000 USER_RW SOFTWARE_PROTNONE smallAllocator clearTables).1 = .code .ok ∧
      query4kExt 0x1000 0x1000
          (map4kExt 0x1000 0x1000 0x40000000 USER_RW SOFTWARE_PROTNONE smallAllocator clearTables).2 =
        ⟨.eprotNone, some 0x40000000, some 0, some SOFTWARE_PROTNONE⟩ ∧ query4kExt 0x1000 0xffff000000001000
          (map4kExt 0x1000 0x1000 0x40000000 USER_RW SOFTWARE_PROTNONE smallAllocator clearTables).2 =
        ⟨.eprotNone, some 0x40000000, some 0, some SOFTWARE_PROTNONE⟩ := by
  decide

/-- `replace_4k` does not check that the address is page aligned: it does what it would do for the page that
contains it. -/
lemma replace4k_rounds_down (root va pa : Word) (perm : Perm) (sw : Word) (s : Tables) (hpa : pa < PA_LIMIT) :
    replace4k root va pa perm sw s = replace4k root va (pa &&& PA_MASK) perm sw s := by
  have hbuild : buildLeafDesc (pa &&& PA_MASK) perm sw = buildLeafDesc pa perm sw := by
    simp [buildLeafDesc, BitVec.and_assoc]
  have hm : pa &&& PA_MASK < PA_LIMIT := by
    exact lt_of_le_of_lt (BitVec.toNat_and .. ▸ Nat.and_le_left) hpa
  unfold replace4k
  simp only [hbuild, store_store, ite_self, if_neg (BitVec.not_le.2 hpa), if_neg (BitVec.not_le.2 hm)]

end OS01.Aarch64
