import OS01.Aarch64.RuntimeTree

/-!
# The runtime tree maps the intended set

For a list of RAM ranges that the planner accepts, and callbacks that hand out the pages of its pool one
after the other, the builder does not fail, uses every planned page, and the hardware then translates
exactly the addresses of the kernel window, of the device window and of the RAM, each to itself.

`TreeOk` is the invariant of the install loop. Its parameters are what the tree is about: which tables of
levels 1 and 2 exist (`levels`, by the leading indices they stand for) and what each 2 MiB range shows
(`leaf`). A missing table is added by `TreeOk.grow`, which rests on `Shape.grow`, and a block by
`TreeOk.store`; the pages used are counted by the tables that exist, so that the count of buckets in the plan
is the number of pages needed (`installAll`). What the tree then shows is read off by `TreeOk.hwTranslate`.
-/

namespace OS01.Aarch64

open BitVec List Function

/-! ## The pool and the callbacks -/

/-- Page `k` of the pool of an arena. -/
def tablePage (arena : EarlyArena) (k : Nat) : Word := BitVec.ofNat 64 (arena.tableBasePa + k * PAGE_4K)

/-- Callbacks that hand out the pages of the pool in ascending order, and find those they have handed out. -/
structure HandsOut (ops : TreeOps) (arena : EarlyArena) : Prop where
  alloc : ∀ k < arena.tablePages, ops.alloc k = .ok (tablePage arena k, some (tablePage arena k))
  resolve : ∀ k < arena.tablePages, ∀ n, k < n → ops.resolve n (tablePage arena k) = some (tablePage arena k)

variable {ram : List MemoryRange} {arena : EarlyArena} {ops : TreeOps} {b : RtBuilder} {c p pa : Word} {perm : Perm}
  {k n va : Nat} {own : Word → Option (Nat × Nat)} {levels levels' : Nat → Finset Nat} {leaf leaf' : Nat → Cell}

section

variable (h : Planned ram arena) (hk : k < arena.tablePages)
include h hk

lemma Planned.toNat_tablePage : (tablePage arena k).toNat = arena.tableBasePa + k * 4096 := by
  have hhg := h.high
  simp only [PAGE_4K, M1_ARENA_HI] at hhg
  rw [tablePage, toNat_ofNat]
  exact Nat.mod_eq_of_lt (by simp only [PAGE_4K]; omega)

lemma Planned.pageAddr : PageAddr (tablePage arena k) := by
  have hnat := h.toNat_tablePage hk
  have hal := h.aligned
  have hhg := h.high
  simp only [PAGE_4K, M1_ARENA_HI] at hal hhg
  refine ⟨(and_low_eq_zero_iff _ (by decide : (0xfff : Word).toNat = 2 ^ 12 - 1)).2 ?_, ?_⟩
  · rw [hnat]
    omega
  · have hlim : PA_LIMIT.toNat = 2 ^ 40 := rfl
    rw [lt_def]
    omega

lemma Planned.tablePage_ne_zero : tablePage arena k ≠ 0 := by
  intro hz
  have hnat := h.toNat_tablePage hk
  have hlow := h.low
  rw [hz] at hnat
  simp only [M1_ARENA_LOW] at hlow
  change 0 = _ at hnat
  omega

lemma Planned.tablePage_inj {k' : Nat}
    (hk' : k' < arena.tablePages) (heq : tablePage arena k = tablePage arena k') : k = k' := by
  have hnat := congrArg BitVec.toNat heq
  rw [h.toNat_tablePage hk, h.toNat_tablePage hk'] at hnat
  omega

end

/-! ## Descriptors -/

lemma PageAddr.and_rtMask (h : PageAddr c) : c &&& RT_DESC_L_PA_MASK = c :=
  and_mask_eq 40 rfl h.aligned h.toNat_lt

/-- The builder writes the descriptors that the walkers of the page table know. -/
lemma rtEncodeTableDesc_eq (h : PageAddr c) : rtEncodeTableDesc c = encodeTableDesc c := by
  rw [rtEncodeTableDesc, encodeTableDesc, h.and_rtMask, h.and_mask]

/-- The page is found again in its descriptor. -/
lemma encodeTableDesc_and_rtMask (h : PageAddr c) : encodeTableDesc c &&& RT_DESC_L_PA_MASK = c := by
  rw [encodeTableDesc, h.and_mask, and_or_distrib_right, h.and_rtMask]
  have hz : (DESC_VALID ||| DESC_TABLE) &&& RT_DESC_L_PA_MASK = 0#64 := rfl
  rw [hz, zero_or]

lemma encodeTableDesc_bits (c : Word) : encodeTableDesc c &&& 3 = 3 := by
  rw [encodeTableDesc, or_and_of_disjoint (and_mask_and rfl)]
  rfl

lemma encodeTableDesc_kind (c : Word) :
    encodeTableDesc c &&& DESC_VALID ≠ 0 ∧ encodeTableDesc c &&& DESC_TABLE ≠ 0 := by
  rw [encodeTableDesc, or_and_of_disjoint (and_mask_and rfl), or_and_of_disjoint (and_mask_and rfl)]
  decide

lemma encodeTableDesc_and_mask (h : PageAddr c) : encodeTableDesc c &&& PA_MASK = c := by
  rw [encodeTableDesc, h.and_mask, and_or_distrib_right, h.and_mask]
  have hz : (DESC_VALID ||| DESC_TABLE) &&& PA_MASK = 0#64 := rfl
  rw [hz, zero_or]

/-- What the three permissions of the tree allow. -/
def permRights (perm : Perm) : Rights :=
  ⟨true, false, perm &&& EXEC != 0, false, perm &&& DEVICE != 0⟩

/-- The permissions the builder uses. -/
def TreePerm (perm : Perm) : Prop :=
  perm = KERNEL_RW ||| EXEC ∨ perm = KERNEL_RW ||| DEVICE ∨ perm = KERNEL_RW

/-- The bits of a block descriptor that do not come from its address. -/
lemma rtEncodeBlockDesc_eq (hpa : BlockAddr pa) (hpr : TreePerm perm) :
    ∃ base : Word, rtEncodeBlockDesc pa perm = base ||| pa ∧ base &&& DESC_VALID ≠ 0 ∧ base &&& DESC_TABLE = 0 ∧
      base &&& DESC_AF ≠ 0 ∧ base &&& BLOCK_OA_MASK = 0 ∧ rightsOf base = permRights perm := by
  have hm : pa &&& RT_DESC_L2_PA_MASK = pa := and_mask_eq 40 rfl hpa.aligned hpa.toNat_lt
  obtain rfl | rfl | rfl := hpr
  · refine ⟨_, by rw [rtEncodeBlockDesc, if_neg (by decide), if_pos (by decide), hm], ?_⟩
    decide
  · refine ⟨_, by rw [rtEncodeBlockDesc, if_pos (by decide), hm], ?_⟩
    decide
  · refine ⟨_, by rw [rtEncodeBlockDesc, if_neg (by decide), if_neg (by decide), hm], ?_⟩
    decide

/-- What the hardware makes of a block descriptor of the builder. -/
lemma leafTranslate_block (hpa : BlockAddr pa) (hpr : TreePerm perm) (va : Nat) :
    leafTranslate (rtEncodeBlockDesc pa perm) BLOCK_OA_MASK 21 va =
      some (pa.toNat + va % 2 ^ 21, permRights perm) := by
  obtain ⟨base, heq, -, -, haf, hoa, hrights⟩ := rtEncodeBlockDesc_eq hpa hpr
  have hsee : ∀ m : Word, BLOCK_OA_MASK &&& m = 0 → (base ||| pa) &&& m = base &&& m :=
    fun m hm => or_and_of_disjoint (hpa.and_of_disjoint hm)
  have hout : (base ||| pa) &&& BLOCK_OA_MASK = pa := by
    rw [and_or_distrib_right, hoa, hpa.and_mask]
    exact zero_or
  have hs : rightsOf (base ||| pa) = rightsOf base := by
    simp only [rightsOf]
    rw [hsee 0x80 rfl, hsee 0x40 rfl, hsee DESC_PXN rfl, hsee DESC_UXN rfl, hsee (0x7 <<< 2) rfl]
  rw [heq, leafTranslate, hsee DESC_AF rfl, if_neg haf, hout, hs, hrights]

lemma rtEncodeBlockDesc_kind (hpa : BlockAddr pa) (hpr : TreePerm perm) :
    rtEncodeBlockDesc pa perm &&& DESC_VALID ≠ 0 ∧ rtEncodeBlockDesc pa perm &&& DESC_TABLE = 0 := by
  obtain ⟨base, heq, hval, htab, -⟩ := rtEncodeBlockDesc_eq hpa hpr
  rw [heq, or_and_of_disjoint (hpa.and_of_disjoint rfl), or_and_of_disjoint (hpa.and_of_disjoint rfl)]
  exact ⟨hval, htab⟩

/-! ## The invariant -/

/-- The tables of a builder, as the walks read them. -/
def RtBuilder.tables (b : RtBuilder) : Tables := ⟨b.mem, fun _ => true, fun _ => false⟩

/-- The tree so far. `levels j` are the leading indices of the tables of level `j`, and `leaf` is what each
2 MiB range shows. -/
structure TreeOk (arena : EarlyArena) (levels : Nat → Finset Nat) (leaf : Nat → Cell)
    (own : Word → Option (Nat × Nat)) (b : RtBuilder) : Prop where
  shape : Shape (tablePage arena 0) own b.tables
  root : b.rootVa = tablePage arena 0
  first : b.firstPa = tablePage arena 0
  last : b.lastPa = tablePage arena (b.pagesIssued - 1)
  cap : b.pagesCap = arena.tablePages
  issued : b.pagesIssued = 1 + (levels 1).card + (levels 2).card
  owned : ∀ p x, own p = some x → x.1 ≤ 2 ∧ ∃ k < b.pagesIssued, p = tablePage arena k
  level : ∀ j, j = 1 ∨ j = 2 → ∀ n < PAGES,
    (tableAt b.tables (tablePage arena 0) n j).isSome = true ↔ stem n j ∈ levels j
  cells : ∀ n < PAGES, cell b.tables (tablePage arena 0) n = leaf (n / 512)

/-- A builder also remembers the tables of level 1. -/
structure Built (arena : EarlyArena) (levels : Nat → Finset Nat) (leaf : Nat → Cell) (b : RtBuilder) : Prop where
  tree : ∃ own, TreeOk arena levels leaf own b
  pud : ∀ n < PAGES, stem n 1 < 2 →
    b.pud (stem n 1) = (tableAt b.tables (tablePage arena 0) n 1).map fun p => (p, p)

/-- With a page left, the next page of the pool is handed out. -/
lemma rtAllocOne_eq (hp : Planned ram arena) (ho : HandsOut ops arena) (hcap : b.pagesCap = arena.tablePages)
    (hr : b.pagesIssued < arena.tablePages) :
    rtAllocOne ops b = .ok ((tablePage arena b.pagesIssued, tablePage arena b.pagesIssued),
      b.issue (tablePage arena b.pagesIssued) (tablePage arena b.pagesIssued)) := by
  have h1 : require (b.pagesIssued < b.pagesCap) ENOMEM = .ok () := require_eq_ok.2 (by omega)
  have h2 : require (tablePage arena b.pagesIssued ≠ 0) EINVAL = .ok () :=
    require_eq_ok.2 (hp.tablePage_ne_zero hr)
  have h3 : require (tablePage arena b.pagesIssued &&& 0xfff = 0) EINVAL = .ok () :=
    require_eq_ok.2 (hp.pageAddr hr).aligned
  rw [rtAllocOne, h1, ho.alloc _ hr]
  dsimp only [bind, Except.bind]
  rw [h2, h3]

lemma TreeOk.setPud (h : TreeOk arena levels leaf own b) (i : Nat) (pa va : Word) :
    TreeOk arena levels leaf own (b.setPud i pa va) :=
  ⟨h.shape, h.root, h.first, h.last, h.cap, h.issued, h.owned, h.level, h.cells⟩

/-- Pages that are not handed out are no tables. -/
lemma TreeOk.fresh (h : TreeOk arena levels leaf own b) (hp : Planned ram arena)
    (hr : b.pagesIssued < arena.tablePages) : own (tablePage arena b.pagesIssued) = none := by
  cases hown : own (tablePage arena b.pagesIssued) with
  | none => rfl
  | some x =>
    obtain ⟨-, k, hk, heq⟩ := h.owned _ x hown
    have := hp.tablePage_inj hr (by omega) heq
    omega

section

variable (h : TreeOk arena levels leaf own b)
include h

/-- A slot above level 2 is empty or leads to a table of the pool. -/
lemma TreeOk.slot (hn : n < PAGES) (hk : k < 2) (hat : tableAt b.tables (tablePage arena 0) n k = some p) :
    (b.mem p (index n k) = 0 ∧ tableAt b.tables (tablePage arena 0) n (k + 1) = none ∧
        cell b.tables (tablePage arena 0) n = .page 0) ∨
      ∃ q, b.mem p (index n k) = encodeTableDesc q ∧ tableAt b.tables (tablePage arena 0) n (k + 1) = some q ∧
        PageAddr q ∧ ∃ j < b.pagesIssued, q = tablePage arena j := by
  have hs := h.shape.slot_tableAt hn (by omega) hat
  have hnx := tableAt_succ hat
  have hc := cell_of_invalid (by omega) hat
  change SlotOk own k _ (b.mem p (index n k)) at hs
  change _ = parentPa (b.mem p (index n k)) at hnx
  change b.mem p (index n k) &&& DESC_VALID = 0 → _ at hc
  generalize b.mem p (index n k) = d at hs hnx hc
  cases hs with
  | empty =>
    have hz : (0 : Word) &&& DESC_VALID = 0 := rfl
    exact .inl ⟨rfl, by rw [hnx, parentPa_of_invalid hz], hc hz⟩
  | table q hq h0 hown =>
    exact .inr ⟨q, rfl, by rw [hnx, parentPa_encodeTableDesc hq h0], hq, (h.owned q _ hown).2⟩
  | block d hk2 hv ht => omega

/-- **Adding a table** of level `k + 1` on the path of page `n`. -/
lemma TreeOk.grow (hp : Planned ram arena)
    (hr : b.pagesIssued < arena.tablePages) (hn : n < PAGES) (hk : k < 2)
    (hat : tableAt b.tables (tablePage arena 0) n k = some p)
    (hnn : tableAt b.tables (tablePage arena 0) n (k + 1) = none) : let c := tablePage arena b.pagesIssued
    let b' := (b.issue c c).store p (index n k) (rtEncodeTableDesc c)
    TreeOk arena (update levels (k + 1) (insert (stem n (k + 1)) (levels (k + 1)))) leaf
        (update own c (some (k + 1, stem n (k + 1)))) b' ∧
      Grown (tablePage arena 0) n k c b.tables (update own c (some (k + 1, stem n (k + 1)))) b'.tables := by
  intro c b'
  have hc := h.fresh hp hr
  have hagr : ∀ q x, own q = some x → (b.issue c c).tables.word q = b.tables.word q := by
    intro q x hq
    refine update_of_ne ?_ _ _
    rintro rfl
    rw [hc] at hq
    cases hq
  have hsh : Shape (tablePage arena 0) own (b.issue c c).tables :=
    h.shape.of_agree hagr (fun _ _ _ => rfl) rfl
  have hv : b.tables.word p (index n k) &&& DESC_VALID = 0 := by
    change b.mem p (index n k) &&& DESC_VALID = 0
    obtain ⟨hz, -⟩ | ⟨q, -, hsm, -⟩ := h.slot hn hk hat
    · rw [hz]
      rfl
    · rw [hnn] at hsm
      cases hsm
  have hzr : ∀ j, (b.issue c c).tables.word c j = 0 := fun j => congrFun (update_self c _ b.mem) j
  have hgr := h.shape.grow hn (by omega) hat hv hc (hp.pageAddr hr) (hp.tablePage_ne_zero hr) hagr hsh rfl hzr
  rw [← rtEncodeTableDesc_eq (hp.pageAddr hr)] at hgr
  change Grown _ _ _ _ _ _ b'.tables at hgr
  have hnew : stem n (k + 1) ∉ levels (k + 1) := by
    rw [← h.level (k + 1) (by omega) n hn, hnn]
    exact Bool.false_ne_true
  refine ⟨?_, hgr⟩
  exact {
    shape := hgr.shape
    root := h.root
    first := by
      change (if b.pagesIssued = 0 then c else b.firstPa) = _
      have := h.issued
      rw [if_neg (by omega), h.first]
    last := by
      change c = tablePage arena (b.pagesIssued + 1 - 1)
      rw [Nat.add_sub_cancel]
    cap := h.cap
    issued := by
      change b.pagesIssued + 1 = _
      rw [h.issued]
      have hcr := Finset.card_insert_of_notMem hnew
      rcases (by omega : k = 0 ∨ k = 1) with rfl | rfl
      · rw [update_self, update_of_ne (by decide), hcr, Nat.zero_add]
        omega
      · rw [update_self, hcr]
        rfl
    owned := by
      intro q x hq
      change x.1 ≤ 2 ∧ ∃ j < b.pagesIssued + 1, q = tablePage arena j
      by_cases hqc : q = c
      · rw [hqc, update_self, Option.some.injEq] at hq
        subst hq
        exact ⟨by dsimp only; omega, b.pagesIssued, by omega, hqc⟩
      · rw [update_of_ne hqc] at hq
        obtain ⟨hle, j, hj, heq⟩ := h.owned q x hq
        exact ⟨hle, j, by omega, heq⟩
    level := by
      intro j hj m hm
      rw [hgr.path m hm j (by omega)]
      by_cases hjk : j = k + 1
      · subst hjk
        rw [update_self, Finset.mem_insert]
        by_cases hs : stem m (k + 1) = stem n (k + 1)
        · rw [if_pos ⟨rfl, hs⟩]
          exact ⟨fun _ => .inl hs, fun _ => rfl⟩
        · rw [if_neg (fun hand => hs hand.2), h.level _ hj m hm]
          exact ⟨.inr, fun hor => hor.resolve_left hs⟩
      · rw [if_neg (fun hand => hjk hand.1), update_of_ne hjk]
        exact h.level j hj m hm
    cells := fun m hm => by rw [hgr.cells m hm, h.cells m hm] }

/-- **Adding a block** in a range that shows nothing. -/
lemma TreeOk.store (hn : n < PAGES) {d : Word}
    (hat : tableAt b.tables (tablePage arena 0) n 2 = some p) (hl : leaf (n / 512) = .page 0)
    (hv : d &&& DESC_VALID ≠ 0) (ht : d &&& DESC_TABLE = 0) : b.mem p (index n 2) = 0 ∧
      TreeOk arena levels (update leaf (n / 512) (.block d)) own (b.store p (index n 2) d) ∧
      ∀ m < PAGES, ∀ j ≤ 2, tableAt (b.store p (index n 2) d).tables (tablePage arena 0) m j =
        tableAt b.tables (tablePage arena 0) m j := by
  have hpt : ∀ m < PAGES, ∀ j ≤ 2, tableAt (b.store p (index n 2) d).tables (tablePage arena 0) m j =
      tableAt b.tables (tablePage arena 0) m j :=
    fun m hm j hj => h.shape.tableAt_store d hm hn (by omega) hat hj
  have hs := h.shape.slot_tableAt hn (by omega) hat
  have hc := h.cells n hn
  rw [hl] at hc
  refine ⟨?_, ?_, hpt⟩
  · change SlotOk own 2 _ (b.mem p (index n 2)) at hs
    generalize hd : b.mem p (index n 2) = d' at hs
    cases hs with
    | empty => rfl
    | table q hq h0 hown =>
      have := (h.owned q _ hown).1
      omega
    | block d' hk hv' ht' =>
      change b.tables.word p (index n 2) = d' at hd
      rw [cell_of_block hat (by rw [hd]; exact hv') (by rw [hd]; exact ht')] at hc
      cases hc
  · exact {
      shape := h.shape.store (h.shape.own_tableAt hn (by omega) hat) fun _ => .block d rfl hv ht
      root := h.root
      first := h.first
      last := h.last
      cap := h.cap
      issued := h.issued
      owned := h.owned
      level := fun j hj m hm => by rw [hpt m hm j (by omega)]; exact h.level j hj m hm
      cells := by
        intro m hm
        have hstore := h.shape.cell_store_block d hm hn hat ht
        change cell (b.store p (index n 2) d).tables _ m = _ at hstore
        rw [hstore, if_pos hv, h.cells m hm]
        by_cases hmn : m / 512 = n / 512
        · rw [if_pos hmn, hmn, update_self]
        · rw [if_neg hmn, update_of_ne hmn] }

end

lemma index_zero_eq (hn : n < PAGES) : index n 0 = stem n 1 := by
  rw [stem_succ n (by omega), stem_zero hn]
  omega

/-! ## Finding and installing tables -/

section

variable (h : Built arena levels leaf b)
include h

lemma Built.level {j : Nat} (hj : j = 1 ∨ j = 2) (hn : n < PAGES) :
    (tableAt b.tables (tablePage arena 0) n j).isSome = true ↔ stem n j ∈ levels j := by
  obtain ⟨own, ht⟩ := h.tree
  exact ht.level j hj n hn

lemma Built.findPud (hn : n < PAGES) (hlow : stem n 1 < 2) :
    rtFindPud b (index n 0) = (tableAt b.tables (tablePage arena 0) n 1).map fun p => (p, p) := by
  rw [rtFindPud, index_zero_eq hn, if_neg (by omega), h.pud n hn hlow]

/-- A table of level 2 is found through the descriptor that was written for it. -/
lemma Built.findPmd (ho : HandsOut ops arena)
    (hiss : b.pagesIssued ≤ arena.tablePages) (hn : n < PAGES) (hlow : stem n 1 < 2) :
    rtFindPmd ops b (index n 0) (index n 1) =
      .ok ((tableAt b.tables (tablePage arena 0) n 2).map fun p => (p, p)) := by
  obtain ⟨own, ht⟩ := h.tree
  have hidx := index_lt n 1
  rw [rtFindPmd, index_zero_eq hn, if_neg (by omega), h.pud n hn hlow]
  cases hat : tableAt b.tables (tablePage arena 0) n 1 with
  | none => rw [tableAt_mono_none hat]; rfl
  | some p =>
    change (if b.mem p (index n 1) = 0 then _ else _) = _
    obtain ⟨hz, hnn, -⟩ | ⟨q, hq, hs, hpg, k, hk, rfl⟩ := ht.slot hn (by omega) hat
    · rw [if_pos hz, hnn]
      rfl
    have hne : encodeTableDesc (tablePage arena k) ≠ 0 := by
      intro hz
      have hb := encodeTableDesc_bits (tablePage arena k)
      rw [hz] at hb
      exact absurd hb (by decide)
    rw [hq, if_neg hne, encodeTableDesc_and_rtMask hpg, ho.resolve k (by omega) _ hk, hs]
    rfl

variable (hp : Planned ram arena)
include hp

variable (ho : HandsOut ops arena)
include ho

lemma Built.installPud (hn : n < PAGES) (hlow : stem n 1 < 2) (hr : b.pagesIssued < arena.tablePages)
    (hnn : tableAt b.tables (tablePage arena 0) n 1 = none) : ∃ b', rtInstallPud ops b (index n 0) = .ok b' ∧
      Built arena (update levels 1 (insert (stem n 1) (levels 1))) leaf b' := by
  obtain ⟨own, ht⟩ := h.tree
  obtain ⟨ht', hgr⟩ := ht.grow hp hr hn (by omega : 0 < 2) rfl hnn
  have hlt : require (index n 0 < 2) EINVAL = .ok () := require_eq_ok.2 (by rw [index_zero_eq hn]; exact hlow)
  refine ⟨((b.issue (tablePage arena b.pagesIssued) (tablePage arena b.pagesIssued)).store (tablePage arena 0)
    (index n 0) (rtEncodeTableDesc (tablePage arena b.pagesIssued))).setPud (index n 0)
      (tablePage arena b.pagesIssued) (tablePage arena b.pagesIssued), ?_, ⟨_, ht'.setPud _ _ _⟩, ?_⟩
  · rw [rtInstallPud, hlt, rtAllocOne_eq hp ho ht.cap hr, ← ht.root]
    rfl
  intro m hm hm2
  change update b.pud (index n 0) _ (stem m 1) = (tableAt (RtBuilder.store _ _ _ _).tables _ m 1).map _
  rw [hgr.path m hm 1 (by omega), index_zero_eq hn]
  by_cases hs : stem m 1 = stem n 1
  · rw [if_pos ⟨rfl, hs⟩, hs, update_self]
    rfl
  · rw [if_neg (fun hand => hs hand.2), update_of_ne hs]
    exact h.pud m hm hm2

lemma Built.installPmd (hn : n < PAGES) (hlow : stem n 1 < 2) (hr : b.pagesIssued < arena.tablePages)
    (hpud : stem n 1 ∈ levels 1) (hnn : tableAt b.tables (tablePage arena 0) n 2 = none) :
    ∃ b', rtInstallPmd ops b (index n 0) (index n 1) = .ok b' ∧
      Built arena (update levels 2 (insert (stem n 2) (levels 2))) leaf b' := by
  obtain ⟨own, ht⟩ := h.tree
  obtain ⟨p, hat⟩ := Option.isSome_iff_exists.1 ((h.level (.inl rfl) hn).2 hpud)
  obtain ⟨ht', hgr⟩ := ht.grow hp hr hn (by omega : 1 < 2) hat hnn
  have hlt : require (index n 0 < 2) EINVAL = .ok () := require_eq_ok.2 (by rw [index_zero_eq hn]; exact hlow)
  have hlt' : require (index n 1 < 512) EINVAL = .ok () := require_eq_ok.2 (index_lt n 1)
  have hf := h.findPud hn hlow
  rw [hat] at hf
  refine ⟨_, ?_, ⟨_, ht'⟩, ?_⟩
  · rw [rtInstallPmd, hlt, hlt', hf]
    rw [rtAllocOne_eq hp ho ht.cap hr]
    rfl
  · intro m hm hm2
    change b.pud (stem m 1) = _
    rw [hgr.path m hm 1 (by omega), if_neg (by omega), h.pud m hm hm2]

lemma Built.ensurePud (hn : n < PAGES) (hlow : stem n 1 < 2)
    (hr : 1 + (insert (stem n 1) (levels 1)).card + (levels 2).card ≤ arena.tablePages) :
    ∃ b', ensurePud ops b (index n 0) = .ok b' ∧
      Built arena (update levels 1 (insert (stem n 1) (levels 1))) leaf b' := by
  have hf := h.findPud hn hlow
  have hmem := h.level (.inl rfl) hn
  cases hat : tableAt b.tables (tablePage arena 0) n 1 with
  | some p =>
    rw [hat] at hf hmem
    refine ⟨b, by rw [Aarch64.ensurePud, hf]; rfl, ?_⟩
    rw [Finset.insert_eq_of_mem (hmem.1 rfl), update_eq_self]
    exact h
  | none =>
    rw [hat] at hf hmem
    obtain ⟨own, ht⟩ := h.tree
    have hiss := ht.issued
    rw [Finset.card_insert_of_notMem fun hin => Bool.false_ne_true (hmem.2 hin)] at hr
    obtain ⟨b', hi, hblt⟩ := h.installPud hp ho hn hlow (by omega) hat
    have hs : require ((rtFindPud b' (index n 0)).isSome = true) EINVAL = .ok () := by
      rw [require_eq_ok, hblt.findPud hn hlow, Option.isSome_map, hblt.level (.inl rfl) hn]
      exact Finset.mem_insert_self _ _
    refine ⟨b', ?_, hblt⟩
    rw [Aarch64.ensurePud, hf]
    rw [hi]
    dsimp only [bind, Except.bind]
    rw [hs]
    rfl

lemma Built.ensurePmd (hn : n < PAGES) (hlow : stem n 1 < 2) (hpud : stem n 1 ∈ levels 1)
    (hr : 1 + (levels 1).card + (insert (stem n 2) (levels 2)).card ≤ arena.tablePages) :
    ∃ p b', ensurePmd ops b (index n 0) (index n 1) = .ok (p, b') ∧
      tableAt b'.tables (tablePage arena 0) n 2 = some p ∧
      Built arena (update levels 2 (insert (stem n 2) (levels 2))) leaf b' := by
  have hle := Finset.card_le_card (Finset.subset_insert (stem n 2) (levels 2))
  obtain ⟨own, ht⟩ := h.tree
  have hiss := ht.issued
  have hf := h.findPmd ho (by omega) hn hlow
  have hmem := h.level (.inr rfl) hn
  cases hat : tableAt b.tables (tablePage arena 0) n 2 with
  | some p =>
    rw [hat] at hf hmem
    refine ⟨p, b, by rw [Aarch64.ensurePmd, hf]; rfl, hat, ?_⟩
    rw [Finset.insert_eq_of_mem (hmem.1 rfl), update_eq_self]
    exact h
  | none =>
    rw [hat] at hf hmem
    rw [Finset.card_insert_of_notMem fun hin => Bool.false_ne_true (hmem.2 hin)] at hr
    obtain ⟨b', hi, hblt⟩ := h.installPmd hp ho hn hlow (by omega) hpud hat
    have hs := (hblt.level (.inr rfl) hn).2 (by
      exact Finset.mem_insert_self _ _)
    obtain ⟨p, hat'⟩ := Option.isSome_iff_exists.1 hs
    obtain ⟨own', ht'⟩ := hblt.tree
    have hiss' := ht'.issued
    rw [update_self, update_of_ne (by decide),
      Finset.card_insert_of_notMem fun hin => Bool.false_ne_true (hmem.2 hin)] at hiss'
    have hf' := hblt.findPmd ho (by omega) hn hlow
    rw [hat'] at hf'
    refine ⟨p, b', ?_, hat', hblt⟩
    rw [Aarch64.ensurePmd, hf]
    dsimp only [bind, Except.bind, Option.map_none]
    rw [hi]
    dsimp only
    rw [hf']
    rfl

end

/-! ## The install loop -/

/-- The leading indices of the tables that a list of blocks needs. -/
def levelsOf (done : List (Nat × Perm)) (j : Nat) : Finset Nat := bucketsOf (48 - 9 * j) (done.map Prod.fst)

/-- What the ranges show once a list of blocks is installed. -/
def leafOf (done : List (Nat × Perm)) (k : Nat) : Cell :=
  match done.find? fun x => x.1 / 2 ^ 21 = k with
  | none => .page 0
  | some x => .block (rtEncodeBlockDesc (BitVec.ofNat 64 x.1) x.2)

/-- A visit of `rt_walk_expected_blocks`. -/
structure Visit (x : Nat × Perm) : Prop where
  aligned : x.1 % 2 ^ 21 = 0
  below : x.1 < 2 ^ 40
  perm : TreePerm x.2

variable {done : List (Nat × Perm)} {x : Nat × Perm}

lemma Visit.blockAddr (h : Visit x) : BlockAddr (BitVec.ofNat 64 x.1) := by
  have hlt := h.below
  have hnat : (BitVec.ofNat 64 x.1).toNat = x.1 := by
    exact Nat.mod_eq_of_lt (by omega)
  refine ⟨(and_low_eq_zero_iff _ (by decide : (0x1fffff : Word).toNat = 2 ^ 21 - 1)).2 ?_, ?_⟩
  · rw [hnat]
    exact h.aligned
  · have hlim : PA_LIMIT.toNat = 2 ^ 40 := rfl
    rw [lt_def, hnat]
    exact hlt

/-- The indices of the first page of a block. -/
lemma Visit.stems (h : Visit x) : x.1 / 4096 < PAGES ∧ stem (x.1 / 4096) 1 = x.1 / 2 ^ 39 ∧
    stem (x.1 / 4096) 2 = x.1 / 2 ^ 30 ∧ x.1 / 4096 / 512 = x.1 / 2 ^ 21 := by
  have hlt := h.below
  simp only [PAGES, stem]
  omega

lemma levelsOf_append (done : List (Nat × Perm)) (x : Nat × Perm) (j : Nat) :
    levelsOf (done ++ [x]) j = insert (x.1 / 2 ^ (48 - 9 * j)) (levelsOf done j) := by
  ext c
  simp only [levelsOf, mem_bucketsOf, map_append, map_cons, map_nil, mem_append,
    mem_singleton, Finset.mem_insert]
  constructor
  · rintro ⟨p, hp | rfl, rfl⟩
    · exact .inr ⟨p, hp, rfl⟩
    · exact .inl rfl
  · rintro (rfl | ⟨p, hp, rfl⟩)
    · exact ⟨x.1, .inr rfl, rfl⟩
    · exact ⟨p, .inl hp, rfl⟩

lemma leafOf_append (hnew : ∀ y ∈ done, y.1 / 2 ^ 21 ≠ x.1 / 2 ^ 21) : leafOf done (x.1 / 2 ^ 21) = .page 0 ∧
      leafOf (done ++ [x]) =
        update (leafOf done) (x.1 / 2 ^ 21) (.block (rtEncodeBlockDesc (BitVec.ofNat 64 x.1) x.2)) := by
  have hn : done.find? (fun y => decide (y.1 / 2 ^ 21 = x.1 / 2 ^ 21)) = none :=
    find?_eq_none.2 fun y hy => by simpa using hnew y hy
  refine ⟨by rw [leafOf, hn], ?_⟩
  funext k
  rw [leafOf, find?_append]
  by_cases hk : k = x.1 / 2 ^ 21
  · subst hk
    rw [hn]
    simp
  rw [update_of_ne hk, leafOf]
  have hx : [x].find? (fun y => decide (y.1 / 2 ^ 21 = k)) = none := find?_eq_none.2 fun y hy => by
      rw [mem_singleton] at hy
      subst hy
      simpa using Ne.symm hk
  rw [hx, Option.or_none]

lemma Built.congr (h : Built arena levels leaf b) (h₁ : levels' 1 = levels 1) (h₂ : levels' 2 = levels 2)
    (hl : leaf' = leaf) : Built arena levels' leaf' b := by
  obtain ⟨own, ht⟩ := h.tree
  subst hl
  refine ⟨⟨own, ht.shape, ht.root, ht.first, ht.last, ht.cap, ?_, ht.owned, ?_, ht.cells⟩, h.pud⟩
  · rw [h₁, h₂]
    exact ht.issued
  · rintro j (rfl | rfl) n hn
    · rw [h₁]
      exact ht.level 1 (.inl rfl) n hn
    · rw [h₂]
      exact ht.level 2 (.inr rfl) n hn

/-- **One installation.** -/
lemma Built.installBlock (h : Built arena (levelsOf done) (leafOf done) b) (hp : Planned ram arena)
    (ho : HandsOut ops arena) (hx : Visit x) (hnew : ∀ y ∈ done, y.1 / 2 ^ 21 ≠ x.1 / 2 ^ 21)
    (hr : 1 + (levelsOf (done ++ [x]) 1).card + (levelsOf (done ++ [x]) 2).card ≤ arena.tablePages) :
    ∃ b', rtInstallBlock ops b x.1 x.2 = .ok b' ∧ Built arena (levelsOf (done ++ [x])) (leafOf (done ++ [x])) b' := by
  obtain ⟨hn, hs1, hs2, hrng⟩ := hx.stems
  have hlow : stem (x.1 / 4096) 1 < 2 := by have := hx.below; omega
  have hl1 : levelsOf (done ++ [x]) 1 = insert (stem (x.1 / 4096) 1) (levelsOf done 1) := by
    rw [levelsOf_append, hs1]
  have hl2 : levelsOf (done ++ [x]) 2 = insert (stem (x.1 / 4096) 2) (levelsOf done 2) := by
    rw [levelsOf_append, hs2]
  rw [hl1, hl2] at hr
  have hle := Finset.card_le_card (Finset.subset_insert (stem (x.1 / 4096) 2) (levelsOf done 2))
  obtain ⟨b1, hpud, hb1⟩ := h.ensurePud hp ho hn hlow (by omega)
  obtain ⟨p, b2, hpmd, hat, hb2⟩ := hb1.ensurePmd hp ho hn hlow
    (by rw [update_self]; exact Finset.mem_insert_self _ _) (by rw [update_self]; exact hr)
  obtain ⟨hemp, hl⟩ := leafOf_append hnew
  obtain ⟨hval, htab⟩ := rtEncodeBlockDesc_kind hx.blockAddr hx.perm
  obtain ⟨own, ht⟩ := hb2.tree
  obtain ⟨hz, ht', hpt⟩ := ht.store hn hat (by rw [hrng]; exact hemp) hval htab
  have hblt : Built arena _ _ (b2.store p (index (x.1 / 4096) 2) (rtEncodeBlockDesc (BitVec.ofNat 64 x.1) x.2)) :=
    ⟨⟨own, ht'⟩, fun m hm hm2 => by rw [hpt m hm 1 (by omega)]; exact hb2.pud m hm hm2⟩
  refine ⟨_, ?_, hblt.congr ?_ ?_ (by rw [hrng, hl])⟩
  · have hlt : require (index (x.1 / 4096) 0 < 2) ERANGE = .ok () :=
      require_eq_ok.2 (by rw [index_zero_eq hn]; exact hlow)
    have hs : require (b2.mem p (index (x.1 / 4096) 2) = 0) EINVAL = .ok () := require_eq_ok.2 hz
    rw [rtInstallBlock]
    dsimp only [bind, Except.bind]
    rw [hlt]
    rw [hpud]
    dsimp only
    rw [hpmd]
    dsimp only
    rw [hs]
    rfl
  · rw [update_of_ne (by decide), update_self, hl1]
  · rw [update_self, update_of_ne (by decide), hl2]

lemma card_levelsOf_le {all : List (Nat × Perm)} (hsub : done <+: all) (j : Nat) :
    (levelsOf done j).card ≤ (levelsOf all j).card := by
  refine Finset.card_le_card fun c hc => ?_
  rw [levelsOf, mem_bucketsOf] at hc ⊢
  obtain ⟨p, hp, rfl⟩ := hc
  exact ⟨p, map_subset Prod.fst hsub.subset hp, rfl⟩

/-- **The install loop** goes through, and uses a page for each table and the root. -/
lemma Built.installAll (hp : Planned ram arena) (ho : HandsOut ops arena) {todo : List (Nat × Perm)}
    (hvisit : ∀ x ∈ todo, Visit x) (hd : (done ++ todo).Pairwise fun x y => x.1 / 2 ^ 21 ≠ y.1 / 2 ^ 21)
    (hr : 1 + (levelsOf (done ++ todo) 1).card + (levelsOf (done ++ todo) 2).card ≤ arena.tablePages)
    (h : Built arena (levelsOf done) (leafOf done) b) :
    ∃ b', todo.foldlM (fun b x => rtInstallBlock ops b x.1 x.2) b = .ok b' ∧
      Built arena (levelsOf (done ++ todo)) (leafOf (done ++ todo)) b' := by
  -- the blocks installed so far move from `todo` to `done`
  induction todo generalizing done b with
  | nil => exact ⟨b, rfl, by rw [append_nil]; exact h⟩
  | cons x todo ih =>
    have happend : done ++ x :: todo = (done ++ [x]) ++ todo := by simp
    rw [happend] at hd hr ⊢
    have hpre : done ++ [x] <+: (done ++ [x]) ++ todo := prefix_append _ _
    have hle1 := card_levelsOf_le hpre 1
    have hle2 := card_levelsOf_le hpre 2
    have hnew : ∀ y ∈ done, y.1 / 2 ^ 21 ≠ x.1 / 2 ^ 21 := fun y hy =>
      (pairwise_append.1 (pairwise_append.1 hd).1).2.2 y hy x mem_cons_self
    obtain ⟨b1, hi, hb1⟩ := h.installBlock hp ho (hvisit x mem_cons_self) hnew (by omega)
    obtain ⟨b', hrs, hb'⟩ := ih (fun y hy => hvisit y (mem_cons_of_mem _ hy)) hd hr hb1
    exact ⟨b', by rw [foldlM_cons, hi]; exact hrs, hb'⟩

/-! ## What the hardware sees -/

/-- The walk of the hardware through a tree of the builder. -/
lemma TreeOk.hwTranslate (h : TreeOk arena levels leaf own b)
    (hva : va < 2 ^ 48) : hwTranslate b.mem (tablePage arena 0) va = match leaf (va / 2 ^ 21) with
      | .page _ => none
      | .block d => leafTranslate d BLOCK_OA_MASK 21 va := by
  have hn : va / 4096 < PAGES := by
    simp only [PAGES]
    omega
  have hc := h.cells _ hn
  rw [Nat.div_div_eq_div_mul] at hc
  change _ = leaf (va / 2 ^ 21) at hc
  simp only [Aarch64.hwTranslate]
  rcases h.slot hn (by omega : 0 < 2) rfl with ⟨hz, -, hnn⟩ | ⟨p1, hd0, hat1, hp1, -⟩
  · rw [hnn] at hc
    rw [hz, if_pos (by decide), ← hc]
  rw [hd0, if_neg (not_not_intro (encodeTableDesc_bits p1)), encodeTableDesc_and_mask hp1]
  rcases h.slot hn (by omega : 1 < 2) hat1 with ⟨hz, -, hnn⟩ | ⟨p2, hd1, hat2, hp2, -⟩
  · rw [hnn] at hc
    rw [hz, if_pos (by decide), ← hc]
  obtain ⟨hval, htab⟩ := encodeTableDesc_kind p2
  rw [hd1, if_neg hval, if_neg htab, encodeTableDesc_and_mask hp2]
  have hs := h.shape.slot_tableAt hn (by omega) hat2
  have hw : b.tables.word p2 (index (va / 4096) 2) = b.mem p2 (index (va / 4096) 2) := rfl
  generalize hd2 : b.mem p2 (index (va / 4096) 2) = d2 at hw
  rw [hw] at hs
  cases hs with
  | empty =>
    rw [cell_of_invalid (by omega) hat2 (by rw [hw]; decide)] at hc
    rw [if_pos (by decide), ← hc]
  | table q hq h0 hown =>
    have := (h.owned q _ hown).1
    omega
  | block d hk hv ht =>
    rw [cell_of_block hat2 (by rw [hw]; exact hv) (by rw [hw]; exact ht), hw] at hc
    rw [if_neg hv, if_pos ht, ← hc]

/-! ## The tree of a plan -/

/-- The permission that an address is to have. -/
def windowPerm (ram : List MemoryRange) (pa : Nat) : Option Perm :=
  if InKernel pa then some (KERNEL_RW ||| EXEC)
  else if InDevice pa then some (KERNEL_RW ||| DEVICE)
  else if InRam ram pa then some KERNEL_RW
  else none

/-- The visit of a range, among the visits of some blocks. -/
lemma find_blocks (perm : Perm) (k : Nat) {ps : List Nat} (hal : ∀ p ∈ ps, p % 2 ^ 21 = 0) :
    (ps.map (·, perm)).find? (fun x => x.1 / 2 ^ 21 = k) =
      if k * 2 ^ 21 ∈ ps then some (k * 2 ^ 21, perm) else none := by
  induction ps with
  | nil => rfl
  | cons p ps ih =>
    have hp := hal p mem_cons_self
    rw [map_cons, find?_cons, ih fun q hq => hal q (mem_cons_of_mem _ hq)]
    by_cases hk : p / 2 ^ 21 = k
    · have heq : k * 2 ^ 21 = p := by omega
      rw [heq, if_pos mem_cons_self, decide_eq_true hk]
    · have hne : k * 2 ^ 21 ≠ p := by omega
      rw [decide_eq_false hk, if_congr (mem_cons.trans (or_iff_right hne)) rfl rfl]

lemma map_fst_rtExpected (ram : List MemoryRange) : (rtExpected ram).map Prod.fst = expectedBlocks ram := by
  simp [rtExpected, expectedBlocks, comp_def]

section

variable (h : RamOk ram)
include h

/-- A window has whole blocks. -/
lemma windowPerm_block (va : Nat) :
    windowPerm ram (va / 2 ^ 21 * 2 ^ 21) = windowPerm ram va := by
  have hram : InRam ram (va / 2 ^ 21 * 2 ^ 21) ↔ InRam ram va := by
    refine exists_congr fun r => and_congr_right fun hr => ?_
    have hst := (h.range r hr).startAligned
    have hend := (h.range r hr).endAligned
    simp only [PAGE_2M] at hst hend
    omega
  have hkernel : InKernel (va / 2 ^ 21 * 2 ^ 21) ↔ InKernel va := by
    simp only [InKernel, B_BASE, B_END]
    omega
  have hdevice : InDevice (va / 2 ^ 21 * 2 ^ 21) ↔ InDevice va := by
    simp only [InDevice, D_BASE, D_END]
    omega
  rw [windowPerm, windowPerm, if_congr hkernel rfl (if_congr hdevice rfl (if_congr hram rfl rfl))]

/-- The visits are one for each block of the windows. -/
lemma find_rtExpected (k : Nat) : (rtExpected ram).find? (fun x => x.1 / 2 ^ 21 = k) =
      (windowPerm ram (k * 2 ^ 21)).map fun perm => (k * 2 ^ 21, perm) := by
  have hmod : k * 2 ^ 21 % PAGE_2M = 0 := Nat.mul_mod_left ..
  rw [rtExpected, find?_append, find?_append, find_blocks _ k fun p hp => (mem_kernelBlocks.1 hp).1,
    find_blocks _ k fun p hp => (mem_deviceBlocks.1 hp).1,
    find_blocks _ k fun p hp => ((mem_ramBlocks h).1 hp).1,
    if_congr (mem_kernelBlocks.trans (and_iff_right hmod)) rfl rfl,
    if_congr (mem_deviceBlocks.trans (and_iff_right hmod)) rfl rfl,
    if_congr ((mem_ramBlocks h).trans (and_iff_right hmod)) rfl rfl, windowPerm]
  split_ifs <;> rfl

lemma visit_of_mem_rtExpected (hx : x ∈ rtExpected ram) : Visit x := by
  have hmem : x.1 ∈ expectedBlocks ram := by
    rw [← map_fst_rtExpected]
    exact mem_map_of_mem hx
  refine ⟨((mem_expectedBlocks h).1 hmem).1, lt_of_mem_expectedBlocks h hmem, ?_⟩
  simp only [rtExpected, mem_append, mem_map] at hx
  obtain (⟨p, -, rfl⟩ | ⟨p, -, rfl⟩) | ⟨p, -, rfl⟩ := hx
  · exact .inl rfl
  · exact .inr (.inl rfl)
  · exact .inr (.inr rfl)

lemma distinct_rtExpected :
    (rtExpected ram).Pairwise fun x y => x.1 / 2 ^ 21 ≠ y.1 / 2 ^ 21 := by
  have hnd := nodup_expectedBlocks h
  rw [← map_fst_rtExpected, List.Nodup, pairwise_map] at hnd
  refine hnd.imp_of_mem fun {x y} hx hy hne heq => hne ?_
  have hxa := (visit_of_mem_rtExpected h hx).aligned
  have hya := (visit_of_mem_rtExpected h hy).aligned
  omega

lemma rtValidateFrom_ok (htys : ∀ r ∈ ram, r.type = .ram)
    {prev : Option Nat} (hpr : ∀ e ∈ prev, ∀ r ∈ ram, e < r.physStart) : rtValidateFrom prev ram = .ok () := by
  induction ram generalizing prev with
  | nil => rfl
  | cons r rs ih =>
    have hsrt := pairwise_cons.1 h.sorted
    have hchk : checkRange prev r = .ok () := (checkRange_iff prev r).2
      ⟨htys r mem_cons_self, h.range r mem_cons_self, fun e he => hpr e he r mem_cons_self⟩
    rw [rtValidateFrom, hchk]
    refine ih ⟨fun q hq => h.range q (mem_cons_of_mem _ hq), hsrt.2⟩
      (fun q hq => htys q (mem_cons_of_mem _ hq)) ?_
    rintro e ⟨⟩ q hq
    exact hsrt.1 q hq

end

/-- The builder with the root. -/
def rtRoot (arena : EarlyArena) (mem : Word → Nat → Word) : RtBuilder :=
  { RtBuilder.issue ⟨mem, 0, fun _ => none, 0, 0, 0, arena.tablePages⟩ (tablePage arena 0) (tablePage arena 0) with
    rootVa := tablePage arena 0 }

lemma built_rtRoot (arena : EarlyArena) (mem : Word → Nat → Word) :
    Built arena (levelsOf []) (leafOf []) (rtRoot arena mem) := by
  have hz : ∀ j, (rtRoot arena mem).mem (tablePage arena 0) j = 0 := fun j => congrFun (update_self _ _ mem) j
  have hone : ∀ n, tableAt (rtRoot arena mem).tables (tablePage arena 0) n 1 = none := by
    intro n
    change parentPa ((rtRoot arena mem).mem (tablePage arena 0) (index n 0)) = none
    rw [hz]
    exact parentPa_of_invalid rfl
  refine ⟨⟨fun p => if p = tablePage arena 0 then some (0, 0) else none, ?_⟩, fun n _ _ => by rw [hone]; rfl⟩
  exact {
    shape := {
      root_own := if_pos rfl
      used := fun _ _ _ => rfl
      slot := by
        intro p k c i hown hk hi
        split_ifs at hown with hr
        subst hr
        change SlotOk _ _ _ ((rtRoot arena mem).mem (tablePage arena 0) i)
        rw [hz]
        exact .empty
      unpublished := rfl }
    root := rfl
    first := rfl
    last := rfl
    cap := rfl
    issued := rfl
    owned := by
      intro p x hown
      split_ifs at hown with hr
      cases hown
      exact ⟨by omega, 0, Nat.one_pos, hr⟩
    level := by
      intro j hj n hn
      have hnn := tableAt_none_of_le (hone n) (by omega : 1 ≤ j)
      rw [hnn]
      exact ⟨fun hf => absurd hf Bool.false_ne_true, fun hf => absurd hf (Finset.notMem_empty _)⟩
    cells := fun n _ => cell_of_fresh (k := 0) (by omega) rfl hz }

/-- What the tree of all visits shows. -/
lemma TreeOk.window
    (hram : RamOk ram) (h : TreeOk arena (levelsOf (rtExpected ram)) (leafOf (rtExpected ram)) own b)
    (hva : va < 2 ^ 48) :
    Aarch64.hwTranslate b.mem (tablePage arena 0) va = (windowPerm ram va).map fun perm => (va, permRights perm) := by
  have hf := find_rtExpected hram (va / 2 ^ 21)
  rw [windowPerm_block hram] at hf
  rw [h.hwTranslate hva, leafOf]
  cases hw : windowPerm ram va with
  | none =>
    rw [hw, Option.map_none] at hf
    rw [hf, Option.map_none]
  | some perm =>
    rw [hw, Option.map_some] at hf
    have hvisit := visit_of_mem_rtExpected hram (mem_of_find?_eq_some hf)
    have hout : (BitVec.ofNat 64 (va / 2 ^ 21 * 2 ^ 21)).toNat + va % 2 ^ 21 = va := by
      rw [toNat_ofNat]
      omega
    rw [hf, Option.map_some]
    dsimp only
    rw [leafTranslate_block hvisit.blockAddr hvisit.perm, hout]

/-- The build, from what its calls return. -/
lemma runtimeTreeBuild_eq
    (hp : Planned ram arena) (ho : HandsOut ops arena) (mem : Word → Nat → Word) (hpos : 0 < arena.tablePages)
    (hrun : (rtExpected ram).foldlM (fun b x => rtInstallBlock ops b x.1 x.2) (rtRoot arena mem) = .ok b)
    (hcap : b.pagesIssued ≤ b.pagesCap) : runtimeTreeBuild ram arena ops mem =
      .ok (⟨b.firstPa, b.firstPa, b.lastPa + 0x1000, b.pagesIssued⟩, b.mem) := by
  have hlow := hp.low
  simp only [M1_ARENA_LOW] at hlow
  have hb : arena.tableBasePa ≠ 0 := by omega
  have hval : rtValidateRam ram = .ok () :=
    require_bind_eq_ok.2 ⟨hp.count, rtValidateFrom_ok hp.ok hp.types (by simp)⟩
  have hr := rtAllocOne_eq (b := ⟨mem, 0, fun _ => none, 0, 0, 0, arena.tablePages⟩) hp ho rfl hpos
  rw [runtimeTreeBuild, require_bind_eq_ok, require_bind_eq_ok, require_bind_eq_ok, require_bind_eq_ok, bind_eq_ok]
  refine ⟨hp.count, hb, hp.aligned, hpos.ne', (), hval, ?_⟩
  rw [bind_eq_ok]
  refine ⟨_, hr, ?_⟩
  rw [bind_eq_ok]
  refine ⟨b, hrun, ?_⟩
  rw [require_bind_eq_ok]
  exact ⟨hcap, rfl⟩

/-- **The runtime tree.** With a plan that was accepted and callbacks that hand out its pool, the build
succeeds with all planned pages, and the hardware translates exactly the addresses of the windows, each to
itself, with the rights of its window. -/
theorem runtimeTree_exact {ram : List MemoryRange} {arena : EarlyArena} {ops : TreeOps}
    (hplan : earlyArenaPlan ram = .ok arena) (ho : HandsOut ops arena) (mem : Word → Nat → Word) :
    ∃ tree mem', runtimeTreeBuild ram arena ops mem = .ok (tree, mem') ∧ tree.pageCount = arena.tablePages ∧
      ∀ va < 2 ^ 48, hwTranslate mem' tree.rootPa va =
        (windowPerm ram va).map fun perm => (va, permRights perm) := by
  have hp := (plan_spec hplan).1
  have hpgs : 1 + (levelsOf (rtExpected ram) 1).card + (levelsOf (rtExpected ram) 2).card = arena.tablePages := by
    rw [levelsOf, levelsOf, map_fst_rtExpected, hp.pages]
  have hpos : 0 < arena.tablePages := by omega
  obtain ⟨b, hrun, hblt⟩ := (built_rtRoot arena mem).installAll hp ho
    (fun x hx => visit_of_mem_rtExpected hp.ok hx) (by rw [nil_append]; exact distinct_rtExpected hp.ok)
    (by rw [nil_append]; exact hpgs.le)
  obtain ⟨own, ht⟩ := hblt.tree
  have hiss : b.pagesIssued = arena.tablePages := ht.issued.trans hpgs
  have hcap : b.pagesIssued ≤ b.pagesCap := by rw [ht.cap, hiss]
  refine ⟨_, _, runtimeTreeBuild_eq hp ho mem hpos hrun hcap, hiss, fun va hva => ?_⟩
  rw [ht.first]
  exact ht.window hp.ok hva

/-- The theorem for one range of RAM. -/
theorem runtimeTree_exact_one_range :
    ∃ arena ops tree mem', earlyArenaPlan [⟨0x40200000, 0x48000000, .ram⟩] = .ok arena ∧ HandsOut ops arena ∧
      runtimeTreeBuild [⟨0x40200000, 0x48000000, .ram⟩] arena ops (fun _ _ => 0) = .ok (tree, mem') ∧
      tree.pageCount = arena.tablePages ∧ ∀ va < 2 ^ 48, hwTranslate mem' tree.rootPa va =
        (windowPerm [⟨0x40200000, 0x48000000, .ram⟩] va).map fun perm => (va, permRights perm) := by
  have hs : (earlyArenaPlan [⟨0x40200000, 0x48000000, .ram⟩]).toOption.isSome = true := by decide +kernel
  cases hpl : earlyArenaPlan [⟨0x40200000, 0x48000000, .ram⟩] with
  | error e =>
    rw [hpl] at hs
    cases hs
  | ok arena =>
    have hands : HandsOut ⟨fun k => .ok (tablePage arena k, some (tablePage arena k)), fun _ pa => some pa⟩ arena :=
      ⟨fun _ _ => rfl, fun _ _ _ _ => rfl⟩
    obtain ⟨tree, mem', hbuild⟩ := runtimeTree_exact hpl hands fun _ _ => 0
    exact ⟨arena, _, tree, mem', rfl, hands, hbuild⟩

end OS01.Aarch64
