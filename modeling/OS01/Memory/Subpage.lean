import OS01.Abi
import OS01.Lib.Bitmap
import OS01.Lib.Run

/-!
# The pools of 4 KiB pages

`alloc_4k_page`, `free_4k_page` and `pmm_4k_page_allocated` of `kernel/memory/pmm.c`. A pool is a 2 MiB frame
cut into 512 slots; slot 0 holds the descriptor of the pool, and what keeps it from being handed out is its bit
in the bitmap. `free_4k_page` clears the bit of any slot, also that one, so that the results are about runs in
which no pool's own address is freed.

The counters `cow_count`, which an allocation clears, are not read by these functions and are left out.
-/

namespace OS01.Memory.Subpage

open List Lib Option Bitmap Nat

def PAGE_2M_SIZE : Nat := 0x200000
def SUBPAGE_4K_COUNT : Nat := 512

/-- `struct subpage_pool`. -/
structure Pool where
  basePhys : Nat
  bitmap : Bitmap 64
  allocCount : Nat

/-- `__builtin_ctzll`, for a word that is not zero. -/
def ctzll (w : BitVec 64) : Nat := ((List.range 64).find? fun i => w.getLsbD i).getD 64

namespace Pool

/-- The slot that the loop over the words of the bitmap finds. -/
def firstFree (p : Pool) : Option Nat :=
  ((List.range (SUBPAGE_4K_COUNT / 64)).find? fun i => p.bitmap i != BitVec.allOnes 64).map fun i =>
    i * 64 + ctzll (~~~p.bitmap i)

/-- A slot is handed out. -/
def take (p : Pool) (slot : Nat) : Pool :=
  { p with bitmap := p.bitmap.set slot, allocCount := p.allocCount + 1 }

/-- The test of `find_pool_locked`. -/
def Contains (p : Pool) (phys : Nat) : Prop := p.basePhys ≤ phys ∧ phys < p.basePhys + PAGE_2M_SIZE

instance (p : Pool) (phys : Nat) : Decidable (p.Contains phys) := inferInstanceAs (Decidable (_ ∧ _))

/-- The slot of an address. -/
def slotOf (p : Pool) (phys : Nat) : Nat := (phys - p.basePhys) / PAGE_4K_SIZE % 2 ^ 32

/-- A slot is given back. -/
def release (p : Pool) (slot : Nat) : Pool :=
  if slot < SUBPAGE_4K_COUNT then
    if p.bitmap.get slot then { p with bitmap := p.bitmap.clear slot, allocCount := p.allocCount - 1 } else p
  else p

end Pool

/-- The loop of `alloc_4k_page` over the pools. -/
def search : List Pool → Option (List Pool × Nat)
  | [] => none
  | p :: ps =>
    match if p.allocCount < SUBPAGE_4K_COUNT then p.firstFree else none with
    | some slot => some (p.take slot :: ps, p.basePhys + slot * PAGE_4K_SIZE)
    | none => (search ps).map fun r => (p :: r.1, r.2)

/-- The pool that is made of a frame, with its slots 0 and 1 taken. -/
def newPool (base : Nat) : Pool := ⟨base, set (set (fun _ => 0) 0) 1, 2⟩

variable (pools : List Pool)

/-- `alloc_4k_page`; `frame` is what `alloc_pages` returns if it is called. -/
def alloc4kPage (frame : Option Nat) : List Pool × Option Nat :=
  match search pools with
  | some r => (r.1, some r.2)
  | none =>
    match frame with
    | none => (pools, none)
    | some base => (newPool base :: pools, some (base + PAGE_4K_SIZE))

/-- A page is given back to the pool that `find_pool_locked` finds. -/
def releaseIn (phys : Nat) : List Pool → List Pool
  | [] => []
  | p :: ps => if p.Contains phys then p.release (p.slotOf phys) :: ps else p :: releaseIn phys ps

/-- `free_4k_page`. -/
def free4kPage (phys : Nat) : List Pool := if phys = 0 then pools else releaseIn phys pools

/-- `pmm_4k_page_allocated`. -/
def pmm4kPageAllocated (phys : Nat) : Bool :=
  if phys = 0 ∨ phys % PAGE_4K_SIZE ≠ 0 then false
  else
    match pools.find? fun p => p.Contains phys with
    | none => false
    | some p =>
      let slot := p.slotOf phys
      0 < slot && slot < SUBPAGE_4K_COUNT && p.bitmap.get slot

/-! ## Runs -/

inductive Call
  | alloc (frame : Option Nat)
  | free (phys : Nat)

/-- What `alloc_pages` can return: nothing, or a 2 MiB frame that is not in use as a pool. -/
def Fresh (frame : Option Nat) : Prop :=
  ∀ base ∈ frame, base % PAGE_2M_SIZE = 0 ∧ ∀ p ∈ pools, p.basePhys ≠ base

inductive Step : List Pool → Call → List Pool → Prop
  | alloc {pools : List Pool} {frame : Option Nat} (hfresh : Fresh pools frame) :
      Step pools (.alloc frame) (alloc4kPage pools frame).1
  | free {pools : List Pool} {phys : Nat} (haligned : phys % PAGE_4K_SIZE = 0) :
      Step pools (.free phys) (free4kPage pools phys)

/-- The call does not free the address of a pool itself. -/
def Spares : Call → Prop
  | .alloc _ => True
  | .free phys => ∀ p ∈ pools, phys ≠ p.basePhys

/-! ## One pool -/

/-- A pool whose count is right and whose descriptor is protected. -/
structure PoolOk (p : Pool) : Prop where
  aligned : p.basePhys % PAGE_2M_SIZE = 0
  count : p.allocCount + p.bitmap.clearCount 0 SUBPAGE_4K_COUNT = SUBPAGE_4K_COUNT
  header : p.bitmap.get 0 = true

variable {p : Pool} {slot phys : Nat}

lemma ctzll_spec {w : BitVec 64} (h : w ≠ 0) : ctzll w < 64 ∧ w.getLsbD (ctzll w) = true := by
  rw [ctzll]
  cases hf : (range 64).find? fun i => w.getLsbD i with
  | none =>
    rw [find?_eq_none] at hf
    refine absurd (BitVec.eq_of_getLsbD_eq fun i hi => ?_) h
    rw [Bool.eq_false_iff.2 (hf i (mem_range.2 hi))]
    exact BitVec.getLsbD_zero.symm
  | some i => exact ⟨mem_range.1 (mem_of_find?_eq_some hf), find?_some hf⟩

lemma firstFree_some (h : p.firstFree = some slot) : slot < SUBPAGE_4K_COUNT ∧ p.bitmap.get slot = false := by
  obtain ⟨i, hf, rfl⟩ := map_eq_some_iff.1 h
  have hi := mem_range.1 (mem_of_find?_eq_some hf)
  have hfl : p.bitmap i ≠ BitVec.allOnes 64 := bne_iff_ne.1 (@find?_some _ (fun j => p.bitmap j != _) _ _ hf)
  have hne : ~~~p.bitmap i ≠ 0 := by
    intro hz
    exact hfl (((BitVec.not_eq_comm).1 hz).trans BitVec.not_zero)
  obtain ⟨hlt, hbit⟩ := ctzll_spec hne
  rw [BitVec.getLsbD_not, Bool.and_eq_true, Bool.not_eq_true'] at hbit
  have hdiv : (i * 64 + ctzll (~~~p.bitmap i)) / 64 = i := by omega
  have hmod : (i * 64 + ctzll (~~~p.bitmap i)) % 64 = ctzll (~~~p.bitmap i) := by omega
  refine ⟨by omega, ?_⟩
  rw [Bitmap.get, hdiv, hmod]
  exact hbit.2

lemma firstFree_none (h : p.firstFree = none) (hs : slot < SUBPAGE_4K_COUNT) : p.bitmap.get slot = true := by
  rw [Pool.firstFree, map_eq_none_iff, find?_eq_none] at h
  have hf := h (slot / 64) (mem_range.2 (by simp only [SUBPAGE_4K_COUNT] at hs ⊢; omega))
  rw [bne_iff_ne, not_not] at hf
  rw [Bitmap.get, hf, BitVec.getLsbD_allOnes]
  exact decide_eq_true (mod_lt _ (by decide))

lemma PoolOk.take (h : PoolOk p) (hs : slot < SUBPAGE_4K_COUNT) (hf : p.bitmap.get slot = false) :
    PoolOk (p.take slot) := by
  have hcnt := h.count
  have hset := clearCount_set (zero_le slot) hs hf
  refine ⟨h.aligned, by simp only [Pool.take]; omega, ?_⟩
  rw [Pool.take, get_set, h.header, Bool.true_or]

lemma PoolOk.release (h : PoolOk p) (hs : slot ≠ 0) : PoolOk (p.release slot) := by
  rw [Pool.release]
  split_ifs with hlt hset
  · have hcnt := h.count
    have hclr := clearCount_clear (zero_le slot) hlt hset
    have hle := clearCount_le (p.bitmap.clear slot) 0 SUBPAGE_4K_COUNT
    refine ⟨h.aligned, by dsimp only; omega, ?_⟩
    rw [get_clear, h.header]
    exact decide_eq_true hs.symm
  all_goals exact h

lemma poolOk_newPool (h : phys % PAGE_2M_SIZE = 0) : PoolOk (newPool phys) :=
  ⟨h, (by decide +kernel : 2 + clearCount (set (set (fun _ => (0 : BitVec 64)) 0) 1) 0 512 = 512),
    (by decide : get (set (set (fun _ => (0 : BitVec 64)) 0) 1) 0 = true)⟩

/-! ## All pools -/

structure PoolsOk (pools : List Pool) : Prop where
  ok : ∀ p ∈ pools, PoolOk p
  bases : (pools.map Pool.basePhys).Nodup

variable {pools pools' before after : List Pool} {q : Pool}

/-- A pool is replaced by another state of it. -/
lemma PoolsOk.replace (h : PoolsOk (before ++ p :: after)) (hq : PoolOk q) (hb : q.basePhys = p.basePhys) :
    PoolsOk (before ++ q :: after) := by
  refine ⟨fun r hr => ?_, ?_⟩
  · obtain hr | hr := mem_append.1 hr
    · exact h.ok r (mem_append_left _ hr)
    · obtain rfl | hr := mem_cons.1 hr
      · exact hq
      · exact h.ok r (mem_append_right _ (mem_cons_of_mem _ hr))
  · have hbases := h.bases
    rw [map_append, map_cons] at hbases ⊢
    rwa [hb]

/-- An address lies in one pool at most. -/
lemma PoolsOk.eq_of_contains (h : PoolsOk pools) (hp : p ∈ pools) (hq : q ∈ pools) (hpc : p.Contains phys)
    (hqc : q.Contains phys) : p = q := by
  have hpa := (h.ok p hp).aligned
  have hqa := (h.ok q hq).aligned
  simp only [Pool.Contains, PAGE_2M_SIZE] at hpc hqc hpa hqa
  exact inj_on_of_nodup_map h.bases hp hq (by omega)

lemma slotOf_eq (p : Pool) (hs : slot < SUBPAGE_4K_COUNT) : p.slotOf (p.basePhys + slot * PAGE_4K_SIZE) = slot := by
  simp only [Pool.slotOf, SUBPAGE_4K_COUNT, PAGE_4K_SIZE] at hs ⊢
  omega

lemma contains_slot (p : Pool) (hs : slot < SUBPAGE_4K_COUNT) : p.Contains (p.basePhys + slot * PAGE_4K_SIZE) := by
  simp only [Pool.Contains, SUBPAGE_4K_COUNT, PAGE_4K_SIZE, PAGE_2M_SIZE] at hs ⊢
  omega

/-- A pool that is counted full is full. -/
lemma PoolOk.full (h : PoolOk p) (hcnt : ¬ p.allocCount < SUBPAGE_4K_COUNT) (hs : slot < SUBPAGE_4K_COUNT) :
    p.bitmap.get slot = true := by
  have hz : p.bitmap.clearCount 0 SUBPAGE_4K_COUNT = 0 := by
    have hsum := h.count
    omega
  rw [clearCount, Finset.card_eq_zero, Finset.filter_eq_empty_iff] at hz
  exact Bool.of_not_eq_false (hz (Finset.mem_Ico.2 ⟨zero_le slot, hs⟩))

/-- The search takes a free slot of one pool. -/
lemma search_some {r : List Pool × Nat} (h : search pools = some r) :
    ∃ before p after slot, pools = before ++ p :: after ∧ r.1 = before ++ p.take slot :: after ∧
      slot < SUBPAGE_4K_COUNT ∧ p.bitmap.get slot = false ∧ r.2 = p.basePhys + slot * PAGE_4K_SIZE := by
  induction pools generalizing r with
  | nil => cases h
  | cons p ps ih =>
    rw [search] at h
    split at h
    · next slot hf =>
        cases h
        have hfst : p.firstFree = some slot := by
          split_ifs at hf
          exact hf
        exact ⟨[], p, ps, slot, rfl, rfl, (firstFree_some hfst).1, (firstFree_some hfst).2, rfl⟩
    · obtain ⟨r', hr', rfl⟩ := map_eq_some_iff.1 h
      obtain ⟨before, q, after, slot, rfl, hpools, hr⟩ := ih hr'
      exact ⟨p :: before, q, after, slot, rfl, congrArg (p :: ·) hpools, hr⟩

/-- The search fails only if all slots are taken. -/
lemma search_none (hok : ∀ p ∈ pools, PoolOk p) (h : search pools = none) (hp : p ∈ pools)
    (hs : slot < SUBPAGE_4K_COUNT) : p.bitmap.get slot = true := by
  induction pools with
  | nil => cases hp
  | cons q ps ih =>
    rw [search] at h
    split at h
    · cases h
    next hf =>
      obtain rfl | hp := mem_cons.1 hp
      · split_ifs at hf with hcnt
        · exact firstFree_none hf hs
        · exact (hok p mem_cons_self).full hcnt hs
      · exact ih (fun r hr => hok r (mem_cons_of_mem _ hr)) (map_eq_none_iff.1 h) hp

/-- A call to free gives back one slot, or nothing. -/
lemma free4kPage_cases (pools : List Pool) (phys : Nat) :
    free4kPage pools phys = pools ∨ ∃ before p after, pools = before ++ p :: after ∧ p.Contains phys ∧
      free4kPage pools phys = before ++ p.release (p.slotOf phys) :: after := by
  rw [free4kPage]
  split_ifs with hz
  · exact Or.inl rfl
  induction pools with
  | nil => exact Or.inl rfl
  | cons p ps ih =>
    rw [releaseIn]
    split_ifs with hin
    · exact Or.inr ⟨[], p, ps, rfl, hin, rfl⟩
    · obtain ih | ⟨before, q, after, rfl, hq, ih⟩ := ih
      · exact Or.inl (congrArg (p :: ·) ih)
      · exact Or.inr ⟨p :: before, q, after, rfl, hq, congrArg (p :: ·) ih⟩

lemma PoolsOk.alloc {frame : Option Nat} (h : PoolsOk pools) (hfr : Fresh pools frame) :
    PoolsOk (alloc4kPage pools frame).1 := by
  unfold alloc4kPage
  cases hs : search pools with
  | some r =>
    obtain ⟨before, p, after, slot, rfl, hr, hlt, hf, -⟩ := search_some hs
    rw [hr]
    exact h.replace ((h.ok p (by simp)).take hlt hf) rfl
  | none =>
    cases frame with
    | none => exact h
    | some base =>
      obtain ⟨hal, hne⟩ := hfr base rfl
      refine ⟨forall_mem_cons.2 ⟨poolOk_newPool hal, h.ok⟩, nodup_cons.2 ⟨?_, h.bases⟩⟩
      rintro hmem
      obtain ⟨p, hp, hb⟩ := mem_map.1 hmem
      exact hne p hp hb

lemma PoolsOk.free (h : PoolsOk pools) (hal : phys % PAGE_4K_SIZE = 0)
    (hspare : ∀ p ∈ pools, phys ≠ p.basePhys) : PoolsOk (free4kPage pools phys) := by
  obtain heq | ⟨before, p, after, rfl, hin, heq⟩ := free4kPage_cases pools phys
  · rwa [heq]
  have hp : p ∈ before ++ p :: after := by simp
  have hs : p.slotOf phys ≠ 0 := by
    have hne := hspare p hp
    have hb := (h.ok p hp).aligned
    simp only [Pool.slotOf, Pool.Contains, PAGE_4K_SIZE, PAGE_2M_SIZE] at *
    omega
  have hrelease : (p.release (p.slotOf phys)).basePhys = p.basePhys := by
    rw [Pool.release]
    split_ifs <;> rfl
  rw [heq]
  exact h.replace ((h.ok p hp).release hs) hrelease

/-! ## What an allocation returns -/

/-- What a call of `alloc_4k_page` returns and takes. -/
structure AllocOk (pools : List Pool) (frame : Option Nat) : Prop where
  unique : ∀ phys, (alloc4kPage pools frame).2 = some phys → ∃! p, p ∈ (alloc4kPage pools frame).1 ∧ p.Contains phys
  header : ∀ phys, (alloc4kPage pools frame).2 = some phys → ∀ p ∈ (alloc4kPage pools frame).1, phys ≠ p.basePhys
  free : ∀ phys, (alloc4kPage pools frame).2 = some phys → pmm4kPageAllocated pools phys = false ∧
    ∀ p ∈ pools, p.Contains phys → p.bitmap.get (p.slotOf phys) = false
  exhausted : pools.length < (alloc4kPage pools frame).1.length →
    ∀ p ∈ pools, ∀ slot < SUBPAGE_4K_COUNT, p.bitmap.get slot = true

variable {frame : Option Nat}

/-- The address of a slot that is not the first. -/
lemma allocOk_of_slot (h : PoolsOk pools)
    (hfr : Fresh pools frame) (hs : slot < SUBPAGE_4K_COUNT) (hne : slot ≠ 0)
    (hret : (alloc4kPage pools frame).2 = some (p.basePhys + slot * PAGE_4K_SIZE))
    (hmem : p ∈ (alloc4kPage pools frame).1)
    (hclr : ∀ q ∈ pools, q.Contains (p.basePhys + slot * PAGE_4K_SIZE) →
      q.bitmap.get (q.slotOf (p.basePhys + slot * PAGE_4K_SIZE)) = false)
    (hexhausted : pools.length < (alloc4kPage pools frame).1.length →
      ∀ p ∈ pools, ∀ slot < SUBPAGE_4K_COUNT, p.bitmap.get slot = true) : AllocOk pools frame := by
  have h' := h.alloc hfr
  have hpin := contains_slot p hs
  refine ⟨?_, ?_, ?_, hexhausted⟩
  · rintro phys heq
    cases hret.symm.trans heq
    exact ⟨p, ⟨hmem, hpin⟩, fun q hq => h'.eq_of_contains hq.1 hmem hq.2 hpin⟩
  · rintro phys heq q hq hb
    cases hret.symm.trans heq
    have hp := (h'.ok p hmem).aligned
    have hqa := (h'.ok q hq).aligned
    simp only [PAGE_2M_SIZE, PAGE_4K_SIZE, SUBPAGE_4K_COUNT] at *
    omega
  · rintro phys heq
    cases hret.symm.trans heq
    refine ⟨?_, hclr⟩
    rw [pmm4kPageAllocated]
    split_ifs with hbad
    · rfl
    cases hf : pools.find? fun q => q.Contains (p.basePhys + slot * PAGE_4K_SIZE) with
    | none => rfl
    | some q =>
      have hq := mem_of_find?_eq_some hf
      have hin : q.Contains (p.basePhys + slot * PAGE_4K_SIZE) := by
        simpa using find?_some hf
      dsimp only
      rw [hclr q hq hin, Bool.and_false]

lemma PoolsOk.allocOk (h : PoolsOk pools) (hfr : Fresh pools frame) : AllocOk pools frame := by
  cases hs : search pools with
  | some r =>
    obtain ⟨before, p, after, slot, rfl, hpools, hlt, hf, hph⟩ := search_some hs
    have hp : p ∈ before ++ p :: after := by simp
    have hne : slot ≠ 0 := by
      rintro rfl
      rw [(h.ok p hp).header] at hf
      cases hf
    have halc : alloc4kPage (before ++ p :: after) frame =
        (before ++ p.take slot :: after, some (p.basePhys + slot * PAGE_4K_SIZE)) := by
      unfold alloc4kPage
      rw [hs, ← hpools, ← hph]
    refine allocOk_of_slot (p := p.take slot) h hfr hlt hne (by rw [halc]; rfl) (by rw [halc]; simp) ?_ ?_
    · intro q hq hin
      cases h.eq_of_contains hq hp hin (contains_slot p hlt)
      exact (congrArg p.bitmap.get (slotOf_eq p hlt)).trans hf
    · intro hl
      rw [halc] at hl
      simp at hl
  | none =>
    have hall : ∀ p ∈ pools, ∀ slot < SUBPAGE_4K_COUNT, p.bitmap.get slot = true :=
      fun p hp slot hsl => search_none h.ok hs hp hsl
    cases frame with
    | none =>
      have halc : alloc4kPage pools none = (pools, none) := by rw [alloc4kPage, hs]
      refine ⟨?_, ?_, ?_, fun _ => hall⟩ <;> intro phys heq <;> rw [halc] at heq <;> cases heq
    | some base =>
      obtain ⟨hal, hnew⟩ := hfr base rfl
      have halc : alloc4kPage pools (some base) = (newPool base :: pools, some (base + 1 * PAGE_4K_SIZE)) := by
        rw [alloc4kPage, hs, one_mul]
      refine allocOk_of_slot (p := newPool base) h hfr (by decide) one_ne_zero (by rw [halc]; rfl)
        (by rw [halc]; exact mem_cons_self) ?_ fun _ => hall
      intro q hq hin
      have hqa := (h.ok q hq).aligned
      have hqb := hnew q hq
      simp only [Pool.Contains, newPool, PAGE_2M_SIZE, PAGE_4K_SIZE] at *
      omega

/-- **The 4 KiB pages.** In every run that frees no pool's own address, the counts are right, and every call
to allocate returns a page of one pool that is free and not its descriptor, and takes a new frame only if all
slots are in use. -/
theorem subpages_sound {pools : List Pool} {calls : List Call} (h : Run (guarded Step Spares) [] calls pools) :
    (∀ p ∈ pools, p.allocCount = ((Finset.range SUBPAGE_4K_COUNT).filter fun i => p.bitmap.get i = true).card) ∧
      ∀ frame, Fresh pools frame → AllocOk pools frame := by
  have hinv : PoolsOk pools := by
    refine Run.invariant (I := PoolsOk) ?_ h ⟨fun p hp => (by cases hp), nodup_nil⟩
    rintro s call t hs ⟨hspare, hst⟩
    cases hst with
    | alloc hfr => exact hs.alloc hfr
    | free hal => exact hs.free hal hspare
  refine ⟨fun p hp => ?_, fun frame hfr => hinv.allocOk hfr⟩
  have hcnt := (hinv.ok p hp).count
  have hspl := Finset.card_filter_add_card_filter_not (s := Finset.range SUBPAGE_4K_COUNT)
    fun i => p.bitmap.get i = true
  simp only [Bool.not_eq_true, Finset.card_range] at hspl
  rw [clearCount, ← Finset.range_eq_Ico] at hcnt
  omega

lemma step_first : Step [] (.alloc (some 0x200000)) [newPool 0x200000] :=
  .alloc fun base hb => by
    cases hb
    exact ⟨rfl, nofun⟩

/-- The pool after two pages were handed out and the first was given back. -/
def reused : List Pool := free4kPage (alloc4kPage [newPool 0x200000] none).1 0x201000

/-- The theorem for these calls: the next one returns the first page again. -/
theorem subpages_sound_reused :
    Run (guarded Step Spares) [] [.alloc (some 0x200000), .alloc none, .free 0x201000] reused ∧
      AllocOk reused none ∧ (alloc4kPage reused none).2 = some 0x201000 := by
  have hspares : Spares (alloc4kPage [newPool 0x200000] none).1 (.free 0x201000) := by
    change ∀ p ∈ (alloc4kPage [newPool 0x200000] none).1, 0x201000 ≠ p.basePhys
    decide
  have hrun : Run (guarded Step Spares) [] [.alloc (some 0x200000), .alloc none, .free 0x201000] reused :=
    .cons ⟨trivial, step_first⟩ (.cons ⟨trivial, .alloc nofun⟩ (.single ⟨hspares, .free rfl⟩))
  exact ⟨hrun, (subpages_sound hrun).2 none nofun, by decide⟩

/-- Freeing the address of a pool gives its descriptor to the next call. -/
theorem subpages_header_freed :
    Run Step [] [.alloc (some 0x200000), .free 0x200000] (free4kPage [newPool 0x200000] 0x200000) ∧
      (alloc4kPage (free4kPage [newPool 0x200000] 0x200000) none).2 = some 0x200000 := by
  exact ⟨.cons step_first (.single (.free rfl)), by decide⟩

end OS01.Memory.Subpage
