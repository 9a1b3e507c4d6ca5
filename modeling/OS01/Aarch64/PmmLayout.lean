import OS01.Aarch64.EarlyArena

/-!
# The layout of the page allocator's metadata

`pmm_layout_calculate` of `kernel/memory/pmm_boot.c`, with `*out`: zeroed first, written at the end, except for
`metadata_end_pa`, which stays 0. The sizes and offsets are compared with the same ones in unbounded arithmetic
(`exactLayout`): the call succeeds if all of them fit 64 bits, and then has computed them (`pmmLayoutCalculate_eq`).
-/

namespace OS01.Aarch64

variable {α : Type} {err : Int} {a b g : Nat} {f : Nat → Except Int α}

/-- `zero_layout`. -/
def zeroLayout : PmmLayout := ⟨0, 0, 0, 0, 0, 0, 0, 0, 0⟩

/-- `pmm_layout_calculate`: what it returns, and `*out`. -/
def pmmLayoutInto (baseVa spanPages : Nat) : Int × PmmLayout :=
  match pmmLayoutCalculate baseVa spanPages with
  | .ok layout => (0, layout)
  | .error e => (e, zeroLayout)

/-! ## Exact sizes -/

/-- The least multiple of `g` from `x` on. -/
def alignUp (x g : Nat) : Nat := (x + (g - 1)) / g * g

/-- The layout in unbounded arithmetic. -/
def exactLayout (spanPages : Nat) : PmmLayout :=
  let bitsLength := (spanPages + 63) / 64 * 64 / 8
  let pagesLength := alignUp (SIZEOF_PAGE * spanPages) SIZEOF_LONG
  let zonesLength := alignUp (SIZEOF_ZONE * MEMORY_RANGE_MAX) SIZEOF_LONG
  let pagesStructOff := alignUp bitsLength PAGE_4K
  let zonesStructOff := alignUp (pagesStructOff + pagesLength) PAGE_4K
  let endOfStructOff := (zonesStructOff + zonesLength + 32 * SIZEOF_LONG) / SIZEOF_LONG * SIZEOF_LONG
  ⟨0, bitsLength, pagesStructOff, pagesLength, zonesStructOff, zonesLength, endOfStructOff,
    alignUp endOfStructOff PAGE_4K, 0⟩

/-- Every sum, product and alignment on the way to the layout, and the end of the allocation. -/
def layoutTerms (baseVa spanPages : Nat) : List Nat :=
  let l := exactLayout spanPages
  [spanPages + 63, SIZEOF_PAGE * spanPages, l.pagesLength, SIZEOF_ZONE * MEMORY_RANGE_MAX, l.zonesLength,
    l.pagesStructOff, l.pagesStructOff + l.pagesLength, l.zonesStructOff, l.zonesStructOff + l.zonesLength,
    l.zonesStructOff + l.zonesLength + 32 * SIZEOF_LONG, l.totalBytes, baseVa + l.totalBytes]

/-! ## The checked steps -/

lemma checked_bind {c : Prop} [Decidable c] :
    ((if c then .error (-err) else .ok a) >>= f) = if c then .error (-err) else f a := by
  by_cases hc : c
  · rw [if_pos hc, if_pos hc]
    rfl
  · rw [if_neg hc, if_neg hc]
    rfl

lemma checkedAdd_bind :
    (checkedAdd a b err >>= f) = if UINT64_MAX - b < a then .error (-err) else f (a + b) := checked_bind

lemma checkedMul_bind (ha : 0 < a) :
    (checkedMul a b err >>= f) = if UINT64_MAX < a * b then .error (-err) else f (a * b) := by
  refine checked_bind.trans (if_congr ?_ rfl rfl)
  rw [Nat.div_lt_iff_lt_mul ha, mul_comm]
  exact and_iff_right ha.ne'

/-- Both alignments divide 2^64, so the rounding overflows only where its result does. -/
lemma checkedAlignUp_bind (hg : g = SIZEOF_LONG ∨ g = PAGE_4K) :
    (checkedAlignUp a g err >>= f) = if UINT64_MAX < alignUp a g then .error (-err) else f (alignUp a g) := by
  refine checked_bind.trans (if_congr ?_ rfl rfl)
  unfold UINT64_MAX alignUp
  obtain rfl | rfl := hg
  · rw [SIZEOF_LONG]
    omega
  · rw [PAGE_4K]
    omega

/-- **What the call computes**: the exact layout, unless something on the way to it overflows. -/
lemma pmmLayoutCalculate_eq {baseVa spanPages : Nat} (h0 : spanPages ≠ 0) :
    pmmLayoutCalculate baseVa spanPages = if ∀ n ∈ layoutTerms baseVa spanPages, n < 2 ^ 64 then
      .ok (exactLayout spanPages) else .error (-EOVERFLOW) := by
  rw [pmmLayoutCalculate, require, if_pos h0]
  change (checkedAdd spanPages 63 EOVERFLOW >>= _) = _
  simp only [checkedAdd_bind, checkedMul_bind (show 0 < SIZEOF_PAGE by decide),
    checkedMul_bind (show 0 < SIZEOF_ZONE by decide), checkedAlignUp_bind (.inl rfl),
    checkedAlignUp_bind (.inr rfl), ← ite_or]
  rw [← ite_not]
  refine if_congr ?_ rfl rfl
  have hl : SIZEOF_LONG = 8 := rfl
  simp only [layoutTerms, exactLayout, List.forall_mem_cons, UINT64_MAX, not_or]
  constructor
  · intro h
    refine ⟨?_, ?_, ?_, ?_, ?_, ?_, ?_, ?_, ?_, ?_, ?_, ?_, List.forall_mem_nil _⟩
    all_goals omega
  · intro h
    refine ⟨?_, ?_, ?_, ?_, ?_, ?_, ?_, ?_, ?_, ?_, ?_, ?_⟩
    all_goals omega

/-- The parts lie one behind the other, each large enough. -/
structure LaidOut (spanPages : Nat) (l : PmmLayout) : Prop where
  bitmap : l.bitsMapOff + l.bitsLength ≤ l.pagesStructOff
  pages : l.pagesStructOff + l.pagesLength ≤ l.zonesStructOff
  zones : l.zonesStructOff + l.zonesLength ≤ l.endOfStructOff
  aligned : PAGE_4K ∣ l.pagesStructOff ∧ PAGE_4K ∣ l.zonesStructOff
  bits : spanPages ≤ 8 * l.bitsLength
  entries : spanPages * SIZEOF_PAGE ≤ l.pagesLength
  total : l.endOfStructOff ≤ l.totalBytes

lemma exactLayout_laidOut (spanPages : Nat) : LaidOut spanPages (exactLayout spanPages) where
  bitmap := by
    rw [exactLayout, Nat.zero_add]
    exact le_roundUp (by decide)
  pages := le_roundUp (by decide)
  zones := by
    dsimp only [exactLayout, SIZEOF_LONG]
    omega
  aligned := ⟨Nat.dvd_mul_left .., Nat.dvd_mul_left ..⟩
  bits := by
    dsimp only [exactLayout]
    omega
  entries := by
    rw [mul_comm]
    exact le_roundUp (by decide)
  total := le_roundUp (by decide)

/-- **The calculator is exact**: it succeeds if and only if there are pages and nothing on the way to the layout
reaches 2^64. -/
theorem pmmLayout_exact (baseVa spanPages : Nat) : ((pmmLayoutInto baseVa spanPages).1 = 0 ↔
        0 < spanPages ∧ ∀ n ∈ layoutTerms baseVa spanPages, n < 2 ^ 64) ∧
      ((pmmLayoutInto baseVa spanPages).1 = 0 → LaidOut spanPages (pmmLayoutInto baseVa spanPages).2) ∧
      ((pmmLayoutInto baseVa spanPages).1 ≠ 0 → (pmmLayoutInto baseVa spanPages).2 = zeroLayout) := by
  unfold pmmLayoutInto
  obtain rfl | h0 := Nat.eq_zero_or_pos spanPages
  · exact ⟨⟨fun h => (by cases h), fun h => (by cases h.1)⟩, fun h => (by cases h), fun _ => rfl⟩
  rw [pmmLayoutCalculate_eq h0.ne']
  split_ifs with hf
  · exact ⟨⟨fun _ => ⟨h0, hf⟩, fun _ => rfl⟩, fun _ => exactLayout_laidOut spanPages, fun h => absurd rfl h⟩
  · exact ⟨⟨fun h => (by cases h), fun h => absurd h.2 hf⟩, fun h => (by cases h), fun _ => rfl⟩

end OS01.Aarch64
