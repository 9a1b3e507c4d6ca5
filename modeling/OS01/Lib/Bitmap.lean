import Mathlib.Data.Nat.Bitwise
import Mathlib.Order.Interval.Finset.Nat
import Mathlib.Algebra.Order.Ring.Nat

/-!
# Bitmaps stored in words

A bitmap kept as an array of `w`-bit words, bit `i` of the map being bit `i % w` of word `i / w`.
The single-bit operations are those of C code (`|=`, `&= ~`, `^=` with `1 << (i % w)`), and
`window` is the word that starts at an arbitrary bit, put together from two neighbouring words.
`clearCount` counts the clear bits of a range.

Nothing here mentions a particular program.
-/

namespace OS01.Lib

open Function Finset

/-- An array of words seen as a bitmap. The array has no end: what lies past the words a program
owns is there to be read, as it is in memory. -/
abbrev Bitmap (w : Nat) := Nat → BitVec w

namespace Bitmap

variable {w : Nat} (m : Bitmap w)

/-- Bit `i` of the map. -/
def get (i : Nat) : Bool := (m (i / w)).getLsbD (i % w)

/-- Set bit `i`. -/
def set (m : Bitmap w) (i : Nat) : Bitmap w :=
  update m (i / w) (m (i / w) ||| 1#w <<< (i % w))

/-- Clear bit `i`. -/
def clear (i : Nat) : Bitmap w :=
  update m (i / w) (m (i / w) &&& ~~~(1#w <<< (i % w)))

/-- Flip bit `i`. -/
def flip (i : Nat) : Bitmap w :=
  update m (i / w) (m (i / w) ^^^ 1#w <<< (i % w))

/-- The word that starts at bit `k` of word `p` and runs into word `p + 1`. -/
def window (p k : Nat) : BitVec w :=
  if k = 0 then m p else m p >>> k ||| m (p + 1) <<< (w - k)

/-- Number of clear bits in `[lo, hi)`. -/
def clearCount (lo hi : Nat) : Nat :=
  ((Finset.Ico lo hi).filter fun i => m.get i = false).card

/-! ## Single bits -/

section Single

variable [NeZero w] {i j : Nat}

omit [NeZero w] in
/-- A bit is determined by its word and its place in the word. -/
lemma eq_of_div_mod (hd : j / w = i / w) (hm : j % w = i % w) : j = i := by
  rw [← Nat.div_add_mod j w, hd, hm, Nat.div_add_mod]

/-- Bit `j % w` of the one-bit word for `i`, for a `j` in the same word. -/
lemma getLsbD_one_shift (hd : j / w = i / w) : (1#w <<< (i % w)).getLsbD (j % w) = decide (j = i) := by
  have hlt : i % w < w := Nat.mod_lt _ (NeZero.pos w)
  rw [← BitVec.twoPow_eq]
  by_cases h : j = i
  · subst h
    simp [hlt]
  · have hne : i % w ≠ j % w := fun hm => h (eq_of_div_mod hd hm.symm)
    simp [h, hne]

@[simp] lemma get_set (m : Bitmap w) (i j : Nat) : (m.set i).get j = (m.get j || decide (j = i)) := by
  by_cases hd : j / w = i / w
  · simp [get, set, hd, getLsbD_one_shift hd]
  · have hne : j ≠ i := fun h => hd (by rw [h])
    simp [get, set, update_of_ne hd, hne]

@[simp] lemma get_clear (m : Bitmap w) (i j : Nat) : (m.clear i).get j = (m.get j && decide (j ≠ i)) := by
  have hlt : j % w < w := Nat.mod_lt _ (NeZero.pos w)
  by_cases hd : j / w = i / w
  · simp only [get, clear, hd, update_self, BitVec.getLsbD_and, BitVec.getLsbD_not,
      getLsbD_one_shift hd, hlt, decide_true, Bool.true_and, decide_not]
  · have hne : j ≠ i := fun h => hd (by rw [h])
    simp [get, clear, update_of_ne hd, hne]

@[simp] lemma get_flip (m : Bitmap w) (i j : Nat) : (m.flip i).get j = (m.get j ^^ decide (j = i)) := by
  by_cases hd : j / w = i / w
  · simp [get, flip, hd, getLsbD_one_shift hd]
  · have hne : j ≠ i := fun h => hd (by rw [h])
    simp [get, flip, update_of_ne hd, hne]

end Single

/-! ## Windows -/

variable {i k p n hi lo : Nat} {m : Bitmap w}

/-- The bits of a window are the bits of the map from its first bit on. -/
lemma getLsbD_window (m : Bitmap w) (hk : k < w) (hi : i < w) :
    (m.window p k).getLsbD i = m.get (w * p + k + i) := by
  have hw : 0 < w := by omega
  unfold window get
  by_cases hlt : k + i < w
  · have hd : (w * p + k + i) / w = p := by
      rw [Nat.add_assoc, Nat.mul_add_div hw, Nat.div_eq_of_lt hlt, Nat.add_zero]
    have hm : (w * p + k + i) % w = k + i := by
      rw [Nat.add_assoc, Nat.mul_add_mod, Nat.mod_eq_of_lt hlt]
    rw [hd, hm]
    by_cases h0 : k = 0
    · simp [h0]
    · have hsh : i < w - k := by omega
      simp [h0, hsh]
  · have h0 : k ≠ 0 := by omega
    have hd : (w * p + k + i) / w = p + 1 := by
      rw [Nat.add_assoc, Nat.mul_add_div hw, Nat.div_eq_of_lt_le] <;> omega
    have hm : (w * p + k + i) % w = k + i - w := by
      rw [Nat.add_assoc, Nat.mul_add_mod, Nat.mod_eq_sub_mod (by omega), Nat.mod_eq_of_lt (by omega)]
    have hsh : ¬ i < w - k := by omega
    have hhg : (m p).getLsbD (k + i) = false := BitVec.getLsbD_of_ge _ _ (by omega)
    have hidx : i - (w - k) = k + i - w := by omega
    rw [hd, hm, if_neg h0, BitVec.getLsbD_or, BitVec.getLsbD_ushiftRight, BitVec.getLsbD_shiftLeft, hhg, hidx]
    simp [hi, hsh]

/-- Masking a window with `n` ones leaves nothing exactly when its first `n` bits are clear. -/
lemma window_and_mask_eq_zero (m : Bitmap w) (hk : k < w) (hn : n < w) :
    m.window p k &&& (1#w <<< n - 1) = 0 ↔ ∀ i < n, m.get (w * p + k + i) = false := by
  have hm : ∀ i < w, (1#w <<< n - 1).getLsbD i = decide (i < n) := by
    intro i hi
    have hpow : 2 ^ n < 2 ^ w := Nat.pow_lt_pow_right (by decide) hn
    have hone : 1 < 2 ^ w := Nat.one_lt_two_pow (by omega)
    have hval : (1#w <<< n - 1).toNat = 2 ^ n - 1 := by
      rw [BitVec.toNat_sub_of_le]
      · simp [Nat.shiftLeft_eq, Nat.mod_eq_of_lt hpow, Nat.mod_eq_of_lt hone]
      · simp [BitVec.le_def, Nat.shiftLeft_eq, Nat.mod_eq_of_lt hpow,
          Nat.mod_eq_of_lt hone, Nat.one_le_two_pow]
    rw [← BitVec.testBit_toNat, hval, Nat.testBit_two_pow_sub_one]
  constructor
  · intro h i hi
    have hbit : (m.window p k &&& (1#w <<< n - 1)).getLsbD i = false := by
      rw [h]
      simp
    rw [BitVec.getLsbD_and, hm i (by omega), getLsbD_window m hk (by omega)] at hbit
    simpa [hi] using hbit
  intro h
  apply BitVec.eq_of_getLsbD_eq
  intro i hi
  rw [BitVec.getLsbD_and, hm i hi, getLsbD_window m hk hi]
  by_cases hlt : i < n
  · simp [h i hlt]
  · simp [hlt]

/-! ## Counting clear bits -/

/-- The count depends on the bits of the range only. -/
lemma clearCount_congr {m' : Bitmap w} (h : ∀ i, lo ≤ i → i < hi → m'.get i = m.get i) :
    m'.clearCount lo hi = m.clearCount lo hi := by
  unfold clearCount
  congr 1
  apply filter_congr
  intro i hi
  rw [mem_Ico] at hi
  rw [h i hi.1 hi.2]

/-- A range of clear bits only. -/
lemma clearCount_eq_length (h : ∀ i, lo ≤ i → i < hi → m.get i = false) : m.clearCount lo hi = hi - lo := by
  unfold clearCount
  rw [filter_true_of_mem, Nat.card_Ico]
  intro i hi
  rw [mem_Ico] at hi
  exact h i hi.1 hi.2

/-- A run of clear bits inside the range is counted. -/
lemma le_clearCount {q : Nat} (hlo : lo ≤ q) (hhi : q + n ≤ hi)
    (h : ∀ l < n, m.get (q + l) = false) : n ≤ m.clearCount lo hi := by
  have hsub : Finset.Ico q (q + n) ⊆ (Finset.Ico lo hi).filter fun i => m.get i = false := by
    intro i hi
    rw [mem_Ico] at hi
    have hclr := h (i - q) (by omega)
    rw [Nat.add_sub_cancel' hi.1] at hclr
    simp only [mem_filter, mem_Ico, hclr, and_true]
    omega
  have hc := card_le_card hsub
  rw [Nat.card_Ico] at hc
  unfold clearCount
  omega

/-- A range has no more clear bits than bits. -/
lemma clearCount_le (m : Bitmap w) (lo hi : Nat) : m.clearCount lo hi ≤ hi - lo := by
  exact (card_filter_le _ _).trans (Nat.card_Ico lo hi).le

variable [NeZero w]

/-- Setting a clear bit of the range takes one from the count. -/
lemma clearCount_set (hlo : lo ≤ i) (hhi : i < hi)
    (hclr : m.get i = false) : (m.set i).clearCount lo hi + 1 = m.clearCount lo hi := by
  have hmem : i ∈ (Finset.Ico lo hi).filter fun j => m.get j = false := by
    simp [hlo, hhi, hclr]
  have hers : (Finset.Ico lo hi).filter (fun j => (m.set i).get j = false) =
      ((Finset.Ico lo hi).filter fun j => m.get j = false).erase i := by
    ext j
    simp [and_comm, and_left_comm]
  unfold clearCount
  rw [hers, card_erase_add_one hmem]

/-- Setting a bit outside the range leaves the count. -/
lemma clearCount_set_outside (h : ¬ (lo ≤ i ∧ i < hi)) : (m.set i).clearCount lo hi = m.clearCount lo hi := by
  apply clearCount_congr
  intro j hlo hhi
  have hne : j ≠ i := fun hj => h (hj ▸ ⟨hlo, hhi⟩)
  simp [hne]

/-- Clearing a set bit of the range adds one to the count. -/
lemma clearCount_clear (hlo : lo ≤ i) (hhi : i < hi)
    (hset : m.get i = true) : (m.clear i).clearCount lo hi = m.clearCount lo hi + 1 := by
  have hb : ((m.clear i).set i).clearCount lo hi + 1 = (m.clear i).clearCount lo hi :=
    clearCount_set hlo hhi (by simp)
  rw [← hb, clearCount_congr]
  intro j _ _
  by_cases hj : j = i
  · simp [hj, hset]
  · simp [hj]

/-- Clearing a bit outside the range leaves the count. -/
lemma clearCount_clear_outside (h : ¬ (lo ≤ i ∧ i < hi)) :
    (m.clear i).clearCount lo hi = m.clearCount lo hi := by
  apply clearCount_congr
  intro j hlo hhi
  have hne : j ≠ i := fun hj => h (hj ▸ ⟨hlo, hhi⟩)
  simp [hne]

end Bitmap

end OS01.Lib
