import Mathlib.Data.Nat.Bitwise

/-!
# Bits of a machine word

Testing, setting and clearing one bit of a 64-bit word as C code writes it
(`w & (1UL << n)`, `w | (1UL << n)`, `w & ~(1UL << n)`), related to `BitVec.getLsbD`, and rounding
an address down to a multiple of sixteen (`w & ~15UL`). `u64` is the value a 64-bit register keeps
of a natural number, for arithmetic on addresses and counters that can wrap.

Nothing here mentions a particular program.
-/

namespace OS01.Lib

open BitVec

/-- A sum or product as a 64-bit register holds it. -/
def u64 (n : Nat) : Nat := n % 2 ^ 64

/-- The word with only bit `n` set: `1UL << n`. -/
def bit64 (n : Nat) : BitVec 64 := 1#64 <<< n

/-- The C test `w & (1UL << n)`. -/
def testBit64 (w : BitVec 64) (n : Nat) : Bool := w &&& bit64 n != 0

/-- A single bit of the single-bit word. -/
@[simp] lemma getLsbD_bit64 (n m : Nat) : (bit64 n).getLsbD m = decide (m = n ∧ n < 64) := by
  rw [bit64, ← twoPow_eq]
  by_cases h : n = m
  · subst h
    simp
  · simp [h, Ne.symm h]

/-- The C test reads the bit. -/
@[simp] lemma testBit64_eq (w : BitVec 64) (n : Nat) : testBit64 w n = w.getLsbD n := by
  rw [testBit64, bit64, ← twoPow_eq, and_twoPow]
  cases hw : w.getLsbD n with
  | false => simp
  | true =>
    have hn : n < 64 := lt_of_getLsbD hw
    have hne : twoPow 64 n ≠ 0 := by
      intro h0
      have hbit : (twoPow 64 n).getLsbD n = true := by
        simp [hn]
      rw [h0] at hbit
      simp at hbit
    simpa using hne

/-- Clearing a bit. -/
lemma getLsbD_and_not_bit64 (w : BitVec 64) (n m : Nat) :
    (w &&& ~~~bit64 n).getLsbD m = (w.getLsbD m && decide (m ≠ n)) := by
  rw [getLsbD_and, getLsbD_not, getLsbD_bit64]
  by_cases hm : m < 64
  · by_cases h : m = n
    · subst h
      simp [hm]
    · simp [hm, h]
  · simp [getLsbD_of_ge w m (by omega)]

/-- `w & ~(2^k - 1)` rounds down to a multiple of `2^k`. -/
lemma toNat_and_not_low (w : BitVec 64) (k : Nat) :
    (w &&& ~~~BitVec.ofNat 64 (2 ^ k - 1)).toNat = w.toNat / 2 ^ k * 2 ^ k := by
  have hshift : w &&& ~~~BitVec.ofNat 64 (2 ^ k - 1) = (w >>> k) <<< k := by
    refine eq_of_getLsbD_eq fun i hi => ?_
    rw [getLsbD_and, getLsbD_not, getLsbD_ofNat]
    by_cases hk : i < k
    · simp [hk]
    · simp [hi, hk, Nat.add_sub_cancel' (Nat.le_of_not_lt hk)]
  rw [hshift, toNat_shiftLeft, toNat_ushiftRight, Nat.shiftLeft_eq, Nat.shiftRight_eq_div_pow]
  exact Nat.mod_eq_of_lt ((Nat.div_mul_le_self _ _).trans_lt w.isLt)

/-- `w & ~15UL` rounds down to a multiple of sixteen. -/
lemma toNat_and_not_15 (w : BitVec 64) : (w &&& ~~~15#64).toNat = w.toNat / 16 * 16 := toNat_and_not_low w 4

end OS01.Lib
