import Mathlib.Algebra.Order.Field.Rat
import Mathlib.Tactic.FieldSimp
import Mathlib.Tactic.Ring

/-!
# From cycles to nanoseconds

`clocksource_compute_mult_shift` of `kernel/time/clocksource.c` searches the largest shift for which the
multiplier `(10^9 << shift) / freq` has 32 bits; the readers of both architectures multiply a cycle count by
it and shift. Both roundings go down, so a reading is never ahead of the exact time, and it is behind by less
than one nanosecond and `2 ^ -shift` for every cycle (`clock_accuracy`).
-/

namespace OS01.Time

/-- `(uint64_t)(((__uint128_t)1000000000ULL << s) / freq_hz)`. -/
def multAt (freqHz s : Nat) : Nat := 1000000000 * 2 ^ s / freqHz % 2 ^ 64

/-- `for (; s < 64; s++)`, in the given number of rounds: where it stops. -/
def searchShift (freqHz : Nat) : Nat → Nat → Nat
  | 0, s => s
  | rounds + 1, s => if 2 ^ 32 ≤ multAt freqHz s then s else searchShift freqHz rounds (s + 1)

/-- `clocksource_compute_mult_shift`. -/
def clocksourceComputeMultShift (freqHz : Nat) : Nat × Nat :=
  let s := searchShift freqHz 63 1 - 1
  let m := multAt freqHz s
  ((if m = 0 then 1 else m) % 2 ^ 32, s)

/-- The variables of the clock source. -/
structure Clocksource where
  active : Bool
  mult : Nat
  shift : Nat

/-- `clocksource_init`, where the clock source was not used before. -/
def clocksourceInit (freqHz : Nat) : Clocksource :=
  if freqHz = 0 then ⟨false, 0, 0⟩
  else ⟨true, (clocksourceComputeMultShift freqHz).1, (clocksourceComputeMultShift freqHz).2⟩

/-- `(uint64_t)(((__uint128_t)c * clocksource_mult) >> clocksource_shift)`. -/
def Clocksource.ns (cs : Clocksource) (c : Nat) : Nat := c * cs.mult % 2 ^ 128 / 2 ^ cs.shift % 2 ^ 64

/-- `clocksource_read_ns` of x86_64. -/
def clocksourceReadNs (cs : Clocksource) (jiffies counter tscOffset : Nat) : Nat :=
  if cs.active then cs.ns ((counter + tscOffset) % 2 ^ 64) else jiffies * 10000000 % 2 ^ 64

/-- `arch_clocksource_read_ns` of aarch64. -/
def archClocksourceReadNs (cs : Clocksource) (jiffies cycles : Nat) : Nat :=
  if cs.active then cs.ns cycles else jiffies * 10000000 % 2 ^ 64

variable {f m s c : Nat}

/-- The quotient doubles with the shift, but for the bit that is shifted in. -/
lemma quotient_succ (f s : Nat) : 2 * (1000000000 * 2 ^ s / f) ≤ 1000000000 * 2 ^ (s + 1) / f ∧
      1000000000 * 2 ^ (s + 1) / f ≤ 2 * (1000000000 * 2 ^ s / f) + 1 := by
  have heq : 1000000000 * 2 ^ s / f = 1000000000 * 2 ^ (s + 1) / f / 2 := by
    rw [Nat.div_div_eq_div_mul, Nat.pow_succ, ← Nat.mul_assoc, Nat.mul_div_mul_right _ _ Nat.two_pos]
  omega

/-- **The search** stops after the last quotient of 32 bits. -/
lemma searchShift_spec {rounds : Nat} (hsum : rounds + s = 63) (hfit : 1000000000 * 2 ^ s / f < 2 ^ 32) :
    ∃ t, searchShift f rounds (s + 1) = t + 1 ∧ t ≤ 63 ∧ 1000000000 * 2 ^ t / f < 2 ^ 32 ∧
      (t = 63 ∨ 2 ^ 32 ≤ 1000000000 * 2 ^ (t + 1) / f) := by
  induction rounds generalizing s with
  | zero => exact ⟨s, rfl, by omega, hfit, Or.inl (by omega)⟩
  | succ rounds ih =>
    have hn := (quotient_succ f s).2
    have hm : multAt f (s + 1) = 1000000000 * 2 ^ (s + 1) / f := Nat.mod_eq_of_lt (by omega)
    rw [searchShift, hm]
    split_ifs with hbig
    · exact ⟨s, rfl, by omega, hfit, Or.inr hbig⟩
    · exact ih (by omega) (by omega)

/-- The pair that is computed: the shift, and the quotient at it. -/
lemma clocksourceComputeMultShift_spec (hf : 1 ≤ f) (hf' : f < 2 ^ 64) :
    ∃ m t, clocksourceComputeMultShift f = (m, t) ∧ m = 1000000000 * 2 ^ t / f ∧ 1 ≤ t ∧ t ≤ 63 ∧ 1 ≤ m ∧
      m < 2 ^ 32 ∧ (t = 63 ∨ 2 ^ 31 ≤ m) := by
  have hz : 1000000000 * 2 ^ 0 / f < 2 ^ 32 := lt_of_le_of_lt (Nat.div_le_self _ _) (by decide)
  have hone : 1000000000 * 2 ^ (0 + 1) / f < 2 ^ 32 := lt_of_le_of_lt (Nat.div_le_self _ _) (by decide)
  obtain ⟨t, ht, hle, hfit, hs⟩ := searchShift_spec (show 63 + 0 = 63 from rfl) hz
  have hpos : 1 ≤ t := by
    obtain rfl | h := Nat.eq_zero_or_pos t
    · omega
    · exact h
  have hlarge : t = 63 ∨ 2 ^ 31 ≤ 1000000000 * 2 ^ t / f := by
    have := (quotient_succ f t).2
    omega
  have hm : 1 ≤ 1000000000 * 2 ^ t / f := by
    obtain rfl | h := hlarge
    · exact (Nat.one_le_div_iff hf).2 (by omega)
    · omega
  refine ⟨_, t, ?_, rfl, hpos, hle, hm, hfit, hlarge⟩
  have hml : multAt f t = 1000000000 * 2 ^ t / f := Nat.mod_eq_of_lt (by omega)
  rw [clocksourceComputeMultShift, ht, Nat.add_sub_cancel, hml]
  rw [if_neg (by omega), Nat.mod_eq_of_lt hfit]

/-- Two roundings down: the reading in whole numbers. -/
lemma reading_bounds (hf : 1 ≤ f) (hm : m = 1000000000 * 2 ^ s / f) :
    c * m / 2 ^ s * f ≤ c * 1000000000 ∧ c * 1000000000 * 2 ^ s < (c * m / 2 ^ s * 2 ^ s + 2 ^ s + c) * f := by
  have hpow : 0 < 2 ^ s := Nat.two_pow_pos s
  have hlow : m * f ≤ 1000000000 * 2 ^ s := hm ▸ Nat.div_mul_le_self _ _
  have hhg : 1000000000 * 2 ^ s < m * f + f := hm ▸ Nat.lt_div_mul_add hf
  constructor
  · refine Nat.le_of_mul_le_mul_right ?_ hpow
    calc c * m / 2 ^ s * f * 2 ^ s = c * m / 2 ^ s * 2 ^ s * f := by ring
      _ ≤ c * m * f := Nat.mul_le_mul_right f (Nat.div_mul_le_self _ _)
      _ = c * (m * f) := by ring
      _ ≤ c * (1000000000 * 2 ^ s) := Nat.mul_le_mul_left c hlow
      _ = c * 1000000000 * 2 ^ s := by ring
  · calc c * 1000000000 * 2 ^ s = c * (1000000000 * 2 ^ s) := by ring
      _ ≤ c * (m * f + f) := Nat.mul_le_mul_left c hhg.le
      _ = (c * m + c) * f := by ring
      _ < (c * m / 2 ^ s * 2 ^ s + 2 ^ s + c) * f :=
        Nat.mul_lt_mul_of_pos_right (Nat.add_lt_add_right (Nat.lt_div_mul_add hpow) c) hf

/-- Nothing is cut off a reading of less than 64 bits. -/
lemma Clocksource.ns_eq {cs : Clocksource} (hm : cs.mult < 2 ^ 32) (hc : c < 2 ^ 64)
    (hfit : c * cs.mult / 2 ^ cs.shift < 2 ^ 64) : cs.ns c = c * cs.mult / 2 ^ cs.shift := by
  have hp : c * cs.mult < 2 ^ 128 := lt_of_lt_of_le (Nat.mul_lt_mul'' hc hm) (by decide)
  rw [ns, Nat.mod_eq_of_lt hp, Nat.mod_eq_of_lt hfit]

/-- A clock source that is right for a frequency, as far as whole nanoseconds and its shift allow. -/
structure Clocksource.Accurate (cs : Clocksource) (f : Nat) : Prop where
  shift : 1 ≤ cs.shift ∧ cs.shift ≤ 63
  mult : 1 ≤ cs.mult ∧ cs.mult < 2 ^ 32
  large : cs.shift ≠ 63 → 2 ^ 31 ≤ cs.mult
  /-- The reading at `c` cycles; for x86_64 these are its counter with the offset of the processor. -/
  reading : ∀ jiffies c : Nat, c < 2 ^ 64 → (c * 10 ^ 9 / f : ℚ) < 2 ^ 64 →
    (archClocksourceReadNs cs jiffies c ≤ (c * 10 ^ 9 / f : ℚ) ∧
      (c * 10 ^ 9 / f : ℚ) < archClocksourceReadNs cs jiffies c + 1 + c / 2 ^ cs.shift) ∧
      (∀ c' ≤ c, archClocksourceReadNs cs jiffies c' ≤ archClocksourceReadNs cs jiffies c) ∧
      ∀ counter tscOffset, (counter + tscOffset) % 2 ^ 64 = c →
        clocksourceReadNs cs jiffies counter tscOffset = archClocksourceReadNs cs jiffies c

/-- **Accuracy** of the clock at every frequency, on both architectures. -/
theorem clock_accuracy (f : Nat) (hf : 1 ≤ f) (hf' : f < 2 ^ 64) : (clocksourceInit f).Accurate f := by
  obtain ⟨m, s, hp, hm, hs, hs', hm1, hm32, hlarge⟩ := clocksourceComputeMultShift_spec hf hf'
  have hi : clocksourceInit f = ⟨true, m, s⟩ := by
    rw [clocksourceInit, if_neg (by omega), hp]
  rw [hi]
  refine ⟨⟨hs, hs'⟩, ⟨hm1, hm32⟩, fun h => hlarge.resolve_left h, fun jiffies c hc hfit => ?_⟩
  have hread (c : Nat) : archClocksourceReadNs ⟨true, m, s⟩ jiffies c = Clocksource.ns ⟨true, m, s⟩ c := rfl
  have hfq : (0 : ℚ) < f := Nat.cast_pos.2 hf
  have hsq : (0 : ℚ) < 2 ^ s := pow_pos two_pos s
  obtain ⟨hlow, hhg⟩ := reading_bounds (c := c) hf hm
  have hle : ((c * m / 2 ^ s : Nat) : ℚ) ≤ c * 10 ^ 9 / f := by
    rw [le_div_iff₀ hfq]
    exact_mod_cast hlow
  have hns : c * m / 2 ^ s < 2 ^ 64 := by exact_mod_cast lt_of_le_of_lt hle hfit
  have heq : Clocksource.ns ⟨true, m, s⟩ c = c * m / 2 ^ s := Clocksource.ns_eq hm32 hc hns
  rw [hread, heq]
  refine ⟨⟨hle, ?_⟩, fun c' hc' => ?_, fun counter tscOffset hsum => ?_⟩
  · have hhighq : (c : ℚ) * 10 ^ 9 * 2 ^ s < ((c * m / 2 ^ s : Nat) * 2 ^ s + 2 ^ s + c) * f := by
      exact_mod_cast hhg
    rw [div_lt_iff₀ hfq, ← mul_lt_mul_iff_left₀ hsq]
    refine lt_of_lt_of_eq hhighq ?_
    field_simp
  · have hmn : c' * m / 2 ^ s ≤ c * m / 2 ^ s := Nat.div_le_div_right (Nat.mul_le_mul_right m hc')
    have heq' : Clocksource.ns ⟨true, m, s⟩ c' = c' * m / 2 ^ s :=
      Clocksource.ns_eq hm32 (by omega) (lt_of_le_of_lt hmn hns)
    rwa [hread, heq']
  · rw [← heq, ← hsum]
    rfl

/-- The theorem at 1 Hz. -/
theorem clock_accuracy_at_one : (1 ≤ (1 : Nat) ∧ (1 : Nat) < 2 ^ 64) ∧ (clocksourceInit 1).Accurate 1 :=
  ⟨⟨le_rfl, by decide⟩, clock_accuracy 1 le_rfl (by decide)⟩

end OS01.Time
