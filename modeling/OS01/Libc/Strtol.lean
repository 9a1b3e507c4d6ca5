import Mathlib.Data.List.Basic
import Mathlib.Data.List.TakeWhile
import Mathlib.Data.Nat.Digits.Defs
import OS01.Abi

/-!
# `strtol` and `strtoul`

`libc/stdlib/strtol.c`. Both functions skip white space, read a sign and a prefix, and then run over the digits with
an accumulator that is checked against `cutoff` and `cutlim` before each digit goes in. A pointer into a string is what is
left of the string up to its NUL, so that `*s` is the first character or 0. A `char` is signed on this platform.

The specification is in terms of the subject sequence: the longest beginning of the string, after white space, that
has the form of a number in the base. `subject` finds it; its value is that of its digits.

The code departs from the specification in four places. It takes the prefix `0x` also where no hexadecimal digit
follows. It stops at the digit that overflows, so that the end pointer is inside the subject sequence. In `strtol`
the cutoff for negative numbers has the wrong sign, so that each of them is out of range at its first digit. In
`strtoul` a minus sign is read and forgotten. `strtol_strtoul_meet_iff` says exactly where the result is right.
-/

namespace OS01.Libc

open List Bool Option Int

def LONG_MAX : Int := 9223372036854775807
def LONG_MIN : Int := -9223372036854775808
def ULONG_MAX : Int := 18446744073709551615

/-- The `char` of a character literal of the source. -/
def ch (c : Char) : Int8 := Int8.ofNat c.toNat

/-- `s[i]`, for an index up to that of the NUL. -/
def charAt (s : List Int8) (i : Nat) : Int8 := s.getD i 0

/-- `isspace`. -/
def isspace (c : Int) : Bool :=
  c == 32 || c == 9 || c == 10 || c == 11 || c == 12 || c == 13

/-- The digit that a character stands for, in a base large enough. -/
def digitOf (char : Int8) : Option Int :=
  let c := char.toInt
  if 48 ≤ c ∧ c ≤ 57 then some (c - 48)
  else if 97 ≤ c ∧ c ≤ 122 then some (c - 97 + 10)
  else if 65 ≤ c ∧ c ≤ 90 then some (c - 65 + 10)
  else none

/-! ## The code -/

/-- The white space at the beginning is skipped. -/
def skipSpace (s : List Int8) : List Int8 := s.dropWhile fun c => isspace c.toInt

/-- The sign: whether it is a minus, and what follows. -/
def takeSign (s : List Int8) : Bool × List Int8 :=
  if charAt s 0 = ch '-' then (true, s.drop 1)
  else if charAt s 0 = ch '+' then (false, s.drop 1)
  else (false, s)

/-- Base detection: the base and where the digits start. -/
def detectBase (base : Nat) (s : List Int8) : Nat × List Int8 :=
  if (base = 0 ∨ base = 16) ∧ charAt s 0 = ch '0' ∧ (charAt s 1 = ch 'x' ∨ charAt s 1 = ch 'X') then
    (16, s.drop 2)
  else if base = 0 ∧ charAt s 0 = ch '0' then (8, s)
  else if base = 0 then (10, s)
  else (base, s)

/-- What the loop over the digits leaves: the accumulator, whether there was a digit, where it stopped, and
`errno` if it was set. -/
structure Scanned where
  acc : Int
  any : Bool
  s : List Int8
  errno : Option Int
  deriving DecidableEq, Repr

/-- The loop over the digits. `exceeds` is the test before a digit goes in, `limit` the value if it fails. -/
def digitLoop (base : Nat) (exceeds : Int → Int → Bool) (limit : Int) (push : Int → Int → Int) :
    Int → Bool → List Int8 → Scanned
  | acc, any, [] => ⟨acc, any, [], none⟩
  | acc, any, c :: rest =>
    match digitOf c with
    | none => ⟨acc, any, c :: rest, none⟩
    | some digit =>
      if digit ≥ base then ⟨acc, any, c :: rest, none⟩
      else if exceeds acc digit then ⟨limit, true, c :: rest, some ERANGE⟩
      else digitLoop base exceeds limit push (push acc digit) true rest

/-- The value, `*endptr`, and `errno` if it was set. -/
structure StrtolResult where
  value : Int
  endptr : List Int8
  errno : Option Int
  deriving DecidableEq, Repr

variable (nptr : List Int8)

/-- The end of both functions. -/
def finish (r : Scanned) : StrtolResult :=
  if ¬ r.any then ⟨0, nptr, some EINVAL⟩ else ⟨r.acc, r.s, r.errno⟩

/-- `strtol`. -/
def strtol (base : Nat) : StrtolResult :=
  let (neg, s) := takeSign (skipSpace nptr)
  let (base, s) := detectBase base s
  let limit := if neg then LONG_MIN else LONG_MAX
  let cutlim := limit.tmod base
  let cutoff := if neg then - limit.tdiv base else limit.tdiv base
  let exceeds (acc digit : Int) : Bool :=
    if neg then acc < cutoff || (acc == cutoff && digit > cutlim)
    else acc > cutoff || (acc == cutoff && digit > cutlim)
  let push (acc digit : Int) : Int := if neg then acc * base - digit else acc * base + digit
  finish nptr (digitLoop base exceeds limit push 0 false s)

/-- `strtoul`. -/
def strtoul (base : Nat) : StrtolResult :=
  let (_, s) := takeSign (skipSpace nptr)
  let (base, s) := detectBase base s
  let cutoff := ULONG_MAX / base
  let cutlim := ULONG_MAX % base
  let exceeds (acc digit : Int) : Bool := acc > cutoff || (acc == cutoff && digit > cutlim)
  finish nptr (digitLoop base exceeds ULONG_MAX (fun acc digit => acc * base + digit) 0 false s)

/-! ## The specification -/

/-- Whether a character is a digit below `base`. -/
def isDigitBelow (base : Nat) (c : Int8) : Bool := (digitOf c).any fun digit => decide (digit < (base : Int))

/-- The base of a subject sequence and where its digits start: a prefix counts only before a hexadecimal digit. -/
def subjectBase (base : Nat) (s : List Int8) : Nat × List Int8 :=
  if (base = 0 ∨ base = 16) ∧ charAt s 0 = ch '0' ∧ (charAt s 1 = ch 'x' ∨ charAt s 1 = ch 'X') ∧
      isDigitBelow 16 (charAt s 2) then
    (16, s.drop 2)
  else if base = 0 then (if charAt s 0 = ch '0' then 8 else 10, s)
  else (base, s)

/-- A subject sequence: its sign, the value of its digits, and what follows it. -/
structure Subject where
  neg : Bool
  value : Nat
  rest : List Int8
  deriving DecidableEq, Repr

/-- The value of a list of digits in a base, the most significant first. -/
def digitsValue (base : Nat) (digits : List Int8) : Nat :=
  Nat.ofDigits base (digits.map fun c => ((digitOf c).getD 0).toNat).reverse

/-- The longest subject sequence of a string. -/
def subject (base : Nat) : Option Subject :=
  let (neg, s) := takeSign (skipSpace nptr)
  let (base, s) := subjectBase base s
  let digits := s.takeWhile (isDigitBelow base)
  if digits = [] then none
  else some ⟨neg, digitsValue base digits, s.dropWhile (isDigitBelow base)⟩

/-- The result for a subject sequence whose value is `value` if it can be represented and `limit` if not; where
there is none, no conversion is made. -/
def Meets (r : StrtolResult) (nptr : List Int8) (subject : Option Subject) (value limit : Subject → Int)
    (fits : Subject → Prop) : Prop :=
  match subject with
  | none => r.value = 0 ∧ r.endptr = nptr
  | some sub =>
    r.endptr = sub.rest ∧
      (fits sub → r.value = value sub ∧ r.errno = none) ∧
      (¬ fits sub → r.value = limit sub ∧ r.errno = some ERANGE)

/-- The value with its sign. -/
def Subject.signed (sub : Subject) : Int := if sub.neg then - (sub.value : Int) else sub.value

/-- What the standard asks of `strtol`. -/
def StrtolMeets (base : Nat) (r : StrtolResult) : Prop :=
  Meets r nptr (subject nptr base) Subject.signed (fun sub => if sub.neg then LONG_MIN else LONG_MAX)
    fun sub => LONG_MIN ≤ sub.signed ∧ sub.signed ≤ LONG_MAX

/-- What the standard asks of `strtoul`. -/
def StrtoulMeets (base : Nat) (r : StrtolResult) : Prop :=
  Meets r nptr (subject nptr base) (fun sub => sub.signed % 2 ^ 64) (fun _ => ULONG_MAX)
    fun sub => (sub.value : Int) ≤ ULONG_MAX

/-- A prefix `0x` without a hexadecimal digit after it. -/
def BarePrefix (base : Nat) : Prop :=
  let s := (takeSign (skipSpace nptr)).2
  (base = 0 ∨ base = 16) ∧ charAt s 0 = ch '0' ∧ (charAt s 1 = ch 'x' ∨ charAt s 1 = ch 'X') ∧
    isDigitBelow 16 (charAt s 2) = false

/-! ## The loop over the digits -/

variable {c : Int8} {base M : Nat} {s nptr : List Int8} {sub : Subject}

lemma digitOf_nonneg {digit : Int} (h : digitOf c = some digit) : 0 ≤ digit := by
  unfold digitOf at h
  dsimp only at h
  split_ifs at h <;> cases h <;> omega

lemma isDigitBelow_iff : isDigitBelow base c = true ↔ ∃ n : Nat, digitOf c = some (n : Int) ∧ n < base := by
  unfold isDigitBelow
  constructor
  · intro h
    cases hdig : digitOf c with
    | none => simp [hdig] at h
    | some digit =>
      obtain ⟨n, rfl⟩ := eq_ofNat_of_zero_le (digitOf_nonneg hdig)
      exact ⟨n, rfl, by simpa [hdig] using h⟩
  · rintro ⟨n, hn, hlt⟩
    rw [hn]
    simpa using hlt

/-- The first digit carries the highest power of the base. -/
lemma digitsValue_cons {n : Nat} (h : digitOf c = some (n : Int)) (digits : List Int8) :
    digitsValue base (c :: digits) = n * base ^ digits.length + digitsValue base digits := by
  simp [digitsValue, Nat.ofDigits_append, h]
  ring

/-- The test against `cutoff` and `cutlim` is the test whether one more digit goes over the limit. -/
lemma cutoff_iff {acc digit : Nat} (hdig : digit < base) :
    M / base < acc ∨ acc = M / base ∧ M % base < digit ↔ M < acc * base + digit := by
  have hdiv : base * (M / base) + M % base = M := Nat.div_add_mod M base
  have hmod : M % base < base := Nat.mod_lt _ (by omega)
  obtain hlt | heq | hgt := Nat.lt_trichotomy acc (M / base)
  · have hle : (acc + 1) * base ≤ M / base * base := Nat.mul_le_mul_right base hlt
    rw [Nat.add_mul, Nat.mul_comm (M / base)] at hle
    omega
  · subst heq
    rw [Nat.mul_comm]
    omega
  · have hle : (M / base + 1) * base ≤ acc * base := Nat.mul_le_mul_right base hgt
    rw [Nat.add_mul, Nat.mul_comm (M / base)] at hle
    omega

/-- The loop stops at a character that is no digit, or one that is too large. -/
lemma digitLoop_of_not_digit (h : s.takeWhile (isDigitBelow base) = [])
    (exceeds : Int → Int → Bool) (limit : Int) (push : Int → Int → Int) (acc : Int) (any : Bool) :
    digitLoop base exceeds limit push acc any s = ⟨acc, any, s, none⟩ := by
  cases s with
  | nil => rfl
  | cons c s =>
    have hc : isDigitBelow base c = false := by
      by_contra hc
      rw [takeWhile_cons, if_pos (not_eq_false _ ▸ hc)] at h
      cases h
    unfold digitLoop
    cases hd : digitOf c with
    | none => rfl
    | some digit =>
      have hge : digit ≥ base := by simpa [isDigitBelow, hd] using hc
      simp [if_pos hge]

/-- **The loop over the digits**, where its test is whether the value goes over `M`: the digits that go in are all
there are, or the loop stops with the limit before it has read them. -/
lemma digitLoop_spec {exceeds : Int → Int → Bool} (limit : Int) (push : Int → Int → Int)
    (ho : ∀ acc digit : Nat, digit < base → (exceeds acc digit = true ↔ M < acc * base + digit))
    (hp : ∀ acc digit : Nat, push acc digit = ((acc * base + digit : Nat) : Int)) (s : List Int8) (acc : Nat)
    (any : Bool) :
    let digits := s.takeWhile (isDigitBelow base)
    let rest := s.dropWhile (isDigitBelow base)
    let value := acc * base ^ digits.length + digitsValue base digits
    (acc ≤ M → value ≤ M →
      digitLoop base exceeds limit push acc any s = ⟨value, any || !digits.isEmpty, rest, none⟩) ∧
    (M < value → acc ≤ M →
      ∃ s', rest.length < s'.length ∧ digitLoop base exceeds limit push acc any s = ⟨limit, true, s', some ERANGE⟩) := by
  induction s generalizing acc any with
  | nil =>
    simp [digitLoop, digitsValue]
  | cons c s ih =>
    cases hc : isDigitBelow base c with
    | false =>
      have hst : digitLoop base exceeds limit push acc any (c :: s) = ⟨acc, any, c :: s, none⟩ :=
        digitLoop_of_not_digit (by simp [hc]) exceeds limit push acc any
      simp [hc, hst, digitsValue]
    | true =>
      obtain ⟨n, hn, hlt⟩ := isDigitBelow_iff.1 hc
      have hlt' : ¬ (n : Int) ≥ base := by omega
      obtain ⟨ihfit, ihover⟩ := ih (acc * base + n) true
      have hpow : 0 < base ^ (s.takeWhile (isDigitBelow base)).length := Nat.pow_pos (by omega)
      have hval : acc * base ^ (c :: s.takeWhile (isDigitBelow base)).length +
          digitsValue base (c :: s.takeWhile (isDigitBelow base)) =
          (acc * base + n) * base ^ (s.takeWhile (isDigitBelow base)).length +
            digitsValue base (s.takeWhile (isDigitBelow base)) := by
        rw [digitsValue_cons hn, length_cons]
        ring
      have hg : acc * base + n ≤
          (acc * base + n) * base ^ (s.takeWhile (isDigitBelow base)).length :=
        Nat.le_mul_of_pos_right _ hpow
      have hs : digitLoop base exceeds limit push acc any (c :: s) =
          if exceeds acc n then ⟨limit, true, c :: s, some ERANGE⟩
          else digitLoop base exceeds limit push ((acc * base + n : Nat) : Int) true s := by
        rw [digitLoop, hn]
        simp only [if_neg hlt', hp]
      simp only [takeWhile_cons, dropWhile_cons, hc, if_true, hval, hs]
      constructor
      · intro _ hfit
        have hno : ¬ exceeds acc n = true := by rw [ho acc n hlt]; omega
        rw [if_neg hno, ihfit (by omega) hfit]
        simp
      intro hbig _
      split_ifs with hnow
      · refine ⟨c :: s, ?_, rfl⟩
        have := length_dropWhile_le (isDigitBelow base) s
        simp only [length_cons]
        omega
      · rw [ho acc n hlt] at hnow
        exact ihover hbig (by omega)

/-! ## Where the two parsers agree -/

lemma length_takeSign_le (s : List Int8) : (takeSign s).2.length ≤ s.length := by
  unfold takeSign
  split_ifs <;> simp

lemma length_subjectBase_le (base : Nat) (s : List Int8) : (subjectBase base s).2.length ≤ s.length := by
  unfold subjectBase
  split_ifs <;> simp

lemma length_dropWhile_lt {p : Int8 → Bool} (h : s.takeWhile p ≠ []) : (s.dropWhile p).length < s.length := by
  have hspl := congrArg length (takeWhile_append_dropWhile (p := p) (l := s))
  have hpos := length_pos_iff.2 h
  rw [length_append] at hspl
  omega

/-- A subject sequence has a digit, so that what follows it is shorter than the string. -/
lemma length_rest_lt (h : subject nptr base = some sub) : sub.rest.length < nptr.length := by
  have hsk : (skipSpace nptr).length ≤ nptr.length := length_dropWhile_le _ _
  have hs := length_takeSign_le (skipSpace nptr)
  have hb := length_subjectBase_le base (takeSign (skipSpace nptr)).2
  simp only [subject] at h
  split_ifs at h with hdig
  cases h
  have hd := length_dropWhile_lt hdig
  dsimp only
  omega

/-- Both find the same base and the same first digit, except after a bare prefix. -/
lemma detectBase_eq (h : ¬ BarePrefix nptr base) :
    detectBase base (takeSign (skipSpace nptr)).2 = subjectBase base (takeSign (skipSpace nptr)).2 := by
  unfold BarePrefix at h
  generalize (takeSign (skipSpace nptr)).2 = s at h ⊢
  unfold detectBase subjectBase
  by_cases hp : (base = 0 ∨ base = 16) ∧ charAt s 0 = ch '0' ∧ (charAt s 1 = ch 'x' ∨ charAt s 1 = ch 'X')
  · have hdig : isDigitBelow 16 (charAt s 2) = true := by
      by_contra hd
      exact h ⟨hp.1, hp.2.1, hp.2.2, eq_false_iff.2 hd⟩
    rw [if_pos hp, if_pos ⟨hp.1, hp.2.1, hp.2.2, hdig⟩]
  have hp' : ¬ ((base = 0 ∨ base = 16) ∧ charAt s 0 = ch '0' ∧ (charAt s 1 = ch 'x' ∨ charAt s 1 = ch 'X') ∧
      isDigitBelow 16 (charAt s 2) = true) := fun hp' => hp ⟨hp'.1, hp'.2.1, hp'.2.2.1⟩
  rw [if_neg hp, if_neg hp']
  by_cases hz : base = 0
  · by_cases hc : charAt s 0 = ch '0' <;> simp [hz, hc]
  · simp [hz]

/-- After a bare prefix the code finds no digit, and there is a subject sequence, the zero of the prefix. -/
lemma BarePrefix.spec (h : BarePrefix nptr base) :
    (∃ s, detectBase base (takeSign (skipSpace nptr)).2 = (16, s) ∧ s.takeWhile (isDigitBelow 16) = []) ∧
      ∃ sub, subject nptr base = some sub := by
  unfold BarePrefix at h
  simp only [subject]
  generalize takeSign (skipSpace nptr) = r at h ⊢
  obtain ⟨neg, s⟩ := r
  obtain ⟨hbs, hz, hx, hdig⟩ := h
  dsimp only at hz hx hdig ⊢
  constructor
  · refine ⟨s.drop 2, if_pos ⟨hbs, hz, hx⟩, ?_⟩
    match s, hdig with
    | [], _ => rfl
    | [_], _ => rfl
    | [_, _], _ => rfl
    | _ :: _ :: c :: s, hdig =>
      rw [drop_succ_cons, drop_succ_cons, drop_zero, takeWhile_cons]
      exact if_neg (eq_false_iff.1 hdig)
  have hsub : ∃ b, subjectBase base s = (b, s) ∧ isDigitBelow b (ch '0') = true := by
    unfold subjectBase
    rw [if_neg (fun hp => eq_false_iff.1 hdig hp.2.2.2), hz]
    obtain rfl | rfl := hbs
    · exact ⟨8, rfl, by decide⟩
    · exact ⟨16, rfl, by decide⟩
  obtain ⟨b, hb, hbdigit⟩ := hsub
  rw [hb]
  have hne : s.takeWhile (isDigitBelow b) ≠ [] := by
    cases s with
    | nil => cases hz
    | cons c s =>
      obtain rfl : c = ch '0' := hz
      rw [takeWhile_cons, if_pos hbdigit]
      exact cons_ne_nil _ _
  exact ⟨_, if_neg hne⟩

/-- An end pointer before the end of the subject sequence is wrong. -/
lemma not_meets_of_endptr {r : StrtolResult} (hend : sub.rest.length < r.endptr.length) (value limit : Subject → Int)
    (fits : Subject → Prop) : ¬ Meets r nptr (some sub) value limit fits := by
  rintro ⟨h, -⟩
  rw [h] at hend
  exact lt_irrefl _ hend

/-- After a bare prefix both find no digit, and the zero of it is a subject sequence. -/
lemma BarePrefix.not_meets (h : BarePrefix nptr base) :
    ¬ StrtolMeets nptr base (strtol nptr base) ∧ ¬ StrtoulMeets nptr base (strtoul nptr base) := by
  obtain ⟨⟨s, hdet, hn⟩, sub, hsub⟩ := h.spec
  have hl : strtol nptr base = ⟨0, nptr, some EINVAL⟩ := by
    simp [strtol, hdet, digitLoop_of_not_digit hn, finish]
  have hul : strtoul nptr base = ⟨0, nptr, some EINVAL⟩ := by
    simp [strtoul, hdet, digitLoop_of_not_digit hn, finish]
  have hnot := @not_meets_of_endptr nptr sub ⟨0, nptr, some EINVAL⟩ (length_rest_lt hsub)
  rw [StrtolMeets, StrtoulMeets, hl, hul, hsub]
  exact ⟨hnot _ _ _, hnot _ _ _⟩

lemma two_le_subjectBase (hb : base = 0 ∨ 2 ≤ base ∧ base ≤ 36) (s : List Int8) :
    2 ≤ (subjectBase base s).1 ∧ (subjectBase base s).1 ≤ 36 := by
  unfold subjectBase
  split_ifs <;> dsimp only <;> omega

/-! ## The results -/

/-- A digit at the start of a string that begins with one. -/
lemma exists_digit (h : s.takeWhile (isDigitBelow base) ≠ []) :
    ∃ (c : Int8) (s' : List Int8) (n : Nat), s = c :: s' ∧ digitOf c = some (n : Int) ∧ n < base := by
  cases s with
  | nil => exact absurd rfl h
  | cons c s' =>
    have hc : isDigitBelow base c = true := by
      by_contra hc
      rw [takeWhile_cons, if_neg hc] at h
      exact h rfl
    obtain ⟨n, hn, hlt⟩ := isDigitBelow_iff.1 hc
    exact ⟨c, s', n, rfl, hn, hlt⟩

/-- **A minus sign in `strtol`**: the cutoff is positive, and the first digit is out of range. -/
lemma digitLoop_neg (hb : 2 ≤ base ∧ base ≤ 36)
    (hdig : s.takeWhile (isDigitBelow base) ≠ []) (cutlim : Int) (push : Int → Int → Int) : digitLoop base
      (fun acc digit => acc < - LONG_MIN.tdiv base || (acc == - LONG_MIN.tdiv base && digit > cutlim)) LONG_MIN
      push 0 false s = ⟨LONG_MIN, true, s, some ERANGE⟩ := by
  obtain ⟨c, s', n, rfl, hn, hlt⟩ := exists_digit hdig
  have hpos : 0 < - LONG_MIN.tdiv base := by
    rw [LONG_MIN, Int.neg_tdiv, Int.tdiv_eq_ediv_of_nonneg (by norm_num)]
    have hone : 1 ≤ (9223372036854775808 : Int) / base := (Int.le_ediv_iff_mul_le (by omega)).2 (by omega)
    omega
  have hlt' : ¬ (n : Int) ≥ base := by omega
  rw [digitLoop, hn]
  simp only [if_neg hlt', hpos, decide_true, Bool.true_or, if_true]

/-- The result of `strtol` without a minus sign, and of `strtoul`: the value of the digits if it is at most `M`, and
otherwise an end pointer that is still before their end. -/
lemma finish_digitLoop {M : Int} (hM : 0 ≤ M)
    (hdig : s.takeWhile (isDigitBelow base) ≠ []) (nptr : List Int8) :
    let exceeds (acc digit : Int) : Bool := acc > M / base || (acc == M / base && digit > M % base)
    let r := finish nptr (digitLoop base exceeds M (fun acc digit => acc * base + digit) 0 false s)
    let value := digitsValue base (s.takeWhile (isDigitBelow base))
    let rest := s.dropWhile (isDigitBelow base)
    ((value : Int) ≤ M → r = ⟨value, rest, none⟩) ∧ (M < value → rest.length < r.endptr.length) := by
  obtain ⟨M, rfl⟩ := eq_ofNat_of_zero_le hM
  intro exceeds r value rest
  have ho : ∀ acc digit : Nat, digit < base → (exceeds acc digit = true ↔ M < acc * base + digit) := by
    intro acc digit hdigit
    rw [← cutoff_iff hdigit]
    simp only [exceeds, or_eq_true, and_eq_true, decide_eq_true_eq, beq_iff_eq]
    norm_cast
  have hp : ∀ acc digit : Nat, (acc : Int) * base + digit = ((acc * base + digit : Nat) : Int) := by
    intro acc digit
    rfl
  have hany : (s.takeWhile (isDigitBelow base)).isEmpty = false := by simpa using hdig
  obtain ⟨hfit, hbig⟩ := digitLoop_spec M (fun acc digit => acc * base + digit) ho hp s 0 false
  simp only [zero_mul, zero_add, hany] at hfit hbig
  constructor
  · intro h
    have hl := hfit (Nat.zero_le M) (by exact_mod_cast h)
    simp only [r]
    rw [show (0 : Int) = ((0 : Nat) : Int) from rfl, hl]
    rfl
  · intro h
    obtain ⟨s', hlt, hl⟩ := hbig (by exact_mod_cast h) (Nat.zero_le M)
    simp only [r]
    rw [show (0 : Int) = ((0 : Nat) : Int) from rfl, hl]
    exact hlt

/-- Without a bare prefix, both functions run over the digits of the subject sequence. -/
lemma strtol_eq (h : ¬ BarePrefix nptr base) {neg : Bool} {s₀ : List Int8} {b : Nat}
    (hs : takeSign (skipSpace nptr) = (neg, s₀)) (hb : subjectBase base s₀ = (b, s)) :
    (strtol nptr base = finish nptr (digitLoop b (fun acc digit =>
          if neg then acc < - LONG_MIN.tdiv b || (acc == - LONG_MIN.tdiv b && digit > LONG_MIN.tmod b)
          else acc > LONG_MAX.tdiv b || (acc == LONG_MAX.tdiv b && digit > LONG_MAX.tmod b))
        (if neg then LONG_MIN else LONG_MAX) (fun acc digit => if neg then acc * b - digit else acc * b + digit)
        0 false s)) ∧
    strtoul nptr base = finish nptr
      (digitLoop b (fun acc digit => acc > ULONG_MAX / b || (acc == ULONG_MAX / b && digit > ULONG_MAX % b))
        ULONG_MAX (fun acc digit => acc * b + digit) 0 false s) ∧
    subject nptr base = if s.takeWhile (isDigitBelow b) = [] then none
      else some ⟨neg, digitsValue b (s.takeWhile (isDigitBelow b)), s.dropWhile (isDigitBelow b)⟩ := by
  have hdet := detectBase_eq h
  rw [hs] at hdet
  refine ⟨?_, ?_, ?_⟩
  · cases neg <;> simp only [strtol, hs, hdet, hb, if_true, false_eq_true, if_false]
  · simp [strtoul, hs, hdet, hb]
  · simp [subject, hs, hb]

/-- `strtol` meets its specification exactly on the subject sequences without a bare prefix and a minus sign whose
value fits. -/
lemma strtol_meets_iff (nptr : List Int8) (hbs : base = 0 ∨ 2 ≤ base ∧ base ≤ 36) :
    StrtolMeets nptr base (strtol nptr base) ↔ ¬ BarePrefix nptr base ∧
        ∀ sub, subject nptr base = some sub → sub.neg = false ∧ (sub.value : Int) ≤ LONG_MAX := by
  by_cases hbr : BarePrefix nptr base
  · exact iff_of_false hbr.not_meets.1 fun h => h.1 hbr
  rcases hs : takeSign (skipSpace nptr) with ⟨neg, s0⟩
  rcases hb : subjectBase base s0 with ⟨b, s⟩
  have hrng : 2 ≤ b ∧ b ≤ 36 := by
    have := two_le_subjectBase hbs s0
    rwa [hb] at this
  obtain ⟨hstrtol, -, hsubject⟩ := strtol_eq hbr hs hb
  by_cases hdig : s.takeWhile (isDigitBelow b) = []
  · rw [if_pos hdig] at hsubject
    rw [StrtolMeets, hstrtol, hsubject, digitLoop_of_not_digit hdig]
    simp [Meets, finish, hbr]
  rw [if_neg hdig] at hsubject
  rw [and_iff_right hbr]
  simp only [StrtolMeets, hstrtol, hsubject, some.injEq, forall_eq']
  cases neg with
  | true =>
    refine iff_of_false ?_ fun h => nomatch h.1
    simp only [if_true]
    rw [digitLoop_neg hrng hdig]
    exact not_meets_of_endptr (length_dropWhile_lt hdig) _ _ _
  | false =>
    have hM : (0 : Int) ≤ LONG_MAX := by decide
    simp only [false_eq_true, if_false, tdiv_eq_ediv_of_nonneg hM, tmod_eq_emod_of_nonneg hM]
    obtain ⟨hfit, hbig⟩ := finish_digitLoop hM hdig nptr
    generalize digitsValue b (s.takeWhile (isDigitBelow b)) = value at hfit hbig ⊢
    by_cases hval : (value : Int) ≤ LONG_MAX
    · refine iff_of_true ?_ ⟨trivial, hval⟩
      have hlow : LONG_MIN ≤ (value : Int) := by
        rw [LONG_MIN]
        omega
      rw [hfit hval]
      exact ⟨rfl, fun _ => ⟨rfl, rfl⟩, fun h => absurd ⟨hlow, hval⟩ h⟩
    · exact iff_of_false (not_meets_of_endptr (hbig (not_le.1 hval)) _ _ _) fun h => hval h.2

/-- `strtoul` meets its specification exactly on the subject sequences without a bare prefix whose value fits and,
after a minus sign, is its own negation. -/
lemma strtoul_meets_iff (nptr : List Int8) (base : Nat) : StrtoulMeets nptr base (strtoul nptr base) ↔
      ¬ BarePrefix nptr base ∧ ∀ sub, subject nptr base = some sub →
          (sub.value : Int) ≤ ULONG_MAX ∧ (sub.neg = true → sub.value = 0 ∨ sub.value = 2 ^ 63) := by
  by_cases hbr : BarePrefix nptr base
  · exact iff_of_false hbr.not_meets.2 fun h => h.1 hbr
  rcases hs : takeSign (skipSpace nptr) with ⟨neg, s0⟩
  rcases hb : subjectBase base s0 with ⟨b, s⟩
  obtain ⟨-, hstrtoul, hsubject⟩ := strtol_eq hbr hs hb
  by_cases hdig : s.takeWhile (isDigitBelow b) = []
  · rw [if_pos hdig] at hsubject
    rw [StrtoulMeets, hstrtoul, hsubject, digitLoop_of_not_digit hdig]
    simp [Meets, finish, hbr]
  rw [if_neg hdig] at hsubject
  rw [and_iff_right hbr]
  simp only [StrtoulMeets, hstrtoul, hsubject, some.injEq, forall_eq']
  have hM : (0 : Int) ≤ ULONG_MAX := by decide
  obtain ⟨hfit, hbig⟩ := finish_digitLoop hM hdig nptr
  generalize digitsValue b (s.takeWhile (isDigitBelow b)) = value at hfit hbig ⊢
  by_cases hval : (value : Int) ≤ ULONG_MAX
  · rw [hfit hval]
    -- The value is returned as it is, so a minus sign must make no difference modulo 2 ^ 64.
    have hsign_iff : (value : Int) = (if neg then - (value : Int) else value) % 2 ^ 64 ↔
        (neg = true → value = 0 ∨ value = 2 ^ 63) := by
      rw [ULONG_MAX] at hval
      cases neg with
      | true =>
        simp only [if_true, forall_const]
        omega
      | false =>
        simp only [false_eq_true, if_false, false_implies, iff_true]
        omega
    constructor
    · intro h
      exact ⟨hval, hsign_iff.1 (h.2.1 hval).1⟩
    · rintro ⟨-, h⟩
      exact ⟨rfl, fun _ => ⟨hsign_iff.2 h, rfl⟩, fun hnot => absurd hval hnot⟩
  · exact iff_of_false (not_meets_of_endptr (hbig (not_le.1 hval)) _ _ _) fun h => hval h.1

/-- **Where `strtol` and `strtoul` meet the standard.** For every string and every base that may be given: `strtol`
does so exactly where the string has no bare prefix and its subject sequence, if there is one, has no minus sign and
a value of at most `LONG_MAX`; `strtoul` exactly where there is no bare prefix and the value is at most `ULONG_MAX`
and, after a minus sign, 0 or half of the range. -/
theorem strtol_strtoul_meet_iff (nptr : List Int8) (base : Nat) (hbase : base = 0 ∨ 2 ≤ base ∧ base ≤ 36) :
    (StrtolMeets nptr base (strtol nptr base) ↔ ¬ BarePrefix nptr base ∧
        ∀ sub, subject nptr base = some sub → sub.neg = false ∧ (sub.value : Int) ≤ LONG_MAX) ∧
    (StrtoulMeets nptr base (strtoul nptr base) ↔ ¬ BarePrefix nptr base ∧
        ∀ sub, subject nptr base = some sub →
          (sub.value : Int) ≤ ULONG_MAX ∧ (sub.neg = true → sub.value = 0 ∨ sub.value = 2 ^ 63)) :=
  ⟨strtol_meets_iff nptr hbase, strtoul_meets_iff nptr base⟩

/-- The theorem for the string "42" and base 10, where both results are right. -/
theorem strtol_strtoul_meet_fortyTwo : StrtolMeets [ch '4', ch '2'] 10 (strtol [ch '4', ch '2'] 10) ∧
      StrtoulMeets [ch '4', ch '2'] 10 (strtoul [ch '4', ch '2'] 10) := by
  obtain ⟨hl, hul⟩ := strtol_strtoul_meet_iff [ch '4', ch '2'] 10 (by decide)
  have hsubject : subject [ch '4', ch '2'] 10 = some ⟨false, 42, []⟩ := by decide
  have hb : ¬ BarePrefix [ch '4', ch '2'] 10 := fun h => absurd h.1 (by decide)
  refine ⟨hl.2 ⟨hb, ?_⟩, hul.2 ⟨hb, ?_⟩⟩
  · intro sub hsub
    obtain rfl := some.inj (hsubject.symm.trans hsub)
    exact ⟨rfl, by decide⟩
  · intro sub hsub
    obtain rfl := some.inj (hsubject.symm.trans hsub)
    exact ⟨by decide, nofun⟩

/-- `strtol` of "-5" in base 10: it gives `LONG_MIN` and `ERANGE`, with the end pointer before the digit. -/
theorem strtol_minus_five : strtol [ch '-', ch '5'] 10 = ⟨LONG_MIN, [ch '5'], some ERANGE⟩ ∧
      ¬ StrtolMeets [ch '-', ch '5'] 10 (strtol [ch '-', ch '5'] 10) := by
  have hr : strtol [ch '-', ch '5'] 10 = ⟨LONG_MIN, [ch '5'], some ERANGE⟩ := by decide
  refine ⟨hr, ?_⟩
  rintro ⟨hend, -⟩
  cases hend

end OS01.Libc
