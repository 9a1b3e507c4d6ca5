import Mathlib.Algebra.Group.Nat.Defs
import Mathlib.Data.List.Lex
import Mathlib.Data.List.TakeWhile
import Mathlib.Data.Prod.Lex
import Mathlib.Order.Compare

/-!
# Version strings

`libc/string/strverscmp.c`. The function compares two strings by their tokens: a byte that is no digit
stands for itself, a run of digits for its value. Its comment also wants the longer of two runs of one
value to come after the shorter, but nothing compares the lengths, and the runs are passed over.
-/

namespace OS01.Libc.Strverscmp

open List Nat

/-- The bytes of a string before its end. -/
abbrev Str := List UInt8

/-- `isdigit`. -/
def isdigit (c : UInt8) : Bool := 48 ≤ c && c ≤ 57

/-- `strncmp` of two strings of one length. -/
def strncmp : Str → Str → Int
  | a :: s, b :: t => if a ≠ b then a.toNat - b.toNat else strncmp s t
  | _, _ => 0

/-- The digits behind the zeros in front of a run. -/
def digits (s : Str) : Str := (s.dropWhile (· == 48)).takeWhile isdigit

/-- What follows these digits. -/
def rest (s : Str) : Str := (s.dropWhile (· == 48)).dropWhile isdigit

variable {a b : UInt8} {s t : Str} {u v : Nat}

/-- The value of a run of digits behind the value of the digits in front of it. -/
def value (v : Nat) (digits : Str) : Nat := digits.foldl (fun v c => v * 10 + (c.toNat - 48)) v

lemma value_cons : value v (a :: s) = value (v * 10 + (a.toNat - 48)) s := by
  rw [value, foldl_cons, value]

/-- Zeros are digits: they change neither what follows a run nor its value. -/
lemma zeros (h : isdigit a) : rest (a :: s) = s.dropWhile isdigit ∧
    value 0 (digits (a :: s)) = value 0 (a :: s.takeWhile isdigit) := by
  unfold rest digits
  induction s generalizing a with
  | nil => by_cases ha : a = 48 <;> simp [ha, h, value_cons]
  | cons b s ih =>
    by_cases ha : a = 48
    · by_cases hb : isdigit b
      · simpa [ha, hb, value_cons] using ih hb
      · have : b ≠ 48 := fun h => hb (h ▸ by decide)
        simp [ha, this, value_cons]
    · simp [ha, h]

/-- Each pass compares two bytes or two runs of digits. -/
def strverscmp : Str → Str → Int
  | [], [] => 0
  | a :: _, [] => a.toNat
  | [], b :: _ => -b.toNat
  | a :: p, b :: q =>
    if h : isdigit a ∧ isdigit b then
      let m := digits (a :: p)
      let n := digits (b :: q)
      if m.length ≠ n.length then if m.length < n.length then -1 else 1
      else if strncmp m n ≠ 0 then strncmp m n
      else strverscmp (rest (a :: p)) (rest (b :: q))
    else if a = b then strverscmp p q
    else a.toNat - b.toNat
termination_by s => s.length
decreasing_by
  · rw [(zeros h.1).1]
    exact lt_succ_of_le (dropWhile_suffix _).length_le
  · simp

/-! ## Tokens -/

/-- A byte, or a digit and a value; the length of the run. -/
abbrev Token := (Nat ×ₗ Nat) ×ₗ Nat

/-- The tokens of a string, in the order of which they are to be compared. -/
def tokens : Str → List Token
  | [] => []
  | a :: s =>
    if isdigit a then
      let run := a :: s.takeWhile isdigit
      toLex (toLex (48, value 0 run), run.length) :: tokens (s.dropWhile isdigit)
    else toLex (toLex (a.toNat, 0), 0) :: tokens s
termination_by s => s.length
decreasing_by
  · exact lt_succ_of_le (dropWhile_suffix _).length_le
  · simp

/-- What the code sees of a token. -/
def seen (x : Token) : Nat ×ₗ Nat := (ofLex x).1

/-! ## Values of runs -/

lemma isdigit_iff : isdigit a ↔ 48 ≤ a.toNat ∧ a.toNat < 58 := by
  simp [isdigit, UInt8.le_iff_toNat_le]
  omega

lemma value_pos (h : 0 < v) : 0 < value v s := by
  induction s generalizing v with
  | nil => exact h
  | cons a s ih =>
    rw [value_cons]
    exact ih (by omega)

lemma isdigit_digits (s : Str) : ∀ c ∈ digits s, isdigit c := fun _ => mem_takeWhile_imp

section

variable (hs : ∀ c ∈ s, isdigit c)
include hs

lemma value_lt (hl : s.length = t.length) (h : u < v) : value u s < value v t := by
  induction s generalizing t u v with
  | nil =>
    obtain rfl := length_eq_zero_iff.1 hl.symm
    exact h
  | cons a s ih =>
    obtain _ | ⟨b, t⟩ := t
    · cases hl
    have ha := isdigit_iff.1 (hs a mem_cons_self)
    rw [value_cons, value_cons]
    exact ih (fun c hc => hs c (mem_cons_of_mem _ hc)) (succ.inj hl) (by omega)

/-- Runs of one length compare as their values do. -/
lemma cmp_strncmp (ht : ∀ c ∈ t, isdigit c) (hl : s.length = t.length) :
    cmp (strncmp s t) 0 = cmp (value v s) (value v t) ∧ (strncmp s t = 0 → s = t) := by
  induction s generalizing t v with
  | nil =>
    obtain rfl := length_eq_zero_iff.1 hl.symm
    exact ⟨(cmp_self_eq_eq (0 : Int)).trans (cmp_self_eq_eq _).symm, fun _ => rfl⟩
  | cons a s ih =>
    obtain _ | ⟨b, t⟩ := t
    · cases hl
    have ha := isdigit_iff.1 (hs a mem_cons_self)
    have hb := isdigit_iff.1 (ht b mem_cons_self)
    replace hs : ∀ c ∈ s, isdigit c := fun c hc => hs c (mem_cons_of_mem _ hc)
    replace ht : ∀ c ∈ t, isdigit c := fun c hc => ht c (mem_cons_of_mem _ hc)
    replace hl := succ.inj hl
    rw [strncmp, value_cons, value_cons]
    by_cases h : a = b
    · subst h
      rw [if_neg (by simp)]
      exact (ih hs ht hl).imp_right fun h h' => by rw [h h']
    rw [if_pos h]
    obtain h | h := lt_or_gt_of_ne (mt UInt8.toNat_inj.1 h)
    · rw [(value_lt hs hl (by omega)).cmp_eq_lt, cmp_eq_lt_iff]
      omega
    · rw [(value_lt ht hl.symm (by omega)).cmp_eq_gt, cmp_eq_gt_iff]
      omega

/-- The longer run has the larger value. -/
lemma value_lt_of_length (hl : s.length < (digits t).length) :
    value 0 s < value 0 (digits t) := by
  have h0 := head?_dropWhile_not (· == 48) t
  rw [digits] at *
  generalize t.dropWhile (· == 48) = t at *
  obtain _ | ⟨b, t⟩ := t
  · cases hl
  rw [takeWhile_cons] at *
  split_ifs at * with h
  · have hd := isdigit_iff.1 h
    have hne : b.toNat ≠ 48 := fun h => by
      simp [(UInt8.toNat_inj (b := 48)).1 h] at h0
    generalize t.takeWhile isdigit = t at *
    have hv (v) : value v t =
        value (value v (t.take (t.length - s.length))) (t.drop (t.length - s.length)) := by
      rw [value, value, value, ← foldl_append, take_append_drop]
    rw [value_cons, hv]
    simp only [length_cons] at hl
    exact value_lt hs (by rw [length_drop]; omega) (value_pos (by omega))
  · cases hl

end

/-! ## Order of the tokens -/

variable {α β γ δ : Type*} [LinearOrder α] [LT β] [DecidableLT β] [LT γ] [DecidableLT γ]

/-- A lexicographic order compares as its parts do, one after the other. -/
lemma cmp_then {x y : α} {l m : β} {p q : γ} (h : p < q ↔ x < y ∨ x = y ∧ l < m)
    (h' : q < p ↔ y < x ∨ y = x ∧ m < l) : cmp p q = (cmp x y).then (cmp l m) := by
  unfold cmp cmpUsing
  simp only [h, h']
  obtain hx | rfl | hx := lt_trichotomy x y
  · simp [hx]
  · simp
  · simp [hx, hx.not_gt, hx.ne']

lemma cmp_cons (x y : α) (l m : List α) : cmp (x :: l) (y :: m) = (cmp x y).then (cmp l m) :=
  cmp_then cons_lt_cons_iff cons_lt_cons_iff

lemma cmp_toLex [LinearOrder δ] (x y : α ×ₗ δ) :
    cmp x y = (cmp (ofLex x).1 (ofLex y).1).then (cmp (ofLex x).2 (ofLex y).2) :=
  cmp_then Prod.Lex.lt_iff Prod.Lex.lt_iff

lemma then_of_ne {o o' : Ordering} (h : o ≠ .eq) : o.then o' = o := by
  cases o <;> simp_all

/-- Where two runs of one value and different length are passed over, the rest decides as the lengths
would. -/
def Decided : List Token → List Token → Prop
  | x :: l, y :: m =>
    if x = y then Decided l m else seen x = seen y → cmp (l.map seen) (m.map seen) = cmp x y
  | _, _ => True

lemma decided_cons {x y : Token} {l m : List Token} : Decided (x :: l) (y :: m) ↔
    if x = y then Decided l m else seen x = seen y → cmp (l.map seen) (m.map seen) = cmp x y :=
  Iff.rfl

lemma cmp_seen_iff (l m : List Token) : cmp (l.map seen) (m.map seen) = cmp l m ↔ Decided l m := by
  induction l generalizing m with
  | nil => cases m <;> exact iff_of_true rfl trivial
  | cons x l ih =>
    obtain _ | ⟨y, m⟩ := m
    · exact iff_of_true rfl trivial
    rw [map_cons, map_cons, cmp_cons, cmp_cons, decided_cons]
    by_cases hxy : x = y
    · rw [if_pos hxy, hxy, cmp_self_eq_eq, cmp_self_eq_eq]
      exact ih m
    rw [if_neg hxy, then_of_ne (mt (cmp_eq_eq_iff x y).1 hxy)]
    by_cases hs : seen x = seen y
    · rw [hs, cmp_self_eq_eq]
      exact ⟨fun h _ => h, fun h => h rfl⟩
    · have h : cmp (seen x) (seen y) ≠ .eq := mt (cmp_eq_eq_iff _ _).1 hs
      rw [then_of_ne h, cmp_toLex x y]
      exact iff_of_true (then_of_ne h).symm fun h => absurd h hs

/-! ## What the code compares -/

lemma tokens_digit (h : isdigit a) : tokens (a :: s) =
    toLex (toLex (48, value 0 (a :: s.takeWhile isdigit)), (a :: s.takeWhile isdigit).length) ::
      tokens (s.dropWhile isdigit) := by
  rw [tokens, if_pos h]

lemma tokens_byte (h : ¬isdigit a) : tokens (a :: s) = toLex (toLex (a.toNat, 0), 0) :: tokens s := by
  rw [tokens, if_neg h]

lemma tokens_cons : ∃ x l, tokens (a :: s) = x :: l ∧
    (ofLex (seen x)).1 = if isdigit a then 48 else a.toNat := by
  rw [tokens]
  split_ifs <;> exact ⟨_, _, rfl, rfl⟩

lemma cmp_runs (ha : isdigit a) (hb : isdigit b) :
    cmp ((tokens (a :: s)).map seen) ((tokens (b :: t)).map seen) =
      (cmp (value 0 (digits (a :: s))) (value 0 (digits (b :: t)))).then
        (cmp ((tokens (s.dropWhile isdigit)).map seen) ((tokens (t.dropWhile isdigit)).map seen)) := by
  rw [tokens_digit ha, tokens_digit hb, map_cons, map_cons, cmp_cons, cmp_toLex, (zeros ha).2, (zeros hb).2]
  rfl

lemma pos_of_not_mem (h : 0 ∉ a :: s) : (0 : Int) < a.toNat := by
  have : a.toNat ≠ 0 := fun h' => h (by simp [UInt8.toNat_inj (b := 0) |>.1 h'])
  omega

lemma cmp_strverscmp (hs : 0 ∉ s) (ht : 0 ∉ t) :
    cmp (strverscmp s t) 0 = cmp ((tokens s).map seen) ((tokens t).map seen) := by
  fun_induction strverscmp s t with
  | case1 =>
    rw [tokens, cmp_self_eq_eq]
    rfl
  | case2 a p =>
    obtain ⟨x, l, hx, -⟩ := tokens_cons (a := a) (s := p)
    rw [hx, tokens, (cmp_eq_gt_iff ..).2 (pos_of_not_mem hs)]
    rfl
  | case3 b q =>
    obtain ⟨x, l, hx, -⟩ := tokens_cons (a := b) (s := q)
    rw [hx, tokens, (cmp_eq_lt_iff ..).2 (Int.neg_neg_of_pos (pos_of_not_mem ht))]
    rfl
  | case4 a p b q h m n hne hlt =>
    rw [cmp_runs h.1 h.2, (value_lt_of_length (isdigit_digits _) hlt).cmp_eq_lt]
    rfl
  | case5 a p b q h m n hne hlt =>
    rw [cmp_runs h.1 h.2, (value_lt_of_length (isdigit_digits _)
      (lt_of_le_of_ne (not_lt.1 hlt) hne.symm)).cmp_eq_gt]
    rfl
  | case6 a p b q h m n hl hc =>
    rw [cmp_runs h.1 h.2, ← (cmp_strncmp (isdigit_digits _) (isdigit_digits _) (not_not.1 hl)).1]
    exact (then_of_ne (mt (cmp_eq_eq_iff ..).1 hc)).symm
  | case7 a p b q h m n hl hc ih =>
    have hr {l : Str} {c} (h : 0 ∉ c :: l) : 0 ∉ l.dropWhile isdigit :=
      fun h' => h (mem_cons_of_mem _ ((dropWhile_suffix _).subset h'))
    have hv := (cmp_strncmp (v := 0) (isdigit_digits _) (isdigit_digits _) (not_not.1 hl)).1
    rw [not_not.1 hc] at hv
    rw [(zeros h.1).1, (zeros h.2).1] at ih ⊢
    rw [cmp_runs h.1 h.2, ih (hr hs) (hr ht)]
    exact (congrArg (Ordering.then · _) hv)
  | case8 p b q h ih =>
    have hb : ¬isdigit b := fun hb => h ⟨hb, hb⟩
    rw [tokens_byte hb, tokens_byte hb, map_cons, map_cons, cmp_cons, cmp_self_eq_eq]
    exact ih (not_mem_of_not_mem_cons hs) (not_mem_of_not_mem_cons ht)
  | case9 a p b q h hne =>
    obtain ⟨x, l, hx, hkx⟩ := tokens_cons (a := a) (s := p)
    obtain ⟨y, m, hy, hky⟩ := tokens_cons (a := b) (s := q)
    simp only [isdigit_iff] at h hkx hky
    rw [hx, hy, map_cons, map_cons, cmp_cons, cmp_toLex (seen x), hkx, hky]
    obtain hlt | hlt := lt_or_gt_of_ne (mt UInt8.toNat_inj.1 hne)
    · rw [(cmp_eq_lt_iff ..).2 (by omega), (cmp_eq_lt_iff ..).2 (by split_ifs <;> omega)]
      rfl
    · rw [(cmp_eq_gt_iff ..).2 (by omega), (cmp_eq_gt_iff ..).2 (by split_ifs <;> omega)]
      rfl

/-- A string is known by its tokens. -/
lemma tokens_inj (h : tokens s = tokens t) : s = t := by
  induction s using tokens.induct generalizing t with
  | case1 =>
    obtain _ | ⟨b, t⟩ := t
    · rfl
    · rw [tokens, tokens] at h
      split_ifs at h
  | case2 a s ha ih =>
    obtain _ | ⟨b, t⟩ := t
    · simp [tokens, ha] at h
    by_cases hb : isdigit b
    · simp only [tokens, ha, hb, if_true, cons.injEq, toLex_inj, Prod.mk.injEq, true_and] at h
      obtain ⟨⟨hv, hl⟩, hr⟩ := h
      have hd {c : UInt8} {l : Str} (hc : isdigit c) : ∀ x ∈ c :: l.takeWhile isdigit, isdigit x :=
        forall_mem_cons.2 ⟨hc, fun _ => mem_takeWhile_imp⟩
      obtain ⟨hc, h0⟩ := cmp_strncmp (v := 0) (hd ha) (hd hb) hl
      rw [hv, cmp_self_eq_eq, cmp_eq_eq_iff] at hc
      obtain ⟨hab, ht⟩ := cons.inj (h0 hc)
      rw [hab, ← takeWhile_append_dropWhile (p := isdigit) (l := s), ht, ih hr, takeWhile_append_dropWhile]
    · simp [tokens, ha, hb] at h
  | case3 a s ha ih =>
    obtain _ | ⟨b, t⟩ := t
    · simp [tokens, ha] at h
    by_cases hb : isdigit b
    · simp [tokens, ha, hb] at h
    · obtain ⟨h, hr⟩ : a.toNat = b.toNat ∧ tokens s = tokens t := by simpa [tokens, ha, hb] using h
      rw [UInt8.toNat_inj.1 h, ih hr]

/-- **What `strverscmp` orders.** The documented order is the one of the tokens: runs of one value
come in the order of their lengths. -/
theorem strverscmp_documented_iff (hs : 0 ∉ s) (ht : 0 ∉ t) : (tokens s = tokens t → s = t) ∧
    (cmp (strverscmp s t) 0 = cmp (tokens s) (tokens t) ↔ Decided (tokens s) (tokens t)) := by
  rw [cmp_strverscmp hs ht]
  exact ⟨tokens_inj, cmp_seen_iff ..⟩

/-- The theorem for `"01.2"` and `"1.1"`, where the rest decides as the lengths of the runs would. -/
theorem strverscmp_documented_runs : (0 ∉ ([48, 49, 46, 50] : Str) ∧ 0 ∉ ([49, 46, 49] : Str)) ∧
    cmp (strverscmp [48, 49, 46, 50] [49, 46, 49]) 0 = cmp (tokens [48, 49, 46, 50]) (tokens [49, 46, 49]) := by
  have hs : tokens [48, 49, 46, 50] = [toLex (toLex (48, 1), 2), toLex (toLex (46, 0), 0), toLex (toLex (48, 2), 1)] := by
    simp [tokens, isdigit, value]
  have ht : tokens [49, 46, 49] = [toLex (toLex (48, 1), 1), toLex (toLex (46, 0), 0), toLex (toLex (48, 1), 1)] := by
    simp [tokens, isdigit, value]
  refine ⟨by decide, (strverscmp_documented_iff (by decide) (by decide)).2.2 ?_⟩
  rw [hs, ht, decided_cons, if_neg (by decide)]
  decide

/-- `"1.0"` and `"1.00"` are told to be equal. -/
theorem strverscmp_zeros : strverscmp [49, 46, 48] [49, 46, 48, 48] = 0 := by
  simp [strverscmp, digits, rest, isdigit, strncmp]

end OS01.Libc.Strverscmp
