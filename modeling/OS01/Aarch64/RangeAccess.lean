import OS01.Lib.Bits
import OS01.Aarch64.PageTable

/-!
# Checking a range of addresses

`aarch64_pt_range_accessible` asks the page table for every page of a range. Its cursor and the end of the
range are 64-bit words. A range that ends at the top of the address space has the end 0 and is taken for one
that wraps; and where the range reaches into the last page the cursor wraps to 0 while it is still below the
end, and the loop goes on through the low addresses until it meets one that is not canonical. So a
range that meets the last page is always refused (`rangeAccessible_iff`); all others are answered by their
pages.
-/

namespace OS01.Aarch64

open BitVec Result

/-- Whether a permission has the rights that are asked for. -/
def allows (write user : Bool) (perm : Perm) : Bool :=
  let haveUser := perm &&& USER_RO != 0 || perm &&& USER_RW != 0
  let haveRw := perm &&& KERNEL_RW != 0 || perm &&& USER_RW != 0
  !(user && !haveUser) && !(write && !haveRw)

/-- One round of the loop of `aarch64_pt_range_accessible`; `perm` is written whenever the code is `OK`. -/
def granted (root : Word) (write user : Bool) (s : Tables) (cursor : Word) : Bool :=
  let r := query4kExt root cursor s
  decide (r.rc = .ok) && r.perm.any (allows write user)

/-- `while (cursor < end)`, in at most `fuel` rounds. -/
def accessLoop (grant : Word → Bool) (stop : Word) : Nat → Word → Option Bool
  | 0, _ => none
  | fuel + 1, cursor =>
    if cursor < stop then
      if grant cursor then accessLoop grant stop fuel (cursor + 4096) else some false
    else some true

/-- `aarch64_pt_range_accessible`. -/
def rangeAccessible (root va length : Word) (write user : Bool) (s : Tables) : Option Bool :=
  if length = 0 then some true
  else if va + length < va then some false
  else if ¬ rootValid root then some false
  else accessLoop (granted root write user s) (va + length) (2 ^ 53) (va &&& ~~~0xfff)

/-- The address of a page. -/
def pageVa (p : Nat) : Word := BitVec.ofNat 64 (p * 4096)

/-- A valid leaf maps a page with the rights that are asked for. -/
def PageMapped (root : Word) (write user : Bool) (s : Tables) (p : Nat) : Prop :=
  rootValid root ∧ ∃ pte desc perm sw, readLeaf root (pageVa p) s = .ok (pte, desc, .ok) ∧
    decodePerm desc = some (perm, sw) ∧ allows write user perm = true

/-- The range is empty, or it does not wrap and its pages are mapped. -/
def RangeMapped (root va length : Word) (write user : Bool) (s : Tables) : Prop :=
  length = 0 ∨ va.toNat + length.toNat - 1 < 2 ^ 64 ∧
    ∀ p, va.toNat / 4096 ≤ p → p * 4096 < va.toNat + length.toNat → PageMapped root write user s p

variable {root va length stop : Word} {write user : Bool} {s : Tables} {p k fuel : Nat} {grant : Word → Bool}

lemma granted_iff (hr : rootValid root) :
    granted root write user s (pageVa p) = true ↔ PageMapped root write user s p := by
  rw [granted, PageMapped, query4kExt, if_neg (not_not.2 hr)]
  cases hrd : readLeaf root (pageVa p) s with
  | error rc => simp [code]
  | ok x =>
    obtain ⟨pte, desc, kind⟩ := x
    cases hdec : decodePerm desc with
    | none => cases kind <;> simp [leafValues, code, values, hdec]
    | some v =>
      obtain ⟨perm, sw⟩ := v
      cases kind <;> simp [leafValues, code, values, hdec, hr]

lemma pageVa_succ (p : Nat) : pageVa p + 4096 = pageVa (p + 1) := by
  rw [pageVa, pageVa, Nat.succ_mul, ofNat_add]
  rfl

lemma pageVa_lt : pageVa p < stop ↔ p * 4096 % 2 ^ 64 < stop.toNat := by
  rw [lt_def, pageVa, toNat_ofNat]

/-- The loop refuses where it comes to a page that is not granted. -/
lemma accessLoop_false (hin : ∀ i, p ≤ i → i ≤ k → pageVa i < stop) (hk : ¬ grant (pageVa k) = true)
    (hp : p ≤ k) (hf : k - p < fuel) : accessLoop grant stop fuel (pageVa p) = some false := by
  induction fuel generalizing p with
  | zero => omega
  | succ fuel ih =>
    rw [accessLoop, if_pos (hin p le_rfl hp)]
    by_cases hg : grant (pageVa p) = true
    · have hne : p ≠ k := fun h => hk (h ▸ hg)
      rw [if_pos hg, pageVa_succ]
      exact ih (fun i hi => hin i (by omega)) (by omega) (by omega)
    · rw [if_neg hg]

/-- It accepts if it comes to the end before. -/
lemma accessLoop_true (hall : ∀ i, p ≤ i → i < k → grant (pageVa i) = true) (hk : ¬ pageVa k < stop)
    (hp : p ≤ k) (hf : k - p < fuel) : accessLoop grant stop fuel (pageVa p) = some true := by
  induction fuel generalizing p with
  | zero => omega
  | succ fuel ih =>
    rw [accessLoop]
    split_ifs with hlt hg
    · have hne : p ≠ k := fun h => hk (h ▸ hlt)
      rw [pageVa_succ]
      exact ih (fun i hi => hall i (by omega)) (by omega) (by omega)
    · have hne : p ≠ k := fun h => hk (h ▸ hlt)
      exact absurd (hall p le_rfl (by omega)) hg
    · rfl

lemma start_eq (va : Word) : va &&& ~~~0xfff = pageVa (va.toNat / 4096) := by
  have hrnd : (va &&& ~~~0xfff).toNat = va.toNat / 4096 * 4096 := Lib.toNat_and_not_low va 12
  refine eq_of_toNat_eq ?_
  rw [hrnd, pageVa, toNat_ofNat, Nat.mod_eq_of_lt (by omega)]

/-- **A range below the last page** that is mapped is accepted. -/
lemma rangeAccessible_true (hlow : va.toNat + length.toNat ≤ 2 ^ 64 - 4096)
    (h : RangeMapped root va length write user s) : rangeAccessible root va length write user s = some true := by
  rw [rangeAccessible]
  split_ifs with hz hw hr
  · rfl
  · rw [lt_def, toNat_add] at hw
    omega
  · obtain ⟨-, hall⟩ := h.resolve_left hz
    rw [start_eq]
    refine accessLoop_true (k := (va.toNat + length.toNat + 4095) / 4096) (fun i hi hlt => ?_) ?_ (by omega) (by omega)
    · exact (granted_iff hr).2 (hall i hi (by omega))
    · rw [pageVa_lt, toNat_add]
      omega
  · obtain ⟨-, hall⟩ := h.resolve_left hz
    have hpos : length.toNat ≠ 0 := fun h => hz (eq_of_toNat_eq h)
    exact absurd (hall _ le_rfl (by omega)).1 hr

/-- **Every other range** is refused. -/
lemma rangeAccessible_false (hz : length ≠ 0)
    (h : ¬ (va.toNat + length.toNat ≤ 2 ^ 64 - 4096 ∧ RangeMapped root va length write user s)) :
    rangeAccessible root va length write user s = some false := by
  by_cases hr : rootValid root
  swap
  · rw [rangeAccessible, if_neg hz, if_pos hr, ite_self]
  rw [rangeAccessible, if_neg hz]
  split_ifs with hw
  · rfl
  rw [lt_def, toNat_add] at hw
  have hs : (va + length).toNat = va.toNat + length.toNat := by
    rw [toNat_add]
    omega
  rw [start_eq]
  by_cases hall : ∀ q, va.toNat / 4096 ≤ q → q * 4096 < va.toNat + length.toNat → PageMapped root write user s q
  · -- the cursor passes the last page and comes to the first address that is not canonical
    have htop : 2 ^ 64 - 4096 < va.toNat + length.toNat :=
      Nat.lt_of_not_le fun hlow => h ⟨hlow, Or.inr ⟨by omega, hall⟩⟩
    refine accessLoop_false (k := 2 ^ 52 + 2 ^ 36) (fun i hi hk => ?_) ?_ (by omega) (by omega)
    · rw [pageVa_lt]
      omega
    · rw [granted, query4kExt, if_neg (not_not.2 hr), readLeaf, if_pos (by decide)]
      simp [code]
  · push Not at hall
    obtain ⟨k, hk, hlt, hno⟩ := hall
    refine accessLoop_false (fun i hi hik => ?_) (mt (granted_iff hr).1 hno) hk (by omega)
    rw [pageVa_lt]
    omega

/-- **There is an answer, and it is right** unless the range meets the last page and is mapped. -/
theorem rangeAccessible_iff (root va length : Word) (write user : Bool) (s : Tables) :
    (rangeAccessible root va length write user s).isSome ∧
      ((rangeAccessible root va length write user s = some true ↔ RangeMapped root va length write user s) ↔
        (length = 0 ∨ va.toNat + length.toNat ≤ 2 ^ 64 - 4096 ∨ ¬ RangeMapped root va length write user s)) := by
  by_cases hz : length = 0
  · simp [rangeAccessible, RangeMapped, hz]
  by_cases hg : va.toNat + length.toNat ≤ 2 ^ 64 - 4096 ∧ RangeMapped root va length write user s
  · obtain ⟨hlow, hmapped⟩ := hg
    have ht := rangeAccessible_true hlow hmapped
    exact ⟨ht ▸ rfl, fun _ => Or.inr (Or.inl hlow), fun _ => ⟨fun _ => hmapped, fun _ => ht⟩⟩
  · rw [rangeAccessible_false hz hg]
    simp only [Option.isSome_some, Option.some.injEq, Bool.false_eq_true]
    tauto

/-- Tables in which every slot is a leaf for user data and points back to the same table. -/
def selfTables : Tables := ⟨fun _ _ => 0x60000000001747, fun _ => false, fun _ => false⟩

/-- The last page, which is mapped. -/
theorem rangeAccessible_top : RangeMapped 0x1000 0xfffffffffffff000 0x1000 true true selfTables ∧
      rangeAccessible 0x1000 0xfffffffffffff000 0x1000 true true selfTables = some false := by
  refine ⟨Or.inr ⟨by decide, fun p hp hlt => ?_⟩, by decide⟩
  obtain rfl : p = 2 ^ 52 - 1 := by
    change 0xfffffffffffff000 / 4096 ≤ p at hp
    change p * 4096 < 0xfffffffffffff000 + 0x1000 at hlt
    omega
  exact ⟨by decide, 0x1000, 0x60000000001747, USER_RW, 0, by decide, by decide, by decide⟩

end OS01.Aarch64
