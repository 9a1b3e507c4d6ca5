import Mathlib.Data.List.Basic

/-!
# Ring buffers

A ring of `N` cells with a head, where the producer writes, and a tail, where the consumer reads.
One cell stays free, so that `head = tail` means empty and `head + 1 = tail` (around the ring) means
full. `Ring.contents` is the queue a ring stands for; the operations are queue operations on it
(`contents_push`, `contents_drop`), and copying cells out in one or two pieces, as the end of the
buffer requires, gives a prefix of it (`peek_eq`).
-/

namespace OS01.Lib

open Function Nat List

/-- A ring of `N` cells. -/
@[ext] structure Ring (α : Type*) (N : Nat) where
  buf : Nat → α
  head : Nat
  tail : Nat
  head_lt : head < N
  tail_lt : tail < N

namespace Ring

variable {α : Type*} {N : Nat} (r : Ring α N)

/-- The number of filled cells. -/
def avail : Nat := (r.head + N - r.tail) % N

/-- Nothing to read. -/
def empty : Bool := decide (r.head = r.tail)

/-- No room to write. -/
def full : Bool := decide ((r.head + 1) % N = r.tail)

/-- The filled cells, from the tail on. -/
def contents : List α := (List.range r.avail).map fun i => r.buf ((r.tail + i) % N)

/-- Write a cell. -/
def push (x : α) : Ring α N where
  buf := Function.update r.buf r.head x
  head := (r.head + 1) % N
  tail := r.tail
  head_lt := mod_lt _ (zero_lt_of_lt r.head_lt)
  tail_lt := r.tail_lt

/-- Give up the oldest cells. -/
def drop (n : Nat) : Ring α N where
  buf := r.buf
  head := r.head
  tail := (r.tail + n) % N
  head_lt := r.head_lt
  tail_lt := mod_lt _ (zero_lt_of_lt r.head_lt)

/-- The oldest cells, copied out in one piece or, around the end of the buffer, in two. -/
def peek (n : Nat) : List α :=
  if r.tail + n ≤ N then (List.range n).map fun i => r.buf (r.tail + i)
  else
    ((List.range (N - r.tail)).map fun i => r.buf (r.tail + i)) ++
      (List.range (n - (N - r.tail))).map r.buf

/-- Write cells while there is room; the result counts them. -/
def pushAll : Ring α N → List α → Ring α N × Nat
  | r, [] => (r, 0)
  | r, x :: xs =>
    if r.full then (r, 0)
    else
      let (r', n) := (r.push x).pushAll xs
      (r', n + 1)

variable {r}

/-! ## Positions -/

/-- The head lies `avail` cells behind the tail. -/
lemma avail_spec (r : Ring α N) :
    r.avail < N ∧ (r.head = r.tail + r.avail ∨ r.head + N = r.tail + r.avail) := by
  have hh := r.head_lt
  have ht := r.tail_lt
  unfold avail
  obtain hlt | hge := Nat.lt_or_ge r.head r.tail
  · rw [mod_eq_of_lt (by omega)]
    omega
  · rw [show r.head + N - r.tail = r.head - r.tail + N by omega, add_mod_right, mod_eq_of_lt (by omega)]
    omega

variable {n : Nat}

lemma avail_eq_of (hn : n < N) (h : r.head = r.tail + n ∨ r.head + N = r.tail + n) : r.avail = n := by
  have := r.avail_spec
  omega

@[simp] lemma length_contents : r.contents.length = r.avail := by simp [contents]

lemma empty_iff : r.empty = true ↔ r.contents = [] := by
  have hs := r.avail_spec
  have := r.tail_lt
  rw [empty, decide_eq_true_iff, ← length_eq_zero_iff, length_contents]
  omega

lemma full_iff : r.full = true ↔ r.avail + 1 = N := by
  have hs := r.avail_spec
  have hh := r.head_lt
  have ht := r.tail_lt
  rw [full, decide_eq_true_iff]
  obtain hlt | hge := Nat.lt_or_ge (r.head + 1) N
  · rw [mod_eq_of_lt hlt]
    omega
  · rw [show r.head + 1 = N by omega, mod_self]
    omega

/-- The cell `i` places behind the tail. -/
lemma getElem_contents {i : Nat} (hi : i < r.contents.length) : r.contents[i] = r.buf ((r.tail + i) % N) := by
  simp [contents]

/-! ## Queue operations -/

/-- **Writing appends.** -/
lemma contents_push (h : r.full = false) (x : α) : (r.push x).contents = r.contents ++ [x] := by
  have hs := r.avail_spec
  have hh := r.head_lt
  have ht := r.tail_lt
  have hr : r.avail + 1 < N := by
    have hne : ¬ r.avail + 1 = N := fun heq => by
      rw [full_iff.2 heq] at h
      cases h
    omega
  have havail : (r.push x).avail = r.avail + 1 := by
    refine avail_eq_of hr ?_
    change (r.head + 1) % N = r.tail + _ ∨ (r.head + 1) % N + N = r.tail + _
    obtain hlt | hge := Nat.lt_or_ge (r.head + 1) N
    · rw [mod_eq_of_lt hlt]
      omega
    · rw [show r.head + 1 = N by omega, mod_self]
      omega
  -- the cell at the head is `avail` places behind the tail
  have hhd : (r.tail + r.avail) % N = r.head := by
    obtain heq | heq := hs.2
    · rw [← heq, mod_eq_of_lt hh]
    · rw [← heq, add_mod_right, mod_eq_of_lt hh]
  refine ext_getElem (by simp [havail]) fun i hi hi' => ?_
  rw [getElem_contents]
  rw [length_contents, havail] at hi
  change update r.buf r.head x ((r.tail + i) % N) = _
  by_cases hl : i = r.avail
  · subst hl
    rw [hhd, update_self]
    simp
  have hlt : i < r.avail := by omega
  have hne : (r.tail + i) % N ≠ r.head := by
    obtain h1 | h1 := Nat.lt_or_ge (r.tail + i) N
    · rw [mod_eq_of_lt h1]
      omega
    · rw [mod_eq_sub_mod h1, mod_eq_of_lt (by omega)]
      omega
  rw [update_of_ne hne, getElem_append_left (by simpa using hlt), getElem_contents]

/-- Writing several cells for which there is room. -/
lemma contents_foldl_push (r : Ring α N) (xs : List α) (h : r.avail + xs.length < N) :
    (xs.foldl push r).contents = r.contents ++ xs := by
  induction xs generalizing r with
  | nil => rw [foldl_nil, append_nil]
  | cons x xs ih =>
    rw [length_cons] at h
    have hr : r.full = false := by
      rw [Bool.eq_false_iff, ne_eq, full_iff]
      omega
    have hc := contents_push hr x
    have havail : (r.push x).avail = r.avail + 1 := by
      rw [← length_contents, hc, length_append, length_contents, length_singleton]
    rw [foldl_cons, ih (r.push x) (by omega), hc, append_assoc, singleton_append]

/-- Reading the oldest cells one by one. -/
lemma map_range_eq_take (r : Ring α N) (h : n ≤ r.avail) :
    (range n).map (fun i => r.buf ((r.tail + i) % N)) = r.contents.take n := by
  rw [contents, ← map_take, take_range, Nat.min_eq_left h]

/-- **Giving up the oldest cells.** -/
lemma contents_drop (h : n ≤ r.avail) : (r.drop n).contents = r.contents.drop n := by
  have hs := r.avail_spec
  have hh := r.head_lt
  have ht : (r.tail + n) % N = r.tail + n ∨ (r.tail + n) % N + N = r.tail + n := by
    obtain h1 | h1 := Nat.lt_or_ge (r.tail + n) N
    · exact .inl (mod_eq_of_lt h1)
    · rw [mod_eq_sub_mod h1, mod_eq_of_lt (by omega)]
      omega
  have havail : (r.drop n).avail = r.avail - n := by
    refine avail_eq_of (by omega) ?_
    change r.head = (r.tail + n) % N + _ ∨ r.head + N = (r.tail + n) % N + _
    omega
  refine ext_getElem (by simp [havail]) fun i hi hi' => ?_
  rw [getElem_contents, getElem_drop, getElem_contents]
  change r.buf (((r.tail + n) % N + i) % N) = _
  rw [mod_add_mod, Nat.add_assoc]

/-- **Copying out** gives the oldest cells. -/
lemma peek_eq (h : n ≤ r.avail) : r.peek n = r.contents.take n := by
  have hs := r.avail_spec
  have ht := r.tail_lt
  refine ext_getElem ?_ fun i hi hi' => ?_
  · unfold peek
    split <;> simp <;> omega
  rw [getElem_take, getElem_contents]
  have hin : i < n := by
    rw [length_take] at hi'
    omega
  unfold peek
  split
  · next h1 => simp [mod_eq_of_lt (show r.tail + i < N by omega)]
  next h1 =>
    obtain h2 | h2 := Nat.lt_or_ge i (N - r.tail)
    · rw [getElem_append_left (by simpa using h2)]
      simp [mod_eq_of_lt (show r.tail + i < N by omega)]
    · rw [getElem_append_right (by simpa using h2)]
      simp only [length_map, length_range, getElem_map, getElem_range]
      rw [mod_eq_sub_mod (by omega), mod_eq_of_lt (by omega)]
      congr 1
      omega

/-- **Writing several cells** appends those for which there was room. -/
lemma pushAll_spec (r : Ring α N) (xs : List α) : (r.pushAll xs).2 ≤ xs.length ∧
      (r.pushAll xs).1.contents = r.contents ++ xs.take (r.pushAll xs).2 := by
  induction xs generalizing r with
  | nil => simp [pushAll]
  | cons x xs ih =>
    unfold pushAll
    split
    · simp
    · next hf =>
        obtain ⟨hle, hc⟩ := ih (r.push x)
        refine ⟨by simpa using hle, ?_⟩
        rw [hc, contents_push (by simpa using hf), append_assoc]
        rfl

end Ring

end OS01.Lib
