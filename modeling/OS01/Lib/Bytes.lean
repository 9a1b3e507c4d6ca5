import Mathlib.Algebra.Order.Ring.Nat

/-!
# Byte memories and little-endian words

`Mem` is a byte-addressed memory. `Mem.write` stores a list of bytes at consecutive addresses and
`Mem.read` reads them back; `leBytes` and `leNat` are the little-endian codec of a fixed width.
The facts the rest of the development uses are that a read returns what was written
(`read_write_self`), that a write changes nothing outside its range (`write_outside`), and that
an array of words is read back from its memory image (`wordAt_encodeWords`).

Nothing here mentions a particular program.
-/

namespace OS01.Lib

open Function Nat List

/-- A byte-addressed memory. -/
abbrev Mem : Type := Nat → UInt8

namespace Mem

/-- Store a list of bytes at consecutive addresses. -/
def write (m : Mem) (a : Nat) : List UInt8 → Mem
  | [] => m
  | b :: bs => write (Function.update m a b) (a + 1) bs

/-- Read `n` bytes at consecutive addresses. -/
def read (m : Mem) (a : Nat) : Nat → List UInt8
  | 0 => []
  | n + 1 => m a :: read m (a + 1) n

variable (m : Mem)

/-- A write changes no byte outside its range. -/
lemma write_outside (a : Nat) (bs : List UInt8) {x : Nat}
    (hx : x < a ∨ a + bs.length ≤ x) : m.write a bs x = m x := by
  induction bs generalizing m a with
  | nil => rfl
  | cons b bs ih =>
    have hne : x ≠ a := by
      simp only [length_cons] at hx
      omega
    have hx' : x < a + 1 ∨ a + 1 + bs.length ≤ x := by
      simp only [length_cons] at hx
      omega
    rw [write, ih _ _ hx', update_of_ne hne]

/-- A read depends only on the bytes of its range. -/
lemma read_congr {m m' : Mem} {a n : Nat} (h : ∀ x, a ≤ x → x < a + n → m x = m' x) :
    m.read a n = m'.read a n := by
  induction n generalizing a with
  | zero => rfl
  | succ n ih =>
    rw [read, read, h a le_rfl (by omega)]
    rw [ih fun x h1 h2 => h x (by omega) (by omega)]

/-- A read returns what was written at its address. -/
lemma read_write_self (a : Nat) (bs : List UInt8) : (m.write a bs).read a bs.length = bs := by
  induction bs generalizing m a with
  | nil => rfl
  | cons b bs ih =>
    rw [length_cons, read, write, ih]
    rw [write_outside _ _ _ (Or.inl (lt_succ_self a)), update_self]

/-- A read of a range a write does not meet is unchanged. -/
lemma read_write_disjoint (a b n : Nat) (bs : List UInt8)
    (h : b + n ≤ a ∨ a + bs.length ≤ b) : (m.write a bs).read b n = m.read b n := by
  apply read_congr
  intro x h1 h2
  exact write_outside m a bs (by omega)

/-- A read is made of two. -/
lemma read_add (a n k : Nat) : m.read a (n + k) = m.read a n ++ m.read (a + n) k := by
  induction n generalizing a with
  | zero => rw [zero_add, add_zero, read, nil_append]
  | succ n ih => rw [succ_add, read, read, ih, cons_append, add_right_comm, add_assoc]

/-- Reading a memory from an offset on. -/
lemma read_shift (b a n : Nat) : Mem.read (fun i => m (b + i)) a n = m.read (b + a) n := by
  induction n generalizing a with
  | zero => rfl
  | succ n ih => rw [read, read, ih, add_assoc]

/-- Writing into a memory from an offset on. -/
lemma write_shift (b a : Nat) (bs : List UInt8) (x : Nat) :
    Mem.write (fun i => m (b + i)) a bs x = m.write (b + a) bs (b + x) := by
  induction bs generalizing m a with
  | nil => rfl
  | cons c bs ih =>
    have hupd : update (fun i => m (b + i)) a c = fun i => update m (b + a) c (b + i) := by
      funext i
      simp [update_apply]
    rw [write, write, hupd, ih, add_assoc]

/-- A read has the length asked for. -/
@[simp] lemma length_read (a n : Nat) : (m.read a n).length = n := by
  induction n generalizing a with
  | zero => rfl
  | succ n ih => rw [read, length_cons, ih]

end Mem

/-! ## Little-endian words -/

/-- The `k` low bytes of `n`, least significant first. -/
def leBytes : Nat → Nat → List UInt8
  | 0, _ => []
  | k + 1, n => UInt8.ofNat n :: leBytes k (n / 256)

/-- The value of a little-endian byte string. -/
def leNat : List UInt8 → Nat
  | [] => 0
  | b :: bs => b.toNat + 256 * leNat bs

/-- The codec writes as many bytes as its width. -/
@[simp] lemma length_leBytes (k n : Nat) : (leBytes k n).length = k := by
  induction k generalizing n with
  | zero => rfl
  | succ k ih => rw [leBytes, length_cons, ih]

/-- Decoding returns the encoded value, modulo the width. -/
lemma leNat_leBytes (k n : Nat) : leNat (leBytes k n) = n % 256 ^ k := by
  induction k generalizing n with
  | zero => simp [leBytes, leNat, mod_one]
  | succ k ih =>
    have hb : (UInt8.ofNat n).toNat = n % 256 := UInt8.toNat_ofNat'
    rw [leBytes, leNat, ih, hb, pow_succ' 256 k, mod_mul]

lemma leNat_lt (bs : List UInt8) : leNat bs < 256 ^ bs.length := by
  induction bs with
  | nil => simp [leNat]
  | cons b bs ih =>
    have hb := b.toNat_lt
    rw [leNat, length_cons]
    omega

/-! ## Arrays of 64-bit words -/

variable (ws : List (BitVec 64))

/-- The memory image of an array of 64-bit words. -/
def encodeWords : List UInt8 :=
  ws.flatMap fun w => leBytes 8 w.toNat

/-- Word `i` of a memory image. -/
def wordAt (bs : List UInt8) (i : Nat) : BitVec 64 :=
  BitVec.ofNat 64 (leNat ((bs.drop (8 * i)).take 8))

/-- Each word takes eight bytes. -/
@[simp] lemma length_encodeWords : (encodeWords ws).length = 8 * ws.length := by
  induction ws with
  | nil => rfl
  | cons w ws ih =>
    rw [encodeWords, flatMap_cons, length_append, ← encodeWords]
    simp only [length_leBytes, length_cons]
    omega

/-- Decoding a word of an image returns the encoded word. -/
lemma wordAt_encodeWords (i : Nat) (hi : i < ws.length) : wordAt (encodeWords ws) i = ws[i] := by
  induction ws generalizing i with
  | nil => simp at hi
  | cons w ws ih =>
    cases i with
    | zero =>
      have ht : (encodeWords (w :: ws)).take 8 = leBytes 8 w.toNat := by
        rw [encodeWords, flatMap_cons, take_append_of_le_length (by simp)]
        exact take_of_length_le (by simp)
      have hval : leNat (leBytes 8 w.toNat) = w.toNat := by
        rw [leNat_leBytes]
        exact mod_eq_of_lt w.isLt
      simp [wordAt, ht, hval]
    | succ i =>
      have hd : (encodeWords (w :: ws)).drop (8 * (i + 1)) = (encodeWords ws).drop (8 * i) := by
        rw [encodeWords, flatMap_cons, ← encodeWords, mul_succ, add_comm,
          ← drop_drop, drop_left' (length_leBytes 8 _)]
      have hi' : i < ws.length := by simpa using hi
      rw [getElem_cons_succ, ← ih i hi', wordAt, hd, wordAt]

end OS01.Lib
