import Mathlib.Data.List.GetD
import Mathlib.Order.MinMax
import Mathlib.Tactic.Common

/-!
# Byte arrays with the operations of a file

`Content` is what a file holds: a size and its bytes, zero from the size on. `Content.write`,
`Content.truncate` and `Content.read` are the operations of a regular file, where a write past the
end and a growing truncation fill the gap with zeros. A store keeps its bytes in some function of
the position, which need not be zero past the size: `Content.ofBytes` cuts such a function at a size,
and `truncate_ofBytes` and `write_ofBytes` say when an operation on the store is the operation on
the contents.

Nothing here mentions a particular program.
-/

namespace OS01.Lib

open List

/-- The contents of a file. -/
@[ext]
structure Content where
  size : Nat
  byte : Nat → UInt8
  /-- There is nothing past the end. -/
  zero : ∀ i, size ≤ i → byte i = 0

namespace Content

/-- The first bytes of a function of the position. -/
def ofBytes (n : Nat) (f : Nat → UInt8) : Content where
  size := n
  byte i := if i < n then f i else 0
  zero _ hi := if_neg (Nat.not_lt.2 hi)

/-- No bytes. -/
def empty : Content := ofBytes 0 fun _ => 0

/-- A list of bytes laid over a function of the position. -/
def overlay (f : Nat → UInt8) (off : Nat) (data : List UInt8) (i : Nat) : UInt8 :=
  if off ≤ i ∧ i < off + data.length then data.getD (i - off) 0 else f i

/-- Cut or extend with zeros. -/
def truncate (c : Content) (n : Nat) : Content := ofBytes n c.byte

/-- Write at an offset; writing nothing does not extend the file. -/
def write (c : Content) (off : Nat) (data : List UInt8) : Content :=
  if data = [] then c else ofBytes (max c.size (off + data.length)) (overlay c.byte off data)

/-- Read at an offset, no further than the end. -/
def read (c : Content) (off len : Nat) : List UInt8 :=
  (List.range (min len (c.size - off))).map fun i => c.byte (off + i)

variable {n m off : Nat} {f g : Nat → UInt8} {data : List UInt8}

@[simp]
lemma ofBytes_size : (ofBytes n f).size = n := rfl

lemma ofBytes_byte {i : Nat} (hi : i < n) : (ofBytes n f).byte i = f i := if_pos hi

/-- Only the bytes before the size count. -/
lemma ofBytes_congr (h : ∀ i < n, f i = g i) : ofBytes n f = ofBytes n g := by
  refine Content.ext rfl (funext fun i => ?_)
  simp only [ofBytes]
  split
  · exact h i ‹_›
  · rfl

lemma overlay_nil : overlay f off [] = f := by
  funext i
  have hnot : ¬(off ≤ i ∧ i < off + ([] : List UInt8).length) := by
    simp only [length_nil]
    omega
  exact if_neg hnot

/-- Two lists one after the other. -/
lemma overlay_append (data' : List UInt8) :
    overlay f off (data ++ data') = overlay (overlay f off data) (off + data.length) data' := by
  funext i
  simp only [overlay, length_append]
  by_cases hl : off + data.length ≤ i ∧ i < off + data.length + data'.length
  · have hin : off ≤ i ∧ i < off + (data.length + data'.length) := by omega
    rw [if_pos hin, if_pos hl, getD_append_right _ _ _ _ (by omega)]
    congr 1
    omega
  rw [if_neg hl]
  by_cases hfst : off ≤ i ∧ i < off + data.length
  · have hin : off ≤ i ∧ i < off + (data.length + data'.length) := by omega
    rw [if_pos hin, if_pos hfst, getD_append _ _ _ _ (by omega)]
  · have hout : ¬(off ≤ i ∧ i < off + (data.length + data'.length)) := by omega
    rw [if_neg hout, if_neg hfst]

/-- A store whose bytes from the old size up to the new one are zero is truncated by changing its
size. -/
lemma truncate_ofBytes (h : ∀ i, n ≤ i → i < m → f i = 0) : (ofBytes n f).truncate m = ofBytes m f := by
  refine ofBytes_congr fun i hi => ?_
  by_cases hn : i < n
  · exact ofBytes_byte hn
  · rw [h i (Nat.le_of_not_lt hn) hi]
    exact if_neg hn

/-- A store whose bytes between the end and the offset are zero is written by changing the bytes
written. -/
lemma write_ofBytes (hd : data ≠ []) (h : ∀ i, n ≤ i → i < off → f i = 0) :
    (ofBytes n f).write off data = ofBytes (max n (off + data.length)) (overlay f off data) := by
  unfold write
  rw [if_neg hd]
  refine ofBytes_congr fun i hi => ?_
  unfold overlay
  split
  · rfl
  next hout =>
  simp only [ofBytes_size] at hi
  by_cases hn : i < n
  · exact ofBytes_byte hn
  · rw [h i (Nat.le_of_not_lt hn) (by omega)]
    exact if_neg hn

/-- Reading a store. -/
lemma read_ofBytes {len : Nat} :
    (ofBytes n f).read off len = (range (min len (n - off))).map fun i => f (off + i) := by
  refine map_congr_left fun i hi => ofBytes_byte ?_
  have hlt := mem_range.1 hi
  simp only [ofBytes_size] at hlt
  omega

end Content

end OS01.Lib
