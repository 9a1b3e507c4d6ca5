import OS01.Lib.Ring
import OS01.Lib.Run

/-!
# The console terminal

The input side of `kernel/tty/tty.c` with the line discipline of `kernel/tty/canon.c`. Bytes go from
`tty_push_input` into a ring; a canonical read moves them on into a line buffer and hands out at most
one line, a raw read takes them from the ring.

`tty_poll` looks at the ring only. `poll_agrees_iff` says in which states its answer is that of a read:
always in raw mode, and in canonical mode when the ring is empty just if no line is within reach.

A read stages bytes in one section of `ring_lock` and gives them up in a second one. A `Console` is a
terminal with readers that stand between the two. As long as a reader stages only while nobody else does,
and raw reads and overlong lines do not meet the line buffer (`Orderly`), what was delivered and what is
pending are together what was accepted (`console_stream`).
-/

namespace OS01.TtyInput

open Nat List Lib Ring

/-- Slots of the ring. -/
def TTY_BUF_SIZE : Nat := 256

/-- Bytes of the line buffer. -/
def CANON_BUF_SIZE : Nat := 256

/-- The byte that ends a line. -/
def newline : UInt8 := 10

/-- What the input side reads of `struct termios`. -/
structure Termios where
  isig : Bool
  icanon : Bool
  vintr : UInt8
  vquit : UInt8
  vsusp : UInt8

/-- `tty_t`; the line buffer is its filled part. -/
structure Tty where
  ring : Ring UInt8 TTY_BUF_SIZE
  canon : List UInt8
  term : Termios

/-- `tty_alloc`. -/
def ttyAlloc : Tty where
  ring := ⟨fun _ => 0, 0, 0, by decide, by decide⟩
  canon := []
  term := ⟨true, false, 3, 28, 0⟩

/-- Whether a byte is a special character that is not disabled; `char` is signed. -/
def isSpecial (c v : UInt8) : Bool := v != 0 && c == v && decide (c < 128)

variable (tty : Tty)

/-- Whether a byte is queued: signal characters are not, and nothing is while the ring is full. -/
def accepts (c : UInt8) : Bool :=
  !(tty.term.isig && [tty.term.vintr, tty.term.vquit, tty.term.vsusp].any (isSpecial c)) &&
    !tty.ring.full

/-- `tty_push_input`. -/
def ttyPushInput (c : UInt8) : Tty :=
  if accepts tty c then { tty with ring := tty.ring.push c } else tty

/-- The loop of `canon_accumulate`, with `room` places left in the line buffer. -/
def accumulate : Nat → List UInt8 → Ring UInt8 TTY_BUF_SIZE → List UInt8 × Ring UInt8 TTY_BUF_SIZE
  | 0, canon, ring => (canon, ring)
  | room + 1, canon, ring =>
    if ring.empty then (canon, ring)
    else
      let c := ring.buf ring.tail
      if c = newline then (canon ++ [c], ring.drop 1)
      else accumulate room (canon ++ [c]) (ring.drop 1)

/-- `canon_accumulate`. -/
def canonAccumulate : Tty :=
  let (canon, ring) := accumulate (CANON_BUF_SIZE - tty.canon.length) tty.canon tty.ring
  { tty with canon, ring }

/-- The first section of `tty_read`: the bytes it stages. -/
def stage (size : Nat) : List UInt8 × Tty :=
  if tty.term.icanon then
    let tty := canonAccumulate tty
    let i := tty.canon.findIdx (· == newline)
    (if i < tty.canon.length then tty.canon.take (min (i + 1) size) else [], tty)
  else (tty.ring.peek (min tty.ring.avail size), tty)

/-- The second section of `tty_read`, which gives up what was staged. -/
def commit (canonical : Bool) (n : Nat) : Tty :=
  if canonical then { tty with canon := tty.canon.drop n }
  else { tty with ring := tty.ring.drop n }

/-- A nonblocking `tty_read`: the bytes it returns. -/
def ttyRead (size : Nat) : List UInt8 × Tty :=
  if size = 0 then ([], tty)
  else
    let (bytes, tty') := stage tty size
    (bytes, commit tty' tty.term.icanon bytes.length)

def POLLIN : Nat := 0x001
def POLLOUT : Nat := 0x004
def POLLRDNORM : Nat := 0x040
def POLLWRNORM : Nat := 0x100

/-- `tty_poll`. -/
def ttyPoll : Nat :=
  POLLOUT ||| POLLWRNORM ||| if tty.ring.empty then 0 else POLLIN ||| POLLRDNORM

/-- What was accepted and not delivered. -/
def Tty.pending : List UInt8 := tty.canon ++ tty.ring.contents

/-- What the next canonical read has in the line buffer, as far as there is room. -/
def Tty.reach : List UInt8 :=
  tty.canon ++ tty.ring.contents.take (CANON_BUF_SIZE - tty.canon.length)

/-- The bytes up to the first newline. -/
def oldestLine (l : List UInt8) : List UInt8 := l.take (l.findIdx (· == newline) + 1)

/-! ## The line buffer -/

section line

variable {ring : Ring UInt8 TTY_BUF_SIZE} {tty : Tty} {size : Nat}

lemma contents_of_not_empty (h : ¬ring.empty = true) :
    1 ≤ ring.avail ∧ ring.contents = ring.buf ring.tail :: ring.contents.drop 1 := by
  rw [empty_iff] at h
  have hpos : 0 < ring.contents.length := length_pos_iff.2 h
  refine ⟨by rwa [length_contents] at hpos, ?_⟩
  have hhd : ring.contents[0] = ring.buf ring.tail := by
    rw [getElem_contents, Nat.add_zero, mod_eq_of_lt ring.tail_lt]
  rw [← hhd, getElem_cons_drop, drop_zero]

/-- The loop moves some of the oldest bytes, and a newline if there is one within the room. -/
lemma accumulate_spec (room : Nat) (canon : List UInt8) (ring : Ring UInt8 TTY_BUF_SIZE) :
    ∃ k ≤ room, (accumulate room canon ring).1 = canon ++ ring.contents.take k ∧
      (accumulate room canon ring).2.contents = ring.contents.drop k ∧
      (newline ∈ ring.contents.take room → newline ∈ ring.contents.take k) := by
  induction room generalizing canon ring with
  | zero => exact ⟨0, Nat.le_refl 0, by simp [accumulate], by simp [accumulate], id⟩
  | succ room ih =>
    unfold accumulate
    dsimp only
    split_ifs with hemp hc
    · rw [empty_iff] at hemp
      exact ⟨0, zero_le _, by simp, by simp, by simp [hemp]⟩
    · obtain ⟨hpos, hcn⟩ := contents_of_not_empty hemp
      rw [hcn]
      exact ⟨1, by omega, by simp, by rw [contents_drop hpos]; simp, fun _ => by simp [hc]⟩
    obtain ⟨hpos, hcn⟩ := contents_of_not_empty hemp
    obtain ⟨k, hk, hcan, hr, hnl⟩ := ih (canon ++ [ring.buf ring.tail]) (ring.drop 1)
    rw [contents_drop hpos] at hcan hr hnl
    refine ⟨k + 1, by omega, ?_, ?_, ?_⟩
    · rw [hcan, hcn]
      simp
    · rw [hr]
      simp
    · rw [hcn, take_succ_cons, take_succ_cons, mem_cons, mem_cons]
      exact Or.imp_right hnl

/-- **Accumulating** loses no byte and brings the newline that is in reach into the buffer. -/
lemma canonAccumulate_spec (tty : Tty) :
    (canonAccumulate tty).pending = tty.pending ∧ (canonAccumulate tty).canon <+: tty.reach ∧
      (newline ∈ tty.reach → newline ∈ (canonAccumulate tty).canon) := by
  obtain ⟨k, hk, hcan, hr, hnl⟩ := accumulate_spec (CANON_BUF_SIZE - tty.canon.length) tty.canon tty.ring
  refine ⟨?_, ?_, fun h => ?_⟩
  · simp only [Tty.pending, canonAccumulate]
    rw [hcan, hr, append_assoc, take_append_drop]
  · simp only [canonAccumulate, Tty.reach]
    rw [hcan, prefix_append_right_inj]
    exact take_prefix_take_left hk
  · simp only [canonAccumulate]
    rw [hcan, mem_append]
    exact (mem_append.1 h).imp_right hnl

lemma findIdx_newline_lt {l : List UInt8} : l.findIdx (· == newline) < l.length ↔ newline ∈ l := by
  simp [findIdx_lt_length]

/-- **A canonical read** stages the front of the oldest line, if that is in reach, and else nothing. -/
lemma stage_canonical (h : tty.term.icanon = true) (size : Nat) : (stage tty size).2 = canonAccumulate tty ∧
      (newline ∈ tty.reach → (stage tty size).1 = (oldestLine tty.pending).take size ∧
        (stage tty size).1 <+: (canonAccumulate tty).canon) ∧
      (newline ∉ tty.reach → (stage tty size).1 = []) := by
  obtain ⟨hp, hpre, hnl⟩ := canonAccumulate_spec tty
  simp only [stage, h, if_true, true_and]
  refine ⟨fun hin => ?_, fun hout => if_neg fun hlt => hout ?_⟩
  · have hlt := findIdx_newline_lt.2 (hnl hin)
    rw [if_pos hlt]
    refine ⟨?_, take_prefix ..⟩
    rw [oldestLine, ← hp, Tty.pending, findIdx_append, if_pos hlt, take_take,
      take_append_of_le_length (by omega), Nat.min_comm]
  · exact hpre.subset (findIdx_newline_lt.1 hlt)

/-- **A raw read** stages the oldest bytes of the ring. -/
lemma stage_raw (h : tty.term.icanon = false) (size : Nat) :
    stage tty size = (tty.ring.contents.take size, tty) := by
  simp only [stage, h, Bool.false_eq_true, if_false]
  rw [peek_eq (Nat.min_le_left ..), ← length_contents, Nat.min_comm, ← take_eq_take_min]

end line

/-! ## Readiness -/

lemma ttyPoll_pollin : ttyPoll tty &&& POLLIN ≠ 0 ↔ tty.ring.contents ≠ [] := by
  rw [ne_eq, ne_eq, ← empty_iff]
  unfold ttyPoll
  cases tty.ring.empty <;> decide

lemma ttyRead_pos {size : Nat} (hs : 0 < size) : 0 < (ttyRead tty size).1.length ↔
      if tty.term.icanon then newline ∈ tty.reach else tty.ring.contents ≠ [] := by
  rw [ttyRead, if_neg (Nat.ne_of_gt hs), length_pos_iff]
  cases hm : tty.term.icanon
  · rw [stage_raw hm]
    simp [Nat.ne_of_gt hs]
  obtain ⟨-, hin, hout⟩ := stage_canonical hm size
  by_cases h : newline ∈ tty.reach
  · simp only [(hin h).1, h, oldestLine]
    have hmem : newline ∈ tty.pending := mem_append.2 ((mem_append.1 h).imp_right mem_of_mem_take)
    simpa [Nat.ne_of_gt hs] using ne_nil_of_mem hmem
  · simp [hout h, h]

/-- **Readiness.** `tty_poll` tells of every size whether a read will return something, just if the
terminal is in raw mode or the ring is empty exactly when no newline is in reach of the line buffer. -/
theorem poll_agrees_iff (tty : Tty) :
    (∀ size, 0 < size → (ttyPoll tty &&& POLLIN ≠ 0 ↔ 0 < (ttyRead tty size).1.length)) ↔
      (tty.term.icanon = true → (tty.ring.contents ≠ [] ↔ newline ∈ tty.reach)) := by
  rw [ttyPoll_pollin]
  constructor
  · intro h hm
    rw [h 1 Nat.one_pos, ttyRead_pos tty Nat.one_pos, if_pos hm]
  · intro h size hs
    rw [ttyRead_pos tty hs]
    split
    · exact h ‹_›
    · exact Iff.rfl

/-- Input typed in canonical mode. -/
def typed (l : List UInt8) : Tty :=
  l.foldl ttyPushInput { ttyAlloc with term := { ttyAlloc.term with icanon := true } }

/-- Half a line is reported and not read; the rest of a line that was read in part is read and not
reported. -/
theorem poll_disagrees_on_lines : (ttyPoll (typed [97]) &&& POLLIN ≠ 0 ∧ (ttyRead (typed [97]) 1).1 = []) ∧
      ttyPoll (ttyRead (typed [97, newline]) 1).2 &&& POLLIN = 0 ∧
      (ttyRead (ttyRead (typed [97, newline]) 1).2 1).1 = [newline] := by
  decide

/-! ## Readers -/

/-- A terminal and the reads that stand between their two sections: what each staged, and whether in
canonical mode. `delivered` is what the reads returned. -/
structure Console where
  tty : Tty := ttyAlloc
  staged : List (Bool × List UInt8) := []
  accepted : List UInt8 := []
  delivered : List (List UInt8) := []

/-- A section of `ring_lock`, or a change of the mode. -/
inductive ConsoleEvent
  | push (c : UInt8)
  | tcsets (term : Termios)
  | stage (size : Nat)
  | commit (i : Nat)

namespace Console

variable {s : Console}

/-- One step; a read that stages nothing returns or tries again. -/
def next (s : Console) : ConsoleEvent → Option Console
  | .push c =>
    some { s with
      tty := ttyPushInput s.tty c
      accepted := if accepts s.tty c then s.accepted ++ [c] else s.accepted }
  | .tcsets term => some { s with tty := { s.tty with term } }
  | .stage size =>
    let (bytes, tty) := stage s.tty size
    let kbuf := if bytes = [] then [] else [(s.tty.term.icanon, bytes)]
    if size = 0 then none else some { s with tty, staged := s.staged ++ kbuf }
  | .commit i =>
    match s.staged[i]? with
    | none => none
    | some (canonical, bytes) =>
      -- `memmove` of what is left is defined only if that is not negative
      if canonical = true ∧ s.tty.canon.length < bytes.length then none
      else
        some { s with
          tty := commit s.tty canonical bytes.length
          staged := s.staged.eraseIdx i
          delivered := s.delivered ++ [bytes] }

/-- A read starts while no other one stands between its sections, in raw mode with nothing in the line
buffer, in canonical mode with the newline, if any, in reach. -/
def Orderly (s : Console) : ConsoleEvent → Prop
  | .stage _ => s.staged = [] ∧
    if s.tty.term.icanon then newline ∈ s.tty.pending → newline ∈ s.tty.reach else s.tty.canon = []
  | _ => True

/-- Nothing is lost or doubled, and what is staged is the front of what the commit will cut. -/
structure Inv (s : Console) : Prop where
  stream : s.delivered.flatten ++ s.tty.pending = s.accepted
  canon : s.tty.canon.length ≤ CANON_BUF_SIZE
  staged : s.staged = [] ∨ ∃ b bytes, s.staged = [(b, bytes)] ∧
    (bytes <+: if b then s.tty.canon else s.tty.ring.contents) ∧ (b = false → s.tty.canon = [])

lemma Inv.push (h : Inv s) (c : UInt8) : ∀ t, s.next (.push c) = some t → Inv t := by
  rintro t ⟨⟩
  unfold ttyPushInput
  split
  · next hacc =>
    obtain ⟨-, hr⟩ := Bool.and_eq_true_iff.1 hacc
    have hc := contents_push (by simpa using hr) c
    refine ⟨?_, h.canon, h.staged.imp_right ?_⟩
    · rw [← h.stream]
      simp [Tty.pending, hc]
    · rintro ⟨b, bytes, hs, hpre, hraw⟩
      refine ⟨b, bytes, hs, hpre.trans ?_, hraw⟩
      cases b <;> simp [hc]
  · exact h

lemma Inv.stage (h : Inv s) {size : Nat} (hok : Orderly s (.stage size)) :
    ∀ t, s.next (.stage size) = some t → Inv t := by
  intro t ht
  obtain ⟨hf, hm⟩ := hok
  simp only [next, hf, nil_append] at ht
  split at ht
  · cases ht
  obtain rfl := Option.some_inj.1 ht
  obtain ⟨hp, hlen, hpre, hraw⟩ : (TtyInput.stage s.tty size).2.pending = s.tty.pending ∧
      (TtyInput.stage s.tty size).2.canon.length ≤ CANON_BUF_SIZE ∧
      ((TtyInput.stage s.tty size).1 <+: if s.tty.term.icanon then (TtyInput.stage s.tty size).2.canon
        else (TtyInput.stage s.tty size).2.ring.contents) ∧
      (s.tty.term.icanon = false → (TtyInput.stage s.tty size).2.canon = []) := by
    cases hi : s.tty.term.icanon
    · rw [hi, if_neg Bool.false_ne_true] at hm
      rw [stage_raw hi]
      exact ⟨rfl, h.canon, take_prefix .., fun _ => hm⟩
    obtain ⟨htty, hin, hout⟩ := stage_canonical hi size
    obtain ⟨hp, hpre, -⟩ := canonAccumulate_spec s.tty
    rw [htty]
    refine ⟨hp, Nat.le_trans hpre.length_le ?_, ?_, nofun⟩
    · have := h.canon
      simp only [Tty.reach, length_append, length_take]
      omega
    · by_cases hnl : newline ∈ s.tty.reach
      · exact (hin hnl).2
      · rw [hout hnl]
        exact nil_prefix
  refine ⟨hp ▸ h.stream, hlen, ?_⟩
  split_ifs
  · exact .inl rfl
  · exact .inr ⟨_, _, rfl, hpre, hraw⟩

lemma Inv.commit (h : Inv s) (i : Nat) : ∀ t, s.next (.commit i) = some t → Inv t := by
  intro t ht
  obtain hs | ⟨b, bytes, hs, ⟨rest, hr⟩, hraw⟩ := h.staged
  · simp [next, hs] at ht
  obtain rfl : i = 0 := by
    by_contra hi
    simp [next, hs, getElem?_eq_none (show [(b, bytes)].length ≤ i by simp; omega)] at ht
  simp only [next, hs, getElem?_cons_zero] at ht
  split_ifs at ht
  cases ht
  have hstream := h.stream
  cases b
  · rw [if_neg Bool.false_ne_true] at hr
    have hlen : bytes.length ≤ s.tty.ring.avail := by
      rw [← length_contents, ← hr, length_append]
      omega
    refine ⟨?_, h.canon, .inl rfl⟩
    simpa [TtyInput.commit, Tty.pending, hraw rfl, contents_drop hlen, ← hr] using hstream
  rw [if_pos rfl] at hr
  have hcan := h.canon
  rw [← hr, length_append] at hcan
  refine ⟨?_, ?_, .inl rfl⟩
  · simpa [TtyInput.commit, Tty.pending, ← hr] using hstream
  · simp only [TtyInput.commit, if_true, ← hr, drop_left]
    omega

/-- **The input stream.** After any orderly run what the reads returned and what is pending are together
the accepted bytes in order, the line buffer keeps to its size, and a canonical read that may start
returns a non-empty front of the oldest line if there is one. -/
theorem console_stream {s : Console} {es : List ConsoleEvent}
    (h : Run (guarded (fun s e t => s.next e = some t) Orderly) {} es s) :
    s.delivered.flatten ++ s.tty.pending = s.accepted ∧ s.tty.canon.length ≤ CANON_BUF_SIZE ∧
      ∀ size, 0 < size → Orderly s (.stage size) → s.tty.term.icanon = true →
        newline ∈ s.tty.pending → (stage s.tty size).1 ≠ [] ∧
          (stage s.tty size).1 <+: oldestLine s.tty.pending := by
  have hinv : Inv s := by
    refine h.invariant (fun s e t hi hst => ?_) ⟨rfl, by decide, .inl rfl⟩
    obtain ⟨hok, ht⟩ := hst
    cases e with
    | push c => exact hi.push c t ht
    | tcsets term =>
      cases ht
      exact ⟨hi.stream, hi.canon, hi.staged⟩
    | stage size => exact hi.stage hok t ht
    | commit i => exact hi.commit i t ht
  refine ⟨hinv.stream, hinv.canon, fun size hs hok hic hnl => ?_⟩
  have hrch := hok.2
  rw [if_pos hic] at hrch
  obtain ⟨-, hin, -⟩ := stage_canonical hic size
  rw [(hin (hrch hnl)).1]
  refine ⟨?_, take_prefix ..⟩
  simpa [oldestLine, Nat.ne_of_gt hs] using ne_nil_of_mem hnl

/-- The theorem where a line and a half are typed in canonical mode and two bytes are read. -/
theorem console_stream_line : ∃ s : Console, s.delivered = [[97, 98]] ∧
    s.delivered.flatten ++ s.tty.pending = s.accepted ∧ (stage s.tty 8).1 ≠ [] ∧
      (stage s.tty 8).1 <+: oldestLine s.tty.pending := by
  have hrun : Run (guarded (fun s e t => next s e = some t) Orderly) {}
      [.tcsets ⟨true, true, 3, 28, 0⟩, .push 97, .push 98, .push 99, .push newline, .push 100, .stage 2, .commit 0] _ :=
    .cons ⟨trivial, rfl⟩ (.cons ⟨trivial, rfl⟩ (.cons ⟨trivial, rfl⟩ (.cons ⟨trivial, rfl⟩ (.cons ⟨trivial, rfl⟩
      (.cons ⟨trivial, rfl⟩ (.cons ⟨⟨rfl, by decide⟩, rfl⟩ (.cons ⟨trivial, rfl⟩ (.nil _))))))))
  obtain ⟨hstream, -, hline⟩ := console_stream hrun
  exact ⟨_, by decide, hstream, hline 8 (by decide) ⟨rfl, by decide⟩ rfl (by decide)⟩

/-- Two readers stage the same byte: it is delivered twice, and the next one never. -/
theorem console_stream_two_readers :
    (([.push 97, .push 98, .stage 1, .stage 1, .commit 0, .commit 0] : List ConsoleEvent).foldlM
      next {}).map (fun s => (s.delivered, s.tty.pending, s.accepted)) =
      some ([[97], [97]], [], [97, 98]) := by
  decide

end Console

end OS01.TtyInput
