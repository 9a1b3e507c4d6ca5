import Mathlib.Data.List.Infix

/-!
# The framer of PS/2 scan sequences

`kernel/driver/input_ps2.c` cuts the byte stream of the keyboard into scan sequences. Its state is a phase, a
count, a token and a checksum; the bytes themselves and the epoch of the first one are kept in a frame of the
caller, which the token and the checksum guard.

A scan sequence is one of those of `Complete`. The framer collects a beginning of one (`FramePhase.seen`), and
`feed_spec` says what a byte does to it: it completes a sequence, whose bytes and first epoch the frame then
holds, or extends the beginning, or is dropped with it. With one frame for all bytes, which is how the route
calls it, the guard never fails.
-/

namespace OS01.Driver

open Function List

/-- The phases: what has been consumed of a sequence. -/
inductive FramePhase
  | idle | e0 | psMake | psMakeE0 | psBreak | psBreakE0 | pause1D | pause45 | pauseE1 | pause9D | pauseC5
  deriving DecidableEq, Repr

/-- `input_ps2_frame_state_t`. -/
structure FrameState where
  phase : FramePhase
  length : Nat
  token : UInt8
  check : UInt8

/-- `input_ps2_frame_t`. -/
structure Frame where
  bytes : Nat → UInt8
  length : Nat
  physicalKey : Nat
  isMake : Bool
  isSpecial : Bool
  startEpoch : Nat
  token : UInt8

/-- The results of `input_ps2_frame_feed`: 1, 0, `-EINVAL` and `-EILSEQ`. -/
inductive FeedResult
  | complete | more | einval | eilseq
  deriving DecidableEq, Repr

def PS2_E0 : UInt8 := 0xE0
def PS2_E1 : UInt8 := 0xE1
def PS2_PS_MAKE_TAIL : UInt8 := 0x37
def PS2_PS_BREAK_TAIL : UInt8 := 0xAA
def PS2_PAUSE_CTRL : UInt8 := 0x1D
def PS2_PAUSE_KEY : UInt8 := 0x45
def PS2_PAUSE_TAIL_1 : UInt8 := 0x9D
def PS2_PAUSE_TAIL_2 : UInt8 := 0xC5
def PS2_KEY_E0 : Nat := 0x100
def PS2_FRAME_MAX_BYTES : Nat := 6

/-- The bytes of a frame. -/
def Frame.payload (out : Frame) : List UInt8 := (List.range out.length).map out.bytes

/-- The key of a code, with or without the prefix `E0`. -/
def keyOf (byte : UInt8) (extended : Bool) : Nat :=
  let code := (byte &&& 0x7F).toNat
  if extended then PS2_KEY_E0 ||| code else code

/-- `frame_ordinary`. -/
def frameOrdinary (out : Frame) (byte : UInt8) (extended : Bool) : Frame :=
  { out with physicalKey := keyOf byte extended, isMake := byte &&& 0x80 == 0, isSpecial := false }

/-- `frame_special`. -/
def frameSpecial (out : Frame) (isMake : Bool) : Frame :=
  { out with physicalKey := 0, isMake, isSpecial := true }

variable (st : FrameState)

/-- `frame_drop`. -/
def frameDrop (out : Frame) (err : FeedResult) : FeedResult × FrameState × Frame :=
  (err, { st with phase := .idle, length := 0, check := 0 }, { out with length := 0 })

/-- `frame_check_step`. -/
def frameCheckStep (check byte : UInt8) : UInt8 := check * 33 + byte + 1

/-- `frame_check`. -/
def frameCheck (bytes : Nat → UInt8) : Nat → UInt8
  | 0 => 0
  | n + 1 => frameCheckStep (frameCheck bytes n) (bytes n)

/-- `input_ps2_frame_reset`. -/
def frameReset : FrameState := { st with phase := .idle, length := 0, check := 0 }

/-- The first part of `input_ps2_frame_feed`: a sequence starts in this frame, or goes on in the frame it
started in; `none` for another frame. -/
def frameOpen (epoch : Nat) (out : Frame) : Option (FrameState × Frame) :=
  if st.phase = .idle then
    let token := st.token + 1
    some ({ st with length := 0, check := 0, token }, { out with length := 0, startEpoch := epoch, token })
  else if out.token ≠ st.token ∨ frameCheck out.bytes st.length ≠ st.check then none
  else some (st, out)

/-- The sequence goes on. -/
def frameMore (out : Frame) (phase : FramePhase) : FeedResult × FrameState × Frame :=
  (.more, { st with phase }, out)

/-- The sequence is complete. -/
def frameDone (out : Frame) : FeedResult × FrameState × Frame :=
  (.complete, { st with phase := .idle }, { out with length := st.length })

/-- The expected byte leads on, any other is not of a sequence. -/
def frameExpect (out : Frame) (byte expected : UInt8) (phase : FramePhase) :
    FeedResult × FrameState × Frame :=
  if byte ≠ expected then frameDrop st out .eilseq else frameMore st out phase

/-- The expected byte ends a special sequence, any other is not of one. -/
def frameExpectLast (out : Frame) (byte expected : UInt8) (isMake : Bool) :
    FeedResult × FrameState × Frame :=
  if byte ≠ expected then frameDrop st out .eilseq else frameDone st (frameSpecial out isMake)

/-- The `switch` of `input_ps2_frame_feed`. -/
def frameDispatch (byte : UInt8) (out : Frame) : FeedResult × FrameState × Frame :=
  match st.phase with
  | .idle =>
    if byte = PS2_E0 then frameMore st out .e0
    else if byte = PS2_E1 then frameMore st out .pause1D
    else frameDone st (frameOrdinary out byte false)
  | .e0 =>
    if byte = 0x2A then frameMore st out .psMake
    else if byte = 0xB7 then frameMore st out .psBreak
    else if byte = PS2_E0 ∨ byte = PS2_E1 then frameDrop st out .eilseq
    else frameDone st (frameOrdinary out byte true)
  | .psMake => frameExpect st out byte PS2_E0 .psMakeE0
  | .psMakeE0 => frameExpectLast st out byte PS2_PS_MAKE_TAIL true
  | .psBreak => frameExpect st out byte PS2_E0 .psBreakE0
  | .psBreakE0 => frameExpectLast st out byte PS2_PS_BREAK_TAIL false
  | .pause1D => frameExpect st out byte PS2_PAUSE_CTRL .pause45
  | .pause45 => frameExpect st out byte PS2_PAUSE_KEY .pauseE1
  | .pauseE1 => frameExpect st out byte PS2_E1 .pause9D
  | .pause9D => frameExpect st out byte PS2_PAUSE_TAIL_1 .pauseC5
  | .pauseC5 => frameExpectLast st out byte PS2_PAUSE_TAIL_2 true

/-- `input_ps2_frame_feed`. -/
def frameFeed (byte : UInt8) (epoch : Nat) (out : Frame) :
    FeedResult × FrameState × Frame :=
  match frameOpen st epoch out with
  | none => frameDrop st out .einval
  | some (st, out) =>
    if PS2_FRAME_MAX_BYTES ≤ st.length then frameDrop st out .eilseq
    else
      frameDispatch { st with check := frameCheckStep st.check byte, length := st.length + 1 } byte
        { out with bytes := Function.update out.bytes st.length byte }

/-! ## Scan sequences -/

/-- The scan sequences: a code, a code with the prefix `E0`, PrintScreen down and up, and Pause. -/
inductive Complete : List UInt8 → Prop
  | code (b : UInt8) (h : b ≠ PS2_E0 ∧ b ≠ PS2_E1) : Complete [b]
  | extended (b : UInt8) (h : (b ≠ 0x2A ∧ b ≠ 0xB7) ∧ b ≠ PS2_E0 ∧ b ≠ PS2_E1) : Complete [PS2_E0, b]
  | printScreenDown : Complete [PS2_E0, 0x2A, PS2_E0, PS2_PS_MAKE_TAIL]
  | printScreenUp : Complete [PS2_E0, 0xB7, PS2_E0, PS2_PS_BREAK_TAIL]
  | pause : Complete [PS2_E1, PS2_PAUSE_CTRL, PS2_PAUSE_KEY, PS2_E1, PS2_PAUSE_TAIL_1, PS2_PAUSE_TAIL_2]

/-- What has been consumed in a phase. -/
def FramePhase.seen : FramePhase → List UInt8
  | .idle => []
  | .e0 => [PS2_E0]
  | .psMake => [PS2_E0, 0x2A]
  | .psMakeE0 => [PS2_E0, 0x2A, PS2_E0]
  | .psBreak => [PS2_E0, 0xB7]
  | .psBreakE0 => [PS2_E0, 0xB7, PS2_E0]
  | .pause1D => [PS2_E1]
  | .pause45 => [PS2_E1, PS2_PAUSE_CTRL]
  | .pauseE1 => [PS2_E1, PS2_PAUSE_CTRL, PS2_PAUSE_KEY]
  | .pause9D => [PS2_E1, PS2_PAUSE_CTRL, PS2_PAUSE_KEY, PS2_E1]
  | .pauseC5 => [PS2_E1, PS2_PAUSE_CTRL, PS2_PAUSE_KEY, PS2_E1, PS2_PAUSE_TAIL_1]

/-- The key of a sequence, where it has one. -/
def keyOfSequence : List UInt8 → Option Nat
  | [b] => some (keyOf b false)
  | [_, b] => some (keyOf b true)
  | _ => none

/-- The frame holds what the framer has consumed. -/
structure Tracks (st : FrameState) (out : Frame) : Prop where
  token : st.phase ≠ .idle → out.token = st.token
  check : st.phase ≠ .idle → frameCheck out.bytes st.length = st.check
  bytes : st.phase ≠ .idle → (List.range st.length).map out.bytes = st.phase.seen

lemma frameCheck_congr {f g : Nat → UInt8} {n : Nat} (h : ∀ i < n, f i = g i) :
    frameCheck f n = frameCheck g n := by
  induction n with
  | zero => rfl
  | succ n ih => rw [frameCheck, frameCheck, ih fun i hi => h i (by omega), h n (by omega)]

/-- The frame after another byte. -/
lemma map_range_update (f : Nat → UInt8) (n : Nat) (b : UInt8) :
    (range (n + 1)).map (update f n b) = (range n).map f ++ [b] := by
  rw [range_succ, map_append, map_singleton, update_self]
  congr 1
  refine map_congr_left fun i hi => update_of_ne ?_ b f
  exact (mem_range.1 hi).ne

/-- What a byte does. -/
inductive Fed (st : FrameState) (byte : UInt8) (epoch : Nat) (out : Frame) :
    FeedResult × FrameState × Frame → Prop
  | complete (st' : FrameState) (out' : Frame) (hseq : Complete (st.phase.seen ++ [byte]))
      (hidle : st'.phase = .idle) (hbytes : out'.payload = st.phase.seen ++ [byte])
      (hstart : out'.startEpoch = if st.phase = .idle then epoch else out.startEpoch)
      (hspecial : out'.isSpecial = (keyOfSequence (st.phase.seen ++ [byte])).isNone)
      (hkey : ∀ key, keyOfSequence (st.phase.seen ++ [byte]) = some key → out'.physicalKey = key)
      (hmake : out'.isSpecial = false → out'.isMake = (byte &&& 0x80 == 0)) :
      Fed st byte epoch out (.complete, st', out')
  | more (st' : FrameState) (out' : Frame) (htracks : Tracks st' out')
      (hseen : st'.phase.seen = st.phase.seen ++ [byte]) (hbusy : st'.phase ≠ .idle)
      (hstart : out'.startEpoch = if st.phase = .idle then epoch else out.startEpoch) :
      Fed st byte epoch out (.more, st', out')
  | dropped (st' : FrameState) (out' : Frame) (hidle : st'.phase = .idle)
      (hseq : ∀ rest, ¬ Complete (st.phase.seen ++ [byte] ++ rest)) :
      Fed st byte epoch out (.eilseq, st', out')

/-- The state and the frame that the switch is given. -/
structure Opened (st : FrameState) (byte : UInt8) (epoch : Nat) (out : Frame) (st₁ : FrameState)
    (out₁ : Frame) : Prop where
  phase : st₁.phase = st.phase
  token : out₁.token = st₁.token
  check : frameCheck out₁.bytes st₁.length = st₁.check
  bytes : (List.range st₁.length).map out₁.bytes = st.phase.seen ++ [byte]
  start : out₁.startEpoch = if st.phase = .idle then epoch else out.startEpoch

variable {st st₁ : FrameState} {byte : UInt8} {epoch : Nat} {out out₁ : Frame}

lemma Opened.drop (_ : Opened st byte epoch out st₁ out₁)
    (hseq : ∀ rest, ¬ Complete (st.phase.seen ++ [byte] ++ rest)) :
    Fed st byte epoch out (frameDrop st₁ out₁ .eilseq) := .dropped _ _ rfl hseq

/-- A prefix byte does not follow a prefix byte. -/
lemma not_complete_prefixes {b : UInt8} (h : b = PS2_E0 ∨ b = PS2_E1) (rest : List UInt8) :
    ¬ Complete (FramePhase.e0.seen ++ [b] ++ rest) := by
  intro hc
  generalize hl : FramePhase.e0.seen ++ [b] ++ rest = l at hc
  cases hc with
  | code c hne => simp [FramePhase.seen] at hl
  | extended c hne =>
    simp only [FramePhase.seen, cons_append, nil_append, cons.injEq, true_and] at hl
    rw [← hl.1] at hne
    obtain rfl | rfl := h
    · exact hne.2.1 rfl
    · exact hne.2.2 rfl
  | printScreenDown | printScreenUp =>
    simp only [FramePhase.seen, cons_append, nil_append, cons.injEq, true_and] at hl
    rw [hl.1] at h
    revert h
    decide
  | pause =>
    have hne : PS2_E0 ≠ PS2_E1 := by decide
    simp [FramePhase.seen, hne] at hl

/-- The byte that a phase waits for, where only one will do. -/
def FramePhase.expected : FramePhase → Option UInt8
  | .idle | .e0 => none
  | .psMake | .psBreak => some PS2_E0
  | .psMakeE0 => some PS2_PS_MAKE_TAIL
  | .psBreakE0 => some PS2_PS_BREAK_TAIL
  | .pause1D => some PS2_PAUSE_CTRL
  | .pause45 => some PS2_PAUSE_KEY
  | .pauseE1 => some PS2_E1
  | .pause9D => some PS2_PAUSE_TAIL_1
  | .pauseC5 => some PS2_PAUSE_TAIL_2

/-- The sequences that are longer than two bytes, and the only one that starts with `E1`. -/
lemma Complete.eq_of_special {l : List UInt8} (h : Complete l) (hl : 3 ≤ l.length ∨ l.head? = some PS2_E1) :
    l = [PS2_E0, 0x2A, PS2_E0, PS2_PS_MAKE_TAIL] ∨ l = [PS2_E0, 0xB7, PS2_E0, PS2_PS_BREAK_TAIL] ∨
      l = [PS2_E1, PS2_PAUSE_CTRL, PS2_PAUSE_KEY, PS2_E1, PS2_PAUSE_TAIL_1, PS2_PAUSE_TAIL_2] := by
  cases h with
  | code b hb =>
    obtain hl | hl := hl
    · simp at hl
    · exact absurd (Option.some.inj hl) hb.2
  | extended b hb =>
    obtain hl | hl := hl
    · simp at hl
    · exact absurd (Option.some.inj hl) (by decide)
  | printScreenDown => exact .inl rfl
  | printScreenUp => exact .inr (.inl rfl)
  | pause => exact .inr (.inr rfl)

/-- In a phase that waits for one byte no other leads to a sequence. -/
lemma not_complete_of_expected {p : FramePhase} {x b : UInt8} (hx : p.expected = some x) (hb : b ≠ x)
    (rest : List UInt8) : ¬ Complete (p.seen ++ [b] ++ rest) := by
  intro hc
  have hl : 3 ≤ (p.seen ++ [b] ++ rest).length ∨ (p.seen ++ [b] ++ rest).head? = some PS2_E1 := by
    cases p with
    | idle | e0 => cases hx
    | pause1D => exact .inr rfl
    | _ => exact .inl (by simp only [FramePhase.seen, length_append, length_cons]; omega)
  have hcs := hc.eq_of_special hl
  cases p <;> cases hx <;>
    simp [FramePhase.seen, PS2_E0, PS2_E1] at hcs <;> exact hb hcs.1

section

variable (h : Opened st byte epoch out st₁ out₁)
include h

lemma Opened.more {phase : FramePhase} (hb : phase ≠ .idle)
    (hs : phase.seen = st.phase.seen ++ [byte]) : Fed st byte epoch out (frameMore st₁ out₁ phase) :=
  .more _ _ ⟨fun _ => h.token, fun _ => h.check, fun _ => h.bytes.trans hs.symm⟩ hs hb h.start

lemma Opened.ordinary {extended : Bool}
    (hseq : Complete (st.phase.seen ++ [byte]))
    (hkey : keyOfSequence (st.phase.seen ++ [byte]) = some (keyOf byte extended)) :
    Fed st byte epoch out (frameDone st₁ (frameOrdinary out₁ byte extended)) := by
  refine .complete _ _ hseq rfl h.bytes h.start ?_ ?_ fun _ => rfl
  · rw [hkey]
    rfl
  · intro key hk
    rw [hkey, Option.some.injEq] at hk
    exact hk

lemma Opened.special {isMake : Bool}
    (hseq : Complete (st.phase.seen ++ [byte])) (hkey : keyOfSequence (st.phase.seen ++ [byte]) = none) :
    Fed st byte epoch out (frameDone st₁ (frameSpecial out₁ isMake)) := by
  refine .complete _ _ hseq rfl h.bytes h.start ?_ ?_ ?_
  · rw [hkey]
    rfl
  · intro key hk
    rw [hkey] at hk
    cases hk
  · intro hfalse
    cases hfalse

/-- **The switch.** -/
lemma Opened.dispatch :
    Fed st byte epoch out (frameDispatch st₁ byte out₁) := by
  rw [frameDispatch, h.phase]
  have expect : ∀ {x : UInt8} {phase : FramePhase}, st.phase.expected = some x → phase ≠ .idle →
      phase.seen = st.phase.seen ++ [x] → Fed st byte epoch out (frameExpect st₁ out₁ byte x phase) := by
    intro x phase hx hbs hs
    rw [frameExpect]
    split_ifs with hb
    · exact h.drop (not_complete_of_expected hx hb)
    · obtain rfl := not_not.1 hb
      exact h.more hbs hs
  have expectLast : ∀ {x : UInt8} {isMake : Bool}, st.phase.expected = some x →
      Complete (st.phase.seen ++ [x]) → keyOfSequence (st.phase.seen ++ [x]) = none →
      Fed st byte epoch out (frameExpectLast st₁ out₁ byte x isMake) := by
    intro x isMake hx hseq hkey
    rw [frameExpectLast]
    split_ifs with hb
    · exact h.drop (not_complete_of_expected hx hb)
    · obtain rfl := not_not.1 hb
      exact h.special hseq hkey
  cases hp : st.phase with
  | idle =>
    dsimp only
    split_ifs with h0 h1
    · subst h0
      exact h.more (by decide) (by rw [hp]; rfl)
    · subst h1
      exact h.more (by decide) (by rw [hp]; rfl)
    · refine h.ordinary ?_ ?_
      · rw [hp]
        exact .code byte ⟨h0, h1⟩
      · rw [hp]
        rfl
  | e0 =>
    dsimp only
    split_ifs with hA hB hE
    · subst hA
      exact h.more (by decide) (by rw [hp]; rfl)
    · subst hB
      exact h.more (by decide) (by rw [hp]; rfl)
    · exact h.drop fun rest => by rw [hp]; exact not_complete_prefixes hE rest
    · refine h.ordinary ?_ ?_
      · rw [hp]
        exact .extended byte ⟨⟨hA, hB⟩, not_or.1 hE⟩
      · rw [hp]
        rfl
  | psMakeE0 => exact expectLast (by rw [hp]; rfl) (by rw [hp]; exact .printScreenDown) (by rw [hp]; rfl)
  | psBreakE0 => exact expectLast (by rw [hp]; rfl) (by rw [hp]; exact .printScreenUp) (by rw [hp]; rfl)
  | pauseC5 => exact expectLast (by rw [hp]; rfl) (by rw [hp]; exact .pause) (by rw [hp]; rfl)
  | _ => exact expect (by rw [hp]; rfl) (by decide) (by rw [hp]; rfl)

end

/-- No phase has seen a whole sequence. -/
lemma FramePhase.length_seen_lt (p : FramePhase) : p.seen.length < PS2_FRAME_MAX_BYTES := by
  cases p <;> decide

/-- **One byte.** -/
theorem feed_spec (h : Tracks st out) (byte : UInt8) (epoch : Nat) :
    Fed st byte epoch out (frameFeed st byte epoch out) := by
  have ho : ∃ st0 out0, frameOpen st epoch out = some (st0, out0) ∧ st0.phase = st.phase ∧
      out0.token = st0.token ∧ frameCheck out0.bytes st0.length = st0.check ∧
      (range st0.length).map out0.bytes = st.phase.seen ∧
      out0.startEpoch = if st.phase = .idle then epoch else out.startEpoch := by
    rw [frameOpen]
    by_cases hid : st.phase = .idle
    · rw [hid]
      exact ⟨_, _, rfl, rfl, rfl, rfl, rfl, rfl⟩
    · have hok : ¬ (out.token ≠ st.token ∨ frameCheck out.bytes st.length ≠ st.check) := by
        rw [not_or]
        exact ⟨not_not_intro (h.token hid), not_not_intro (h.check hid)⟩
      rw [if_neg hid, if_neg hok, if_neg hid]
      exact ⟨_, _, rfl, rfl, h.token hid, h.check hid, h.bytes hid, rfl⟩
  obtain ⟨st0, out0, ho, hph, htok, hchk, hby, hst⟩ := ho
  have hlen : st0.length < PS2_FRAME_MAX_BYTES := by
    have hl := congrArg length hby
    rw [length_map, length_range] at hl
    rw [hl]
    exact st.phase.length_seen_lt
  rw [frameFeed, ho]
  dsimp only
  rw [if_neg (by omega)]
  refine Opened.dispatch ⟨hph, htok, ?_, ?_, hst⟩
  · dsimp only
    rw [frameCheck, update_self, ← hchk]
    congr 1
    exact frameCheck_congr fun i hi => update_of_ne hi.ne _ _
  · rw [← hby]
    exact map_range_update out0.bytes st0.length byte

end OS01.Driver
