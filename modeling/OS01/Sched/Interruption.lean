import OS01.Abi
import OS01.Intr.Signal
import OS01.Sched.RunQueue

/-!
# Waits and signals

The places where a wait asks whether a signal interrupts it: the blocker of a task
(`blocker_wake_locked`, `sched_unblock_blocked` and `blocker_wait` in `kernel/sched/core.c`) and `poll`,
`select` and `pselect6` (`kernel/fs/poll.c` and `kernel/fs/select.c`). They all make the same test,
`signal & ~blocked`, of two words that do not number the signals alike: signal `n` is bit `n` of the pending
word, and bit `n - 1` of the mask. What the delivery acts on (`Acts`) is read off from `deliverSignal`.

A wait reads the words of its task more than once, and what it waits for may happen in between. So what a
callback or a scan of the descriptors answers, and what the words are by then, are inputs of a call.
-/

namespace OS01.Sched

open Lib BitVec Bool
open Intr (Word NSIG SIGKILL SIGSTOP)

/-! ## The pending word -/

/-- `kill`, `task_send_signal` behind it, and `signal_pgrp`: what they do to the pending word of a task. -/
def sendSignal (signal : Word) (sig : Int) : Word :=
  if sig < 1 ∨ NSIG ≤ sig then signal else signal ||| bit64 sig.toNat

/-- The pending word after some signals were sent. -/
def raised (sigs : List Int) : Word := sigs.foldl sendSignal 0

/-- The bits that are set are those of the signals sent. -/
lemma getLsbD_raised (sigs : List Int) (i : Nat) :
    (raised sigs).getLsbD i = true ↔ i ∈ Intr.signals ∧ (i : Int) ∈ sigs := by
  have hstep : ∀ (signal : Word) (sig : Int), (sendSignal signal sig).getLsbD i = true ↔
      signal.getLsbD i = true ∨ i ∈ Intr.signals ∧ (i : Int) = sig := by
    intro signal sig
    have hn : NSIG = 32 := rfl
    rw [sendSignal, Intr.signals, List.mem_range'_1]
    split_ifs with hsig
    · exact ⟨Or.inl, fun h => h.resolve_right (by omega)⟩
    · rw [getLsbD_or, getLsbD_bit64, or_eq_true, decide_eq_true_iff]
      exact or_congr Iff.rfl (by omega)
  have hfold : ∀ signal : Word, (sigs.foldl sendSignal signal).getLsbD i = true ↔
      signal.getLsbD i = true ∨ i ∈ Intr.signals ∧ (i : Int) ∈ sigs := by
    induction sigs with
    | nil => simp
    | cons sig sigs ih =>
      intro signal
      rw [List.foldl_cons, ih, hstep, List.mem_cons]
      tauto
  exact (hfold 0).trans (or_iff_right (by simp))

/-! ## What a delivery acts on -/

variable (t : Intr.Task) {b : Blocker}

/-- Signal `sig` is pending. -/
def Pends (sig : Nat) : Prop := testBit64 t.signal sig = true

/-- Signal `sig` is in the mask. -/
def Blocks (sig : Nat) : Prop := testBit64 t.blocked (sig - 1) = true

/-- The signals that `arch_do_signal_delivery` acts on. -/
def Acts (sig : Nat) : Prop :=
  sig ∈ Intr.signals ∧ Pends t sig ∧ (sig = SIGKILL ∨ sig = SIGSTOP ∨ ¬ Blocks t sig)

instance (t : Intr.Task) (sig : Nat) : Decidable (Acts t sig) :=
  inferInstanceAs (Decidable (_ ∧ testBit64 _ _ = true ∧ (_ ∨ _ ∨ ¬ testBit64 _ _ = true)))

/-! ## The test -/

/-- `task->signal & ~task->blocked`. -/
def signalPending : Bool := t.signal &&& ~~~t.blocked != 0

/-- The test looks at bit `n` of the mask for signal `n`, which is the bit of signal `n + 1`. -/
lemma signalPending_iff : signalPending t = true ↔ ∃ sig, Pends t sig ∧ ¬ Blocks t (sig + 1) := by
  have hbit : ∀ i, (t.signal &&& ~~~t.blocked).getLsbD i = true ↔
      t.signal.getLsbD i = true ∧ ¬ t.blocked.getLsbD i = true := by
    intro i
    rw [getLsbD_and, getLsbD_not, and_eq_true, and_eq_true, decide_eq_true_iff, not_eq_true', not_eq_true]
    exact ⟨fun h => ⟨h.1, h.2.2⟩, fun h => ⟨h.1, lt_of_getLsbD h.1, h.2⟩⟩
  simp only [signalPending, Pends, Blocks, testBit64_eq, Nat.add_sub_cancel, bne_iff_ne, ← hbit]
  constructor
  · intro hne
    by_contra hn
    simp only [not_exists, not_eq_true] at hn
    exact hne (eq_of_getLsbD_eq fun i _ => (hn i).trans getLsbD_zero.symm)
  · rintro ⟨sig, hsig⟩ hz
    rw [hz] at hsig
    exact false_ne_true (getLsbD_zero.symm.trans hsig)

/-! ## Blockers -/

/-- `task->blocker`: what its callback answers, if it has one, and whether a signal may end the wait. -/
structure Blocker where
  check : Option Bool
  signalCanWake : Bool

/-- A task with its blocker; none stands for `BLOCKER_NONE`. -/
structure Waiter where
  task : Intr.Task
  state : TaskState
  blocker : Option Blocker

/-- `blocker_wake_locked`. -/
def blockerWakeLocked (w : Waiter) : Waiter :=
  if w.state ≠ .interruptible ∧ w.state ≠ .uninterruptible then w
  else
    match w.blocker with
    | none => w
    | some b =>
      let cond := b.check == some true
      let signalWake := !cond && b.signalCanWake && signalPending w.task
      if !cond && !signalWake then w else { w with blocker := none, state := .running }

/-- One task of the scan. -/
def unblockOne (w : Waiter) : Waiter :=
  if w.state ≠ .interruptible then w
  else
    match w.blocker with
    | none => w
    | some b =>
      let wasScanWoken := b.check == some true
      let signalWake := b.signalCanWake && signalPending w.task
      if wasScanWoken || signalWake then blockerWakeLocked w else w

/-- `sched_unblock_blocked`. -/
def schedUnblockBlocked (tasks : List Waiter) : List Waiter := tasks.map unblockOne

/-- `blocker_wait`: `check i` is the answer of the callback the `i`th time, `resumed` the task after
`schedule()`. -/
def blockerWait (check : Option (Nat → Bool)) (signalCanWake : Bool) (resumed : Intr.Task) : Int :=
  match check with
  | none => -EINVAL
  | some check =>
    if check 0 then 0
    else if check 1 then 0
    else
      let interrupted := signalCanWake && signalPending resumed && !check 2
      if interrupted then -EINTR else 0

/-! ## Poll and select -/

/-- One round of the loop of `do_poll_core`: what the scans count, whether the deadline has been reached, and
the task before and after it sleeps. -/
structure PollRound where
  scan : Nat
  error : Int
  rescan : Nat
  armed : Intr.Task
  dueBefore : Bool
  dueAfter : Bool
  last : Nat
  woken : Intr.Task

/-- A round up to `schedule()`: what the call returns, if it returns. -/
def pollBeforeSleep (timeoutVal : Int) (r : PollRound) : Option Int :=
  if 0 < r.scan then some r.scan
  else if r.error ≠ 0 then some r.error
  else if timeoutVal = 0 then some 0
  else if 0 < r.rescan then some r.rescan
  else if signalPending r.armed then some (-EINTR)
  else if 0 < timeoutVal ∧ r.dueBefore then some 0
  else none

/-- A round after `schedule()`. -/
def pollAfterSleep (timeoutVal : Int) (r : PollRound) : Option Int :=
  if 0 < timeoutVal ∧ r.dueAfter then some r.last
  else if signalPending r.woken then (if 0 < r.last then some r.last else some (-EINTR))
  else none

/-- `do_poll_core`, for as many rounds as are given. -/
def doPollCore (timeoutVal : Int) : List PollRound → Option Int
  | [] => none
  | r :: rs =>
    (pollBeforeSleep timeoutVal r).or ((pollAfterSleep timeoutVal r).or (doPollCore timeoutVal rs))

lemma doPollCore_append (timeoutVal : Int) (rs rs' : List PollRound) :
    doPollCore timeoutVal (rs ++ rs') = (doPollCore timeoutVal rs).or (doPollCore timeoutVal rs') := by
  induction rs with
  | nil => rfl
  | cons r rs ih => simp only [List.cons_append, doPollCore, ih, Option.or_assoc]

/-- `do_poll` from the test on: `rest` is what the calls after it return. -/
def doPoll (rest : Int) : Int := if signalPending t then -EINTR else rest

def FD_SETSIZE : Int := 1024

/-- `do_select`: `nofds` and `fds` are what it returns without descriptors and after the test. -/
def doSelect (nfds : Int) (t : Intr.Task) (nofds fds : Int) : Int :=
  if nfds < 0 ∨ FD_SETSIZE < nfds then -EINVAL
  else if nfds = 0 then nofds
  else if signalPending t then -EINTR
  else fds

/-- `do_pselect6` with the mask it is given, if any, which holds until it returns. -/
def doPselect6 (nfds : Int) (t : Intr.Task) (sigmask : Option Word) (nofds fds : Intr.Task → Int) :
    Int × Intr.Task :=
  if nfds < 0 ∨ FD_SETSIZE < nfds then (-EINVAL, t)
  else
    let swapped := { t with blocked := sigmask.getD t.blocked }
    let ret :=
      if nfds = 0 then nofds swapped
      else if signalPending swapped then -EINTR
      else fds swapped
    (ret, { swapped with blocked := t.blocked })

/-! ## Interruption and delivery -/

/-- With the words of `t`, each wait that nothing else ends is interrupted if and only if the delivery acts on
some signal. -/
structure InterruptionAgrees (t : Intr.Task) : Prop where
  wakeLocked : ∀ (w : Waiter) (b : Blocker), w.task = t → w.blocker = some b →
    w.state = .interruptible ∨ w.state = .uninterruptible → b.check ≠ some true → b.signalCanWake = true →
    ((blockerWakeLocked w).blocker.isNone = true ↔ ∃ sig, Acts t sig)
  scan : ∀ (tasks : List Waiter) (i : Nat) (w : Waiter) (b : Blocker), tasks[i]? = some w → w.task = t →
    w.blocker = some b → w.state = .interruptible → b.check ≠ some true → b.signalCanWake = true →
    ((∃ w', (schedUnblockBlocked tasks)[i]? = some w' ∧ w'.blocker.isNone = true) ↔ ∃ sig, Acts t sig)
  wait : ∀ check : Nat → Bool, (∀ i, check i = false) →
    (blockerWait (some check) true t = -EINTR ↔ ∃ sig, Acts t sig)
  pollBefore : ∀ (timeoutVal : Int) (r : PollRound), r.armed = t → r.scan = 0 → r.error = 0 → timeoutVal ≠ 0 →
    r.rescan = 0 → (pollBeforeSleep timeoutVal r = some (-EINTR) ↔ ∃ sig, Acts t sig)
  pollAfter : ∀ (timeoutVal : Int) (r : PollRound), r.woken = t → ¬ (0 < timeoutVal ∧ r.dueAfter = true) →
    r.last = 0 → (pollAfterSleep timeoutVal r = some (-EINTR) ↔ ∃ sig, Acts t sig)
  pollLoop : ∀ (timeoutVal : Int) (rs : List PollRound) (r : PollRound), doPollCore timeoutVal rs = none →
    r.armed = t → r.woken = t → r.scan = 0 → r.error = 0 → timeoutVal ≠ 0 → r.rescan = 0 → r.last = 0 →
    (doPollCore timeoutVal (rs ++ [r]) = some (-EINTR) ↔ ∃ sig, Acts t sig)
  poll : ∀ rest : Int, rest ≠ -EINTR → (doPoll t rest = -EINTR ↔ ∃ sig, Acts t sig)
  select : ∀ nfds nofds fds : Int, 0 < nfds → nfds ≤ FD_SETSIZE → fds ≠ -EINTR →
    (doSelect nfds t nofds fds = -EINTR ↔ ∃ sig, Acts t sig)
  pselect6 : ∀ (nfds : Int) (t₀ : Intr.Task) (sigmask : Option Word) (nofds fds : Intr.Task → Int), 0 < nfds →
    nfds ≤ FD_SETSIZE → { t₀ with blocked := sigmask.getD t₀.blocked } = t → fds t ≠ -EINTR →
    ((doPselect6 nfds t₀ sigmask nofds fds).1 = -EINTR ↔ ∃ sig, Acts t sig)

/-- A blocker whose condition does not hold is cleared by the test. -/
lemma blockerWakeLocked_isNone {w : Waiter} (hb : w.blocker = some b)
    (hst : w.state = .interruptible ∨ w.state = .uninterruptible) (hchk : b.check ≠ some true)
    (hcan : b.signalCanWake = true) : (blockerWakeLocked w).blocker.isNone = signalPending w.task := by
  have hc : (b.check == some true) = false := beq_eq_false_iff_ne.2 hchk
  rw [blockerWakeLocked, if_neg (fun hne => hst.elim hne.1 hne.2), hb]
  dsimp only
  rw [hc, hcan]
  cases signalPending w.task with
  | false => exact congrArg Option.isNone hb
  | true => rfl

lemma unblockOne_isNone {w : Waiter} (hb : w.blocker = some b) (hst : w.state = .interruptible)
    (hchk : b.check ≠ some true) (hcan : b.signalCanWake = true) :
    (unblockOne w).blocker.isNone = signalPending w.task := by
  have hc : (b.check == some true) = false := beq_eq_false_iff_ne.2 hchk
  have hw := blockerWakeLocked_isNone hb (Or.inl hst) hchk hcan
  rw [unblockOne, if_neg (not_not.2 hst), hb]
  dsimp only
  rw [hc, hcan]
  cases hp : signalPending w.task with
  | false => exact congrArg Option.isNone hb
  | true => exact hw.trans hp

/-- A round in which no descriptor is ready and no error is found comes to the test. -/
lemma pollBeforeSleep_eq {timeoutVal : Int} {r : PollRound} (hs : r.scan = 0) (herror : r.error = 0)
    (ht : timeoutVal ≠ 0) (hrescan : r.rescan = 0) : pollBeforeSleep timeoutVal r =
      if signalPending r.armed then some (-EINTR) else if 0 < timeoutVal ∧ r.dueBefore then some 0 else none := by
  rw [pollBeforeSleep, hs, herror, hrescan, if_neg (by decide), if_neg (by decide), if_neg ht, if_neg (by decide)]

lemma pollAfterSleep_eq {timeoutVal : Int} {r : PollRound} (hl : r.last = 0) : pollAfterSleep timeoutVal r =
      if 0 < timeoutVal ∧ r.dueAfter then some 0 else if signalPending r.woken then some (-EINTR) else none := by
  rw [pollAfterSleep, hl]
  rfl

/-- Each of the places decides by the test. -/
lemma interruptionAgrees_iff_test : InterruptionAgrees t ↔ (signalPending t = true ↔ ∃ sig, Acts t sig) := by
  have heintr : (0 : Int) ≠ -EINTR := by decide
  have hbr : ∀ {α : Type} {e x : α}, x ≠ e → ((if signalPending t then e else x) = e ↔ signalPending t = true) :=
    fun hx => ⟨fun h => by_contra fun hn => hx (by rwa [if_neg hn] at h), fun h => if_pos h⟩
  refine ⟨fun h => (hbr heintr).symm.trans (h.poll 0 heintr), fun h => ?_⟩
  exact {
    wakeLocked := by
      rintro w b rfl hb hst hchk hcan
      rw [blockerWakeLocked_isNone hb hst hchk hcan, h]
    scan := by
      rintro tasks i w b hi rfl hb hst hchk hcan
      rw [schedUnblockBlocked, List.getElem?_map, hi, ← h, ← unblockOne_isNone hb hst hchk hcan]
      exact ⟨fun ⟨w', hw', hnn⟩ => by cases hw'; exact hnn, fun hnn => ⟨_, rfl, hnn⟩⟩
    wait := by
      intro check hchk
      rw [← h, ← hbr heintr, blockerWait, hchk, hchk, hchk, Bool.not_false, Bool.and_true]
      rfl
    pollBefore := by
      rintro timeoutVal r rfl hs herror ht hrescan
      rw [← h, pollBeforeSleep_eq hs herror ht hrescan]
      exact hbr (by split_ifs <;> decide)
    pollAfter := by
      rintro timeoutVal r rfl hdue hl
      rw [← h, pollAfterSleep_eq hl, if_neg hdue]
      exact hbr nofun
    pollLoop := by
      rintro timeoutVal rs r hrs rfl hwoken hs herror ht hrescan hl
      rw [← h, doPollCore_append, hrs, Option.none_or, doPollCore, pollBeforeSleep_eq hs herror ht hrescan,
        pollAfterSleep_eq hl, hwoken]
      by_cases hp : signalPending r.armed = true
      · rw [if_pos hp]
        exact iff_of_true rfl hp
      · rw [if_neg hp, if_neg hp]
        refine iff_of_false ?_ hp
        split_ifs <;> simp [doPollCore, EINTR]
    poll := fun rest hr => (hbr hr).trans h
    select := by
      intro nfds nofds fds hpos hle hfds
      rw [doSelect, if_neg (by omega), if_neg (by omega)]
      exact (hbr hfds).trans h
    pselect6 := by
      rintro nfds t0 sigmask nofds fds hpos hle rfl hfds
      rw [doPselect6, if_neg (by omega)]
      dsimp only
      rw [if_neg (by omega)]
      exact (hbr hfds).trans h }

/-- The mask has signal `sig + 1` as it should have signal `sig`. -/
def Shifts (sig : Nat) : Prop := Blocks t (sig + 1) ↔ sig ≠ SIGKILL ∧ sig ≠ SIGSTOP ∧ Blocks t sig

/-- The test, of the signals sent. -/
lemma agrees_raised_iff (sent : List Int) : InterruptionAgrees { t with signal := raised sent } ↔
    ((∃ sig ∈ Intr.signals, (sig : Int) ∈ sent ∧ ¬ Blocks t (sig + 1)) ↔
      ∃ sig ∈ Intr.signals, (sig : Int) ∈ sent ∧ ¬ (sig ≠ SIGKILL ∧ sig ≠ SIGSTOP ∧ Blocks t sig)) := by
  have hpends : ∀ sig, Pends { t with signal := raised sent } sig ↔ sig ∈ Intr.signals ∧ (sig : Int) ∈ sent := by
    intro sig
    rw [Pends, testBit64_eq, getLsbD_raised]
  rw [interruptionAgrees_iff_test, signalPending_iff]
  refine iff_congr (exists_congr fun sig => ?_) (exists_congr fun sig => ?_)
  · rw [hpends]
    tauto
  · rw [Acts, hpends]
    tauto

/-- The masks that have each of the signals 2 to 32 as they should have the one before it. -/
lemma shifts_iff : (∀ sig ∈ Intr.signals, Shifts t sig) ↔
    t.blocked.setWidth 32 = 0 ∨ t.blocked.setWidth 32 = 0x1FF := by
  have hbit : ∀ sig, Blocks t sig ↔ t.blocked.getLsbD (sig - 1) = true := fun sig => by rw [Blocks, testBit64_eq]
  have hword : ∀ w : BitVec 32, t.blocked.setWidth 32 = w ↔ ∀ i < 32, t.blocked.getLsbD i = w.getLsbD i := by
    refine fun w => ⟨fun h i hi => ?_, fun h => eq_of_getLsbD_eq fun i hi => ?_⟩
    · rw [← h, getLsbD_setWidth, decide_eq_true hi, Bool.true_and]
    · rw [getLsbD_setWidth, decide_eq_true hi, Bool.true_and, h i hi]
  have hnine : ∀ i < 32, (0x1FF : BitVec 32).getLsbD i = decide (i < 9) := by decide
  simp only [Shifts, Intr.signals, NSIG, SIGKILL, SIGSTOP, List.mem_range'_1, hbit, Nat.add_sub_cancel, hword]
  constructor
  · intro h
    -- up to `SIGKILL` each bit is as the lowest one, and behind it they are clear
    have hall : ∀ i < 32, t.blocked.getLsbD i = (decide (i < 9) && t.blocked.getLsbD 0) := by
      intro i
      induction i with
      | zero => simp
      | succ i ih =>
        intro hi
        have hi' := h (i + 1) (by omega)
        rw [Nat.add_sub_cancel, ih (by omega)] at hi'
        rw [Bool.eq_iff_iff, hi', and_eq_true, and_eq_true, decide_eq_true_iff, decide_eq_true_iff]
        exact ⟨fun hb => ⟨by omega, hb.2.2.2⟩, fun hb => ⟨by omega, by omega, by omega, hb.2⟩⟩
    cases h0 : t.blocked.getLsbD 0 with
    | false => exact Or.inl fun i hi => by rw [hall i hi, h0, Bool.and_false]; exact getLsbD_zero.symm
    | true => exact Or.inr fun i hi => by rw [hall i hi, h0, Bool.and_true, hnine i hi]
  · rintro (h | h) sig hsig
    · rw [h sig (by omega), h (sig - 1) (by omega)]
      simp
    · rw [h sig (by omega), h (sig - 1) (by omega), hnine sig (by omega), hnine _ (by omega)]
      simp only [decide_eq_true_iff]
      omega

/-- **Interruption and delivery** agree, at all places and whichever of some signals are pending, exactly if each of
these is blocked if and only if the next one is, and the ones after `SIGKILL` and `SIGSTOP` are not blocked. So they
agree for all signals exactly if the mask has none of the first 32, or the first nine. -/
theorem interruptionAgrees_iff (t : Intr.Task) :
    (∀ sigs : List Int, (∀ sent ⊆ sigs, InterruptionAgrees { t with signal := raised sent }) ↔
        ∀ sig ∈ Intr.signals, (sig : Int) ∈ sigs → Shifts t sig) ∧
      ((∀ sent, InterruptionAgrees { t with signal := raised sent }) ↔
        t.blocked.setWidth 32 = 0 ∨ t.blocked.setWidth 32 = 0x1FF) := by
  have hset : ∀ sigs : List Int, (∀ sent ⊆ sigs, InterruptionAgrees { t with signal := raised sent }) ↔
      ∀ sig ∈ Intr.signals, (sig : Int) ∈ sigs → Shifts t sig := by
    intro sigs
    simp only [agrees_raised_iff]
    constructor
    · intro h sig hsig hmem
      -- the word in which only this signal is pending
      have hone := h [(sig : Int)] (by simpa using hmem)
      have hex : ∀ P : Nat → Prop, (∃ sig' ∈ Intr.signals, (sig' : Int) ∈ [(sig : Int)] ∧ P sig') ↔ P sig := by
        refine fun P => ⟨fun ⟨sig', _, heq, hp⟩ => ?_, fun hp => ⟨sig, hsig, by simp, hp⟩⟩
        obtain rfl : sig' = sig := Int.ofNat.inj (List.mem_singleton.1 heq)
        exact hp
      rw [hex, hex] at hone
      exact not_iff_not.1 hone
    · intro h sent hsub
      exact exists_congr fun sig => and_congr_right fun hsig => and_congr_right fun hmem =>
        not_congr (h sig hsig (hsub hmem))
  refine ⟨hset, ?_⟩
  rw [← shifts_iff]
  constructor
  · intro h sig hsig
    exact (hset [(sig : Int)]).1 (fun sent _ => h sent) sig hsig (List.mem_singleton_self _)
  · exact fun h sent => (hset sent).2 (fun sig hsig _ => h sig hsig) sent (List.Subset.refl _)

/-- A task for which `SIGINT` is pending, with a mask. -/
def interruptedTask (blocked : Word) : Intr.Task where
  pid := 2
  addrLimit := Intr.USER_ADDR_LIMIT
  signal := raised [2]
  blocked := blocked
  sighand := fun _ => ⟨Intr.SIG_DFL, 0, 0, 0⟩

/-- With `SIGINT` blocked a wait is interrupted, and with only `SIGQUIT` blocked it is not. -/
theorem interruption_disagrees :
    (blockerWait (some fun _ => false) true (interruptedTask (bit64 (2 - 1))) = -EINTR ∧
      ¬ ∃ sig, Acts (interruptedTask (bit64 (2 - 1))) sig) ∧
    blockerWait (some fun _ => false) true (interruptedTask (bit64 (3 - 1))) = 0 ∧
      Acts (interruptedTask (bit64 (3 - 1))) 2 := by
  refine ⟨⟨by decide, ?_⟩, by decide, by decide⟩
  have hn : ∀ sig ∈ Intr.signals, ¬ Acts (interruptedTask (bit64 (2 - 1))) sig := by decide
  exact fun ⟨sig, ha⟩ => hn sig ha.1 ha

end OS01.Sched
