import Mathlib.Data.Fintype.BigOperators
import OS01.Lib.Bits
import OS01.Lib.Run

/-!
# The reader-writer lock

`kernel/sync/rwlock.c`. One word counts the readers in its low 32 bits and the waiting writers in the
next 31, and its top bit says that a writer holds the lock. Each atomic read, compare-and-swap and
subtraction is a step, so a thread may carry a word it read long ago. A thread releases only what it
holds, and read locks nest.

While the two counts fit their fields the word is what the threads say, a writer excludes everybody, and
a waiting writer turns away whoever starts to read (`rwlock_safe`).
-/

namespace OS01.Sync

open BitVec Function Finset Lib

/-- A writer holds the lock. -/
def RWLOCK_WRITER : BitVec 64 := 1 <<< 63

/-- One waiting writer. -/
def RWLOCK_WAITER_ONE : BitVec 64 := 1 <<< 32

/-- The bits of the readers. -/
def RWLOCK_READERS : BitVec 64 := RWLOCK_WAITER_ONE - 1

/-- The bits of the waiting writers. -/
def RWLOCK_WAITERS : BitVec 64 := RWLOCK_WRITER - RWLOCK_WAITER_ONE

/-- Where a thread is, with the word it read if a compare-and-swap is next. -/
inductive RwPlace
  | idle
  | readCas (state : BitVec 64)
  /-- The first loop of `rwlock_write_lock`. -/
  | register
  | registerCas (state : BitVec 64)
  /-- The second one. -/
  | acquire
  | acquireCas (state : BitVec 64)
  /-- The loop of `rwlock_write_unlock`. -/
  | release
  | releaseCas (state : BitVec 64)
deriving DecidableEq

/-- A thread: where it is, and what it holds. -/
structure RwThread where
  place : RwPlace := .idle
  /-- How often it holds the lock as a reader. -/
  reads : Nat := 0
  writes : Bool := false
deriving DecidableEq

/-- A call, or the next operation inside of one. -/
inductive RwCall
  | tryReadLock
  | readUnlock
  | tryWriteLock
  | writeLock
  | writeUnlock
  /-- The next operation inside a call. -/
  | go

/-- What an operation makes of a thread and the word; a call is made outside of calls, and
`rwlock_read_lock` is `rwlock_try_read_lock` again and again. -/
def act (x : RwThread) (state : BitVec 64) : RwCall → Option (RwThread × BitVec 64)
  | .tryReadLock =>
    if x.place = .idle then
      if state &&& (RWLOCK_WRITER ||| RWLOCK_WAITERS) ≠ 0#64 then some (x, state)
      else some ({ x with place := .readCas state }, state)
    else none
  | .readUnlock =>
    if x.place = .idle ∧ 0 < x.reads then some ({ x with reads := x.reads - 1 }, state - 1#64) else none
  | .tryWriteLock =>
    if x.place = .idle then
      if state = 0#64 then some ({ x with writes := true }, RWLOCK_WRITER) else some (x, state)
    else none
  | .writeLock => if x.place = .idle then some ({ x with place := .register }, state) else none
  | .writeUnlock =>
    if x.place = .idle ∧ x.writes then some ({ x with place := .release }, state) else none
  | .go =>
    match x.place with
    | .idle => none
    | .readCas old =>
      if state = old then some ({ x with place := .idle, reads := x.reads + 1 }, old + 1#64)
      else some ({ x with place := .idle }, state)
    | .register => some ({ x with place := .registerCas state }, state)
    | .registerCas old =>
      if state = old then some ({ x with place := .acquire }, old + RWLOCK_WAITER_ONE)
      else some ({ x with place := .register }, state)
    | .acquire =>
      if state &&& (RWLOCK_WRITER ||| RWLOCK_READERS) = 0#64 then
        some ({ x with place := .acquireCas state }, state)
      else some (x, state)
    | .acquireCas old =>
      if state = old then
        some ({ x with place := .idle, writes := true }, (old - RWLOCK_WAITER_ONE) ||| RWLOCK_WRITER)
      else some ({ x with place := .acquire }, state)
    | .release => some ({ x with place := .releaseCas state }, state)
    | .releaseCas old =>
      if state = old then some ({ x with place := .idle, writes := false }, old &&& ~~~RWLOCK_WRITER)
      else some ({ x with place := .release }, state)

/-- Whether a thread is registered as a waiting writer. -/
def RwThread.waits (x : RwThread) : Nat :=
  match x.place with
  | .acquire | .acquireCas _ => 1
  | _ => 0

/-! ## The fields of the word -/

variable {w : BitVec 64}

/-- The test of a reader: no writer holds the lock or waits. -/
lemma and_writer_waiters : w &&& (RWLOCK_WRITER ||| RWLOCK_WAITERS) = 0#64 ↔ w.toNat < 2 ^ 32 := by
  rw [show RWLOCK_WRITER ||| RWLOCK_WAITERS = ~~~BitVec.ofNat 64 (2 ^ 32 - 1) by decide,
    ← toNat_inj, toNat_and_not_low, toNat_zero]
  omega

/-- The test whether a writer holds the lock. -/
lemma and_writer : w &&& RWLOCK_WRITER = 0#64 ↔ w.toNat < 2 ^ 63 := by
  rw [← not_iff_not, ← ne_eq, ← bne_iff_ne, show (w &&& RWLOCK_WRITER != 0#64) = testBit64 w 63 from rfl,
    testBit64_eq, show w.getLsbD 63 = w.msb from rfl, msb_eq_decide, decide_eq_true_iff]
  omega

/-- The test of a writer: nobody holds the lock. -/
lemma and_writer_readers :
    w &&& (RWLOCK_WRITER ||| RWLOCK_READERS) = 0#64 ↔ w.toNat < 2 ^ 63 ∧ w.toNat % 2 ^ 32 = 0 := by
  have hreaders : (w &&& RWLOCK_READERS).toNat = w.toNat % 2 ^ 32 := by
    rw [toNat_and, show RWLOCK_READERS.toNat = 2 ^ 32 - 1 by decide, Nat.and_two_pow_sub_one_eq_mod]
  rw [and_or_distrib_left, or_eq_zero_iff, and_writer, ← hreaders, ← toNat_inj]
  rfl

/-- A writer sets the highest bit. -/
lemma or_writer (h : w.toNat < 2 ^ 63) : (w ||| RWLOCK_WRITER).toNat = w.toNat + 2 ^ 63 := by
  have hor := Nat.two_pow_add_eq_or_of_lt h 1
  rw [toNat_or, Nat.or_comm, show RWLOCK_WRITER.toNat = 2 ^ 63 * 1 by decide]
  omega

/-- A writer clears the highest bit. -/
lemma and_not_writer : (w &&& ~~~RWLOCK_WRITER).toNat = w.toNat % 2 ^ 63 := by
  rw [toNat_and, show (~~~RWLOCK_WRITER).toNat = 2 ^ 63 - 1 by decide, Nat.and_two_pow_sub_one_eq_mod]

/-! ## One operation -/

/-- What a thread knows of the word it read, and a thread that releases holds the lock. -/
def RwThread.Knows (x : RwThread) : Prop :=
  match x.place with
  | .readCas old => old.toNat < 2 ^ 32
  | .acquireCas old => old.toNat < 2 ^ 63 ∧ old.toNat % 2 ^ 32 = 0
  | .release | .releaseCas _ => x.writes = true
  | _ => True

/-- The word `w` of `r` readers, `n` waiting writers and `h` writers that hold the lock. -/
structure Counts (w : BitVec 64) (r n h : Nat) : Prop where
  word : w.toNat = r + 2 ^ 32 * n + 2 ^ 63 * h
  readers : r < 2 ^ 32
  waiting : n < 2 ^ 31
  alone : h = 0 ∨ h = 1 ∧ r = 0

/-- **One operation** of a thread `x`, while the others hold `r`, `n` and `h`, changes the word as it
changes what the thread holds. -/
lemma act_spec {x x' : RwThread} {w' : BitVec 64} {c : RwCall} {r n h : Nat}
    (hact : act x w c = some (x', w')) (hx : x.Knows)
    (hc : Counts w (r + x.reads) (n + x.waits) (h + x.writes.toNat))
    (hr : r + x'.reads < 2 ^ 32) (hn : n + x'.waits < 2 ^ 31) :
    Counts w' (r + x'.reads) (n + x'.waits) (h + x'.writes.toNat) ∧ x'.Knows := by
  obtain ⟨place, reads, writes⟩ := x
  obtain ⟨hwr, hreaders, hwt, halone⟩ := id hc
  have hone : RWLOCK_WAITER_ONE = 4294967296#64 := by decide
  cases c with simp only [act] at hact
  | tryReadLock =>
    split_ifs at hact with hi hm <;> cases hact <;> cases hi
    · exact ⟨hc, trivial⟩
    · exact ⟨hc, and_writer_waiters.1 (not_not.1 hm)⟩
  | readUnlock =>
    split_ifs at hact with hi
    cases hact
    obtain ⟨rfl, hpos⟩ := hi
    dsimp only [RwThread.waits] at *
    have hw : (w - 1#64).toNat = w.toNat - 1 := by bv_omega
    exact ⟨⟨by omega, hr, hn, by omega⟩, trivial⟩
  | tryWriteLock =>
    split_ifs at hact with hi hz <;> cases hact <;> cases hi
    · subst hz
      dsimp only [RwThread.waits] at *
      rw [toNat_zero] at hwr
      have hw : RWLOCK_WRITER.toNat = 2 ^ 63 := by decide
      exact ⟨⟨by rw [hw, Bool.toNat_true]; omega, hr, hn, by rw [Bool.toNat_true]; omega⟩, trivial⟩
    · exact ⟨hc, trivial⟩
  | writeLock =>
    split_ifs at hact with hi
    cases hact
    cases hi
    exact ⟨hc, trivial⟩
  | writeUnlock =>
    split_ifs at hact with hi
    cases hact
    obtain ⟨rfl, hhd⟩ := hi
    exact ⟨hc, hhd⟩
  | go =>
    cases place with simp only at hact
    | idle => cases hact
    | readCas old =>
      split_ifs at hact with heq <;> cases hact
      · subst heq
        have hlow : w.toNat < 2 ^ 32 := hx
        dsimp only [RwThread.waits] at *
        have hw : (w + 1#64).toNat = w.toNat + 1 := by bv_omega
        exact ⟨⟨by omega, hr, hn, by omega⟩, trivial⟩
      · exact ⟨hc, trivial⟩
    | register =>
      cases hact
      exact ⟨hc, trivial⟩
    | registerCas old =>
      split_ifs at hact with heq <;> cases hact
      · subst heq
        dsimp only [RwThread.waits] at *
        have hw : (w + RWLOCK_WAITER_ONE).toNat = w.toNat + 2 ^ 32 := by bv_omega
        exact ⟨⟨by omega, hr, hn, halone⟩, trivial⟩
      · exact ⟨hc, trivial⟩
    | acquire =>
      split_ifs at hact with hm <;> cases hact
      · exact ⟨hc, and_writer_readers.1 hm⟩
      · exact ⟨hc, trivial⟩
    | acquireCas old =>
      split_ifs at hact with heq <;> cases hact
      · subst heq
        obtain ⟨hlt, hmod⟩ : w.toNat < 2 ^ 63 ∧ w.toNat % 2 ^ 32 = 0 := hx
        dsimp only [RwThread.waits] at *
        have hw : (w - RWLOCK_WAITER_ONE).toNat = w.toNat - 2 ^ 32 := by bv_omega
        refine ⟨⟨?_, hr, hn, by rw [Bool.toNat_true]; omega⟩, trivial⟩
        rw [or_writer (by omega), Bool.toNat_true]
        omega
      · exact ⟨hc, trivial⟩
    | release =>
      cases hact
      exact ⟨hc, hx⟩
    | releaseCas old =>
      split_ifs at hact with heq <;> cases hact
      · subst heq
        obtain rfl : writes = true := hx
        have hw := and_not_writer (w := w)
        dsimp only [RwThread.waits, Bool.toNat_true] at *
        exact ⟨⟨by rw [Bool.toNat_false]; omega, hr, hn, by rw [Bool.toNat_false]; omega⟩, trivial⟩
      · exact ⟨hc, hx⟩

/-! ## Runs -/

/-- A lock and the threads that use it. -/
structure Rwlock (τ : Type*) where
  state : BitVec 64 := 0
  thread : τ → RwThread := fun _ => {}

namespace Rwlock

variable {τ : Type*} [Fintype τ] [DecidableEq τ] (s : Rwlock τ)

/-- A thread makes an operation. -/
def next (e : τ × RwCall) : Option (Rwlock τ) :=
  (act (s.thread e.1) s.state e.2).map fun p => ⟨p.2, update s.thread e.1 p.1⟩

/-- The read locks that are held. -/
def readers : Nat := ∑ t, (s.thread t).reads

/-- The writers that are counted as waiting. -/
def waiting : Nat := ∑ t, (s.thread t).waits

/-- The write locks that are held. -/
def writers : Nat := ∑ t, (s.thread t).writes.toNat

/-- A step after which the counts fit their fields. -/
def Step (e : τ × RwCall) (s' : Rwlock τ) : Prop :=
  s.next e = some s' ∧ s'.readers < 2 ^ 32 ∧ s'.waiting < 2 ^ 31

/-- The word counts the locks that are held and the writers that wait. -/
def Inv : Prop :=
  Counts s.state s.readers s.waiting s.writers ∧ ∀ t, (s.thread t).Knows

/-- A sum over the threads, with the part of one of them. -/
lemma sum_split (f : RwThread → Nat) (g : τ → RwThread) (t : τ) :
    ∑ u, f (g u) = ∑ u ∈ univ.erase t, f (g u) + f (g t) := (sum_erase_add _ _ (mem_univ t)).symm

/-- A sum over the threads, after a change of one of them. -/
lemma sum_update (f : RwThread → Nat) (g : τ → RwThread) (t : τ) (x : RwThread) :
    ∑ u, f (update g t x u) = ∑ u ∈ univ.erase t, f (g u) + f x := by
  rw [sum_split f _ t, update_self]
  congr 1
  exact sum_congr rfl fun u hu => by rw [update_of_ne (ne_of_mem_erase hu)]

/-- A step keeps the invariant. -/
lemma Step.inv {s s' : Rwlock τ} {e : τ × RwCall} (h : Step s e s') (hs : Inv s) : Inv s' := by
  obtain ⟨hnx, hr, hn⟩ := h
  obtain ⟨hc, hknows⟩ := hs
  obtain ⟨⟨x', w'⟩, hact, rfl⟩ := Option.map_eq_some_iff.1 hnx
  unfold readers waiting writers at hc
  rw [sum_split _ _ e.1, sum_split RwThread.waits _ e.1, sum_split (·.writes.toNat) _ e.1] at hc
  unfold readers at hr
  unfold waiting at hn
  rw [sum_update (·.reads)] at hr
  rw [sum_update] at hn
  obtain ⟨hc', hx'⟩ := act_spec hact (hknows e.1) hc hr hn
  refine ⟨?_, fun t => ?_⟩
  · unfold readers waiting writers
    rw [sum_update (·.reads), sum_update, sum_update (·.writes.toNat)]
    exact hc'
  · dsimp only
    obtain rfl | hne := eq_or_ne t e.1
    · rwa [update_self]
    · rw [update_of_ne hne]
      exact hknows t

/-- **The lock is safe.** In every state of a run whose counts fit their fields the word is made of the
readers, the waiting writers and the writer that holds the lock; a writer holds it alone; and while a
writer waits, a `rwlock_try_read_lock` that starts returns at once and changes nothing. -/
theorem rwlock_safe {s : Rwlock τ} {es : List (τ × RwCall)} (h : Run Step {} es s) :
    s.state.toNat = s.readers + 2 ^ 32 * s.waiting + 2 ^ 63 * s.writers ∧
      (s.writers = 0 ∨ s.writers = 1 ∧ s.readers = 0) ∧
      (0 < s.waiting → ∀ t, (s.thread t).place = .idle → s.next (t, .tryReadLock) = some s) := by
  have hin : Inv ({} : Rwlock τ) := ⟨⟨by simp [readers, waiting, writers, RwThread.waits], by simp [readers],
      by simp [waiting, RwThread.waits], by simp [writers]⟩, fun _ => trivial⟩
  obtain ⟨hc, -⟩ := h.invariant (fun _ _ _ hi hst => hst.inv hi) hin
  refine ⟨hc.word, hc.alone, fun hpos t hid => ?_⟩
  have hm : s.state &&& (RWLOCK_WRITER ||| RWLOCK_WAITERS) ≠ 0#64 := by
    rw [ne_eq, and_writer_waiters, hc.word]
    omega
  simp [next, act, hid, hm]

/-- A writer registers. -/
theorem rwlock_safe_waiting : ∃ s : Rwlock Bool, 0 < s.waiting ∧ s.next (true, .tryReadLock) = some s := by
  have hrun : Run Step ({} : Rwlock Bool) [(false, .writeLock), (false, .go), (false, .go)] _ :=
    .cons ⟨rfl, by decide, by decide⟩ (.cons ⟨rfl, by decide, by decide⟩
      (.cons ⟨rfl, by decide, by decide⟩ (.nil _)))
  exact ⟨_, by decide, (rwlock_safe hrun).2.2 (by decide) true (by decide)⟩

end Rwlock

end OS01.Sync
