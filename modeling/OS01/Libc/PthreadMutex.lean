import OS01.Lib.Run

/-!
# The user-space mutex

`libc/pthread/mutex.c`: a mutex over a futex word with three values. 0 is free, 1 is held, 2 is held with a waiter
perhaps. The model takes one step for each atomic access to the word and for each futex call. The futex is ideal:
`FUTEX_WAIT` compares the word and goes to sleep in one step, or returns at once, with whatever error; a sleeper may
wake up for no reason; `FUTEX_WAKE` with count 1 wakes one sleeper if there is any.

The word says little about how many threads wait, and a thread can take the mutex with 1 between a release and the
wake that follows it. What is invariant is that whoever sleeps is covered: by the value 2, by a thread that is on
its way to wake somebody, or by a thread that has been woken and will write 2 before it does anything else.
-/

namespace OS01.Libc

open Option Lib Function

/-- `atomic_xchg32`: the old value and the new content. -/
def atomicXchg32 (word val : Int) : Int × Int := (word, val)

/-- `atomic_cas32`: the value found and the new content. -/
def atomicCas32 (word old new : Int) : Int × Int := (word, if word = old then new else word)

/-- Where a thread is in the mutex code. -/
inductive MutexPc
  /-- in none of the calls -/
  | idle
  /-- `pthread_mutex_lock`: before the exchange -/
  | contending
  /-- `pthread_mutex_lock`: before `FUTEX_WAIT` -/
  | waiting
  /-- in `FUTEX_WAIT` -/
  | asleep
  /-- woken by `FUTEX_WAKE`, before the next exchange -/
  | woken
  /-- `pthread_mutex_unlock`: before the store -/
  | storing
  /-- `pthread_mutex_unlock`: before `FUTEX_WAKE` -/
  | waking
  deriving DecidableEq, Repr

/-- The word, where each thread is, and which threads are between a successful lock and their unlock. -/
structure MutexState (T : Type*) where
  word : Int
  pc : T → MutexPc
  holds : T → Bool

/-- The atomic steps. -/
inductive MutexEvent (T : Type*)
  | lock (t : T)
  | exchange (t : T)
  | futexWait (t : T) (fails : Bool)
  | spurious (t : T)
  | trylock (t : T)
  | unlock (t : T)
  | store (t : T)
  | futexWake (t : T) (sleeper : Option T)

namespace MutexState

variable {T : Type*} [DecidableEq T]

/-- `pthread_mutex_init`, before any call. -/
def init : MutexState T := ⟨0, fun _ => .idle, fun _ => false⟩

variable (s : MutexState T)

/-- Thread `t` goes to `pc`. -/
def go (t : T) (pc : MutexPc) : MutexState T := { s with pc := update s.pc t pc }

/-- Thread `t` has the mutex and returns. -/
def acquired (t : T) : MutexState T :=
  { s with pc := update s.pc t .idle, holds := update s.holds t true }

/-- The first step of `pthread_mutex_lock`. -/
def lockCas (t : T) : MutexState T :=
  let (old, word) := atomicCas32 s.word 0 1
  if old = 0 then { s with word }.acquired t else { s with word }.go t .contending

/-- The exchange in the loop of `pthread_mutex_lock`. -/
def lockXchg (t : T) : MutexState T :=
  let (old, word) := atomicXchg32 s.word 2
  if old = 0 then { s with word }.acquired t else { s with word }.go t .waiting

/-- `pthread_mutex_trylock`. -/
def trylockCas (t : T) : MutexState T :=
  let (old, word) := atomicCas32 s.word 0 1
  if old = 0 then { s with word }.acquired t else { s with word }

/-- The first step of `pthread_mutex_unlock`. -/
def unlockCas (t : T) : MutexState T :=
  let (old, word) := atomicCas32 s.word 1 0
  if old = 1 then { s with word, holds := update s.holds t false } else { s with word }.go t .storing

/-- One atomic step, where the thread is at the place for it. Any thread may call lock and trylock, the holder also;
only the holder calls unlock. -/
def next : MutexEvent T → Option (MutexState T)
  | .lock t => if s.pc t = .idle then some (s.lockCas t) else none
  | .exchange t => if s.pc t = .contending ∨ s.pc t = .woken then some (s.lockXchg t) else none
  | .futexWait t fails =>
    if s.pc t = .waiting then
      some (if s.word = 2 ∧ ¬ fails then s.go t .asleep else s.go t .contending)
    else none
  | .spurious t => if s.pc t = .asleep then some (s.go t .contending) else none
  | .trylock t => if s.pc t = .idle then some (s.trylockCas t) else none
  | .unlock t => if s.pc t = .idle ∧ s.holds t then some (s.unlockCas t) else none
  | .store t =>
    if s.pc t = .storing then
      some { s with word := 0, pc := update s.pc t .waking, holds := update s.holds t false }
    else none
  | .futexWake t sleeper =>
    if s.pc t = .waking then
      match sleeper with
      | none => some (s.go t .idle)
      | some u => if s.pc u = .asleep then some ((s.go t .idle).go u .woken) else none
    else none

/-- A wake that wakes nobody finds nobody asleep. -/
def Ideal : MutexEvent T → Prop
  | .futexWake _ none => ∀ u, s.pc u ≠ .asleep
  | _ => True

/-- The steps over an ideal futex. -/
def step (s : MutexState T) (e : MutexEvent T) (t : MutexState T) : Prop := Ideal s e ∧ s.next e = some t

/-! ## The invariant -/

/-- Thread `u` will see to the sleepers. -/
def Sees (u : T) : Prop := s.pc u = .woken ∨ s.pc u = .waking

/-- At most one holder, none while the word is 0, and no sleeper is stranded. -/
structure Sound (s : MutexState T) : Prop where
  exclusive : ∀ t u, s.holds t = true → s.holds u = true → t = u
  free : s.word = 0 → ∀ t, s.holds t = false
  storing : ∀ t, s.pc t = .storing → s.holds t = true
  covered : ∀ t, s.pc t = .asleep → s.word = 2 ∨ ∃ u, s.Sees u

omit [DecidableEq T] in
lemma sound_init : Sound (init : MutexState T) where
  exclusive _ _ h := by cases h
  free _ _ := rfl
  storing _ h := by cases h
  covered _ h := by cases h

variable {s s' : MutexState T} {t : T} {u : T} {pc : MutexPc}

/-- Where a thread is after `t` has gone to `pc`. -/
lemma pc_go_cases {pc' : MutexPc} (h : (s.go t pc).pc u = pc') :
    (u = t ∧ pc = pc') ∨ (u ≠ t ∧ s.pc u = pc') := by
  by_cases hut : u = t
  · subst hut
    exact .inl ⟨rfl, (update_self ..).symm.trans h⟩
  · exact .inr ⟨hut, (update_of_ne hut ..).symm.trans h⟩

/-- A thread other than `t` still sees to the sleepers after `t` has gone somewhere. -/
lemma Sees.go {v : T} (h : s.Sees v) (hs : ¬ s.Sees t) (pc : MutexPc) : (s.go t pc).Sees v := by
  have hvt : v ≠ t := fun hvt => hs (hvt ▸ h)
  simpa only [Sees, MutexState.go, update_of_ne hvt] using h

lemma Sound.storing_go (h : Sound s) (pc : MutexPc) (hsto : pc = .storing → s.holds t = true)
    (hu : (s.go t pc).pc u = .storing) : s.holds u = true := by
  obtain ⟨rfl, hpc⟩ | ⟨-, hpc⟩ := pc_go_cases hu
  · exact hsto hpc
  · exact h.storing u hpc

/-- A thread that sees to nobody goes on in a call. -/
lemma Sound.move (h : Sound s) (hs : ¬ s.Sees t) (hasl : pc ≠ .asleep)
    (hsto : pc = .storing → s.holds t = true) : Sound (s.go t pc) where
  exclusive := h.exclusive
  free := h.free
  storing _ hu := h.storing_go pc hsto hu
  covered u hu := by
    obtain ⟨-, hpc⟩ | ⟨-, hpc⟩ := pc_go_cases hu
    · exact absurd hpc hasl
    · refine (h.covered u hpc).imp_right ?_
      rintro ⟨v, hv⟩
      exact ⟨v, hv.go hs pc⟩

/-- A thread takes the free mutex. With 1 in the word it must not be one that sees to the sleepers. -/
lemma Sound.acquire (h : Sound s) (hf : s.word = 0) {word : Int} (hwr : word ≠ 0)
    (hs : word = 2 ∨ ¬ s.Sees t) : Sound (acquired { s with word } t) where
  exclusive u v hu hv := by
    have hn : ∀ w, (update s.holds t true) w = true → w = t := by
      intro w hw
      by_contra hwt
      rw [update_of_ne hwt, h.free hf w] at hw
      cases hw
    exact (hn u hu).trans (hn v hv).symm
  free hz := absurd hz hwr
  storing u hu := by
    have hhd : s.holds u = true := h.storing_go .idle nofun hu
    rw [h.free hf u] at hhd
    cases hhd
  covered u hu := by
    refine hs.imp_right ?_
    intro hs
    rcases pc_go_cases (s := s) hu with ⟨-, hpc⟩ | ⟨-, hpc⟩
    · cases hpc
    · -- The word was 0, so a sleeper was covered by a thread, and that is not `t`.
      obtain htwo | ⟨v, hv⟩ := h.covered u hpc
      · rw [hf] at htwo
        cases htwo
      · exact ⟨v, hv.go hs .idle⟩

/-- The holder gives the mutex up: whoever sleeps must be covered already, or by where the holder goes. -/
lemma Sound.release (h : Sound s) (hhd : s.holds t = true) {pc : T → MutexPc}
    (hsto : ∀ u, pc u = .storing → s.pc u = .storing ∧ u ≠ t)
    (hcov : ∀ u, pc u = .asleep → ∃ v, pc v = .woken ∨ pc v = .waking) :
    Sound ⟨0, pc, update s.holds t false⟩ where
  exclusive u v hu hv := by
    have hold : ∀ w, (update s.holds t false) w = true → s.holds w = true := by
      intro w hw
      by_cases hwt : w = t
      · subst hwt
        rw [update_self] at hw
        cases hw
      · rwa [update_of_ne hwt] at hw
    exact h.exclusive u v (hold u hu) (hold v hv)
  free _ u := by
    by_cases hut : u = t
    · subst hut
      exact update_self ..
    · simp only [update_of_ne hut]
      by_contra hu
      exact hut (h.exclusive u t (Bool.not_eq_false _ ▸ hu) hhd)
  storing u hu := by
    obtain ⟨hpc, hut⟩ := hsto u hu
    simp only [update_of_ne hut]
    exact h.storing u hpc
  covered u hu := .inr (hcov u hu)

/-! ## One step -/

omit [DecidableEq T] in
lemma not_sees (h : s.pc t = pc) (hwoken : pc ≠ .woken) (hwaking : pc ≠ .waking) : ¬ s.Sees t := by
  rintro (hs | hs)
  · exact hwoken (h.symm.trans hs)
  · exact hwaking (h.symm.trans hs)

section

variable (h : Sound s)
include h

lemma Sound.lockCas (ht : s.pc t = .idle) : Sound (s.lockCas t) := by
  have hs : ¬ s.Sees t := not_sees ht nofun nofun
  unfold MutexState.lockCas atomicCas32
  by_cases hz : s.word = 0
  · simp only [if_pos hz]
    exact h.acquire hz Int.one_ne_zero (.inr hs)
  · simp only [if_neg hz]
    exact h.move hs nofun nofun

lemma Sound.trylockCas (ht : s.pc t = .idle) : Sound (s.trylockCas t) := by
  unfold MutexState.trylockCas atomicCas32
  by_cases hz : s.word = 0
  · simp only [if_pos hz]
    exact h.acquire hz Int.one_ne_zero (.inr (not_sees ht nofun nofun))
  · simp only [if_neg hz]
    exact h

/-- The exchange writes 2, which covers every sleeper. -/
lemma Sound.lockXchg (t : T) : Sound (s.lockXchg t) := by
  unfold MutexState.lockXchg atomicXchg32
  by_cases hz : s.word = 0
  · simp only [if_pos hz]
    exact h.acquire hz (by decide) (.inl rfl)
  · simp only [if_neg hz]
    exact ⟨h.exclusive, nofun, fun _ hu => h.storing_go .waiting nofun hu, fun _ _ => .inl rfl⟩

lemma Sound.futexWait (ht : s.pc t = .waiting) (fails : Bool) :
    Sound (if s.word = 2 ∧ ¬ fails then s.go t .asleep else s.go t .contending) := by
  split_ifs with hslp
  · exact ⟨h.exclusive, h.free, fun _ hu => h.storing_go .asleep nofun hu, fun _ _ => .inl hslp.1⟩
  · exact h.move (not_sees ht nofun nofun) nofun nofun

lemma Sound.unlockCas (ht : s.pc t = .idle) (hhd : s.holds t = true) : Sound (s.unlockCas t) := by
  unfold MutexState.unlockCas atomicCas32
  by_cases hone : s.word = 1
  · simp only [if_pos hone]
    refine h.release hhd ?_ ?_
    · intro u hu
      refine ⟨hu, ?_⟩
      rintro rfl
      rw [ht] at hu
      cases hu
    · intro u hu
      -- With 1 in the word a sleeper was covered by a thread.
      exact (h.covered u hu).resolve_left (by rw [hone]; decide)
  · simp only [if_neg hone]
    exact h.move (not_sees ht nofun nofun) nofun fun _ => hhd

lemma Sound.store (ht : s.pc t = .storing) : Sound ⟨0, update s.pc t .waking, update s.holds t false⟩ := by
  refine h.release (h.storing t ht) ?_ ?_
  · intro u hu
    have hut : u ≠ t := by
      rintro rfl
      rw [update_self] at hu
      cases hu
    rw [update_of_ne hut] at hu
    exact ⟨hu, hut⟩
  · intro u hu
    exact ⟨t, .inr (update_self ..)⟩

/-- The wake passes the duty on to the thread that it wakes, or finds nobody asleep. -/
lemma Sound.futexWake (t : T) (sleeper : Option T) (hideal : sleeper = none → ∀ u, s.pc u ≠ .asleep) :
    Sound (match sleeper with | none => s.go t .idle | some u => (s.go t .idle).go u .woken) := by
  cases sleeper with
  | none =>
    refine ⟨h.exclusive, h.free, fun _ hu => h.storing_go .idle nofun hu, ?_⟩
    intro u hu
    obtain ⟨-, hpc⟩ | ⟨-, hpc⟩ := pc_go_cases hu
    · cases hpc
    · exact absurd hpc (hideal rfl u)
  | some w =>
    refine ⟨h.exclusive, h.free, ?_, fun u _ => .inr ⟨w, .inl (update_self ..)⟩⟩
    intro u hu
    obtain ⟨-, hpc⟩ | ⟨-, hpc⟩ := pc_go_cases hu
    · cases hpc
    · exact h.storing_go .idle nofun hpc

end

/-- **One atomic step** keeps the mutex sound. -/
theorem Sound.step {e : MutexEvent T} (h : Sound s) (hst : step s e s') : Sound s' := by
  obtain ⟨hideal, hst⟩ := hst
  cases e with
  | lock t =>
    obtain ⟨ht, hs⟩ := ite_none_right_eq_some.1 hst
    exact some.inj hs ▸ h.lockCas ht
  | exchange t =>
    obtain ⟨-, hs⟩ := ite_none_right_eq_some.1 hst
    exact some.inj hs ▸ h.lockXchg t
  | futexWait t fails =>
    obtain ⟨ht, hs⟩ := ite_none_right_eq_some.1 hst
    exact some.inj hs ▸ h.futexWait ht fails
  | spurious t =>
    obtain ⟨ht, hs⟩ := ite_none_right_eq_some.1 hst
    exact some.inj hs ▸ h.move (not_sees ht nofun nofun) nofun nofun
  | trylock t =>
    obtain ⟨ht, hs⟩ := ite_none_right_eq_some.1 hst
    exact some.inj hs ▸ h.trylockCas ht
  | unlock t =>
    obtain ⟨⟨ht, hhd⟩, hs⟩ := ite_none_right_eq_some.1 hst
    exact some.inj hs ▸ h.unlockCas ht hhd
  | store t =>
    obtain ⟨ht, hs⟩ := ite_none_right_eq_some.1 hst
    exact some.inj hs ▸ h.store ht
  | futexWake t sleeper =>
    obtain ⟨-, hs⟩ := ite_none_right_eq_some.1 hst
    cases sleeper with
    | none => exact some.inj hs ▸ h.futexWake t none fun _ => hideal
    | some u =>
      obtain ⟨-, hs⟩ := ite_none_right_eq_some.1 hs
      exact some.inj hs ▸ h.futexWake t (some u) nofun

/-- **The mutex.** However the atomic steps of any number of threads interleave, at most one thread is between a
successful lock and its unlock; and while a thread sleeps on the mutex, the word is 2, or some thread has been woken
and will exchange 2 into the word, or some thread is about to issue a wake. -/
theorem pthread_mutex_sound {es : List (MutexEvent T)} (hrun : Run step init es s) :
    (∀ t u, s.holds t = true → s.holds u = true → t = u) ∧
      ∀ t, s.pc t = .asleep → s.word = 2 ∨ ∃ u, s.pc u = .woken ∨ s.pc u = .waking := by
  have hs : Sound s := Run.invariant (I := Sound) (fun _ _ _ => Sound.step) hrun sound_init
  exact ⟨hs.exclusive, hs.covered⟩

/-- Thread 1 waits while thread 0 holds the mutex, and thread 2 barges in between the release and the wake. -/
def barging : List (MutexEvent Nat) :=
  [.lock 0, .lock 1, .exchange 1, .futexWait 1 false, .unlock 0, .store 0, .lock 2]

/-- The state after that: the sleeper is covered by thread 0 alone. -/
theorem pthread_mutex_sound_barging : ∃ s : MutexState Nat, Run step init barging s ∧ s.pc 1 = .asleep ∧
    s.holds 2 = true ∧ s.word = 1 ∧ ∃ u, s.pc u = .woken ∨ s.pc u = .waking := by
  let s : MutexState Nat := (barging.foldlM MutexState.next init).get rfl
  have hrun : Run step init barging s := by
    have hn : Run (fun s e t => MutexState.next s e = some t) init barging s :=
      Run.of_foldlM (some_get _).symm
    have hideal : ∀ e ∈ barging, ∀ s : MutexState Nat, s.Ideal e := by simp [barging, Ideal]
    exact hn.guard hideal
  refine ⟨s, hrun, rfl, rfl, rfl, ?_⟩
  exact ((pthread_mutex_sound hrun).2 1 rfl).resolve_left (by decide)

end MutexState

end OS01.Libc
