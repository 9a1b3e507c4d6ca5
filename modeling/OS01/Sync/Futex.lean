import Mathlib.Data.List.Nodup
import Mathlib.Data.List.Perm.Subperm
import OS01.Lib.Run
import OS01.Abi

/-!
# Futexes

`kernel/sync/futex.c`: tasks that wait for a word of user memory to change are queued in one of 64
buckets, chosen by the page directory and the page number of the word. All words of a page share a
bucket, and since page directories are page-aligned so do all address spaces. A node of the queue does
not say which word its task waits for, and `do_futex_wake` takes the first ones, whatever they wait for.

So a wake-up reaches the tasks it is meant for exactly if the first tasks of the bucket, as many as it
may wake, all sleep on its word (`wakesOwn_iff`); this is `futex_wake_targets` for the states the system
can reach. A task that a signal has woken leaves the queue only when it runs again, and until then it
takes a wake-up from the others in the same way.
-/

namespace OS01.Sync

open Function List Lib

/-- `FUTEX_BUCKETS`. -/
def FUTEX_BUCKETS : Nat := 64

/-- A queued task, with the page directory and the address it waits on; the queue itself holds only
the task. -/
structure Waiter where
  task : Nat
  pgd : Nat
  uaddr : Nat
deriving DecidableEq, Repr

/-- The buckets, and the tasks that sleep. -/
structure Futexes where
  queue : Nat → List Waiter
  /-- Whether a task is in state `TASK_INTERRUPTIBLE`. -/
  asleep : Nat → Bool

/-- `futex_hash`. -/
def futexHash (pgd uaddr : Nat) : Nat := (pgd ^^^ (uaddr >>> 12)) &&& (FUTEX_BUCKETS - 1)

namespace Futexes

variable (s : Futexes)

/-- `task_wake`. -/
def taskWake (task : Nat) : Futexes := { s with asleep := update s.asleep task false }

/-- Whether a task is in some queue. -/
def queued (task : Nat) : Prop := ∃ b, ∃ w ∈ s.queue b, w.task = task

/-- `do_futex_wait` up to the call of `schedule`, with the answers of the range check and of the page
walk and read; `none` for a task that goes to sleep. -/
def doFutexWait (w : Waiter) (val : Int) (inRange : Bool) (word : Option Int) :
    Futexes × Option Int :=
  if w.uaddr % 4 ≠ 0 then (s, some (-EFAULT))
  else if !inRange then (s, some (-EFAULT))
  else
    match word with
    | none => (s, some (-EFAULT))
    | some x =>
      if x ≠ val then (s, some (-EAGAIN))
      else
        let b := futexHash w.pgd w.uaddr
        ({ s with
          queue := update s.queue b (s.queue b ++ [w])
          asleep := update s.asleep w.task true }, none)

/-- The end of `do_futex_wait`: the task leaves the queue if it is still in one. -/
def leave (task : Nat) : Futexes :=
  { queue := fun b => (s.queue b).filter fun w => decide (w.task ≠ task)
    asleep := update s.asleep task false }

/-- The loop of `do_futex_wake` over the queue of bucket `b`. -/
def wakeLoop (b : Nat) (val : Int) (s : Futexes) (woken : Int) : List Waiter → Futexes × Int
  | [] => ({ s with queue := update s.queue b [] }, woken)
  | w :: l =>
    if woken < val then wakeLoop b val (s.taskWake w.task) (woken + 1) l
    else ({ s with queue := update s.queue b (w :: l) }, woken)

/-- `do_futex_wake`, called in the address space of `pgd` with the limit `addrLimit`. -/
def doFutexWake (pgd addrLimit uaddr : Nat) (val : Int) : Futexes × Int :=
  if uaddr < USER_MIN_ADDR ∨ addrLimit ≤ uaddr then (s, -EFAULT)
  else wakeLoop (futexHash pgd uaddr) val s 0 (s.queue (futexHash pgd uaddr))

end Futexes

/-- A step of the system. -/
inductive FutexEvent
  /-- `do_futex_wait` by a task that runs. -/
  | wait (w : Waiter) (val : Int) (inRange : Bool) (word : Option Int)
  | wake (pgd addrLimit uaddr : Nat) (val : Int)
  /-- A signal wakes a task. -/
  | signal (task : Nat)
  /-- A task that was woken returns from `schedule`. -/
  | resume (task : Nat)

namespace Futexes

/-- One step: a task that is queued or sleeps makes no call, and one that sleeps does not return. -/
inductive Step : Futexes → FutexEvent → Futexes → Prop
  | wait {s : Futexes} (w : Waiter) (val : Int) (inRange : Bool) (word : Option Int) :
      s.asleep w.task = false → ¬s.queued w.task →
      Step s (.wait w val inRange word) (s.doFutexWait w val inRange word).1
  | wake {s : Futexes} (pgd addrLimit uaddr : Nat) (val : Int) :
      Step s (.wake pgd addrLimit uaddr val) (s.doFutexWake pgd addrLimit uaddr val).1
  | signal {s : Futexes} (task : Nat) : Step s (.signal task) (s.taskWake task)
  | resume {s : Futexes} (task : Nat) :
      s.asleep task = false → Step s (.resume task) (s.leave task)

/-- After `futex_init`. -/
def init : Futexes := ⟨fun _ => [], fun _ => false⟩

/-! ## What a wake-up is for -/

/-- Whether a queued task waits on a word of an address space. -/
def waitsOn (s : Futexes) (pgd uaddr : Nat) (w : Waiter) : Bool :=
  decide (w.pgd = pgd ∧ w.uaddr = uaddr) && s.asleep w.task

/-- The tasks that wait on a word: a task is queued in the bucket of the word it waits on. -/
def waiters (s : Futexes) (pgd uaddr : Nat) : List Waiter :=
  (s.queue (futexHash pgd uaddr)).filter (s.waitsOn pgd uaddr)

/-- A wake-up of up to `val` tasks reaches those it is meant for: it wakes as many as it may and there
are, all of them tasks that wait on the word, and returns their number; every other waiter sleeps on
and stays queued. -/
def WakesOwn (s : Futexes) (pgd uaddr : Nat) (val : Int) (r : Futexes × Int) : Prop :=
  r.2 = (min val.toNat (s.waiters pgd uaddr).length : Nat) ∧
    ∃ woken : List Waiter, woken.Sublist (s.waiters pgd uaddr) ∧
      woken.length = min val.toNat (s.waiters pgd uaddr).length ∧
      (∀ t, r.1.asleep t = true ↔ s.asleep t = true ∧ t ∉ woken.map Waiter.task) ∧
      ∀ b, ∀ w ∈ s.queue b, s.asleep w.task = true → w ∉ woken →
        w ∈ r.1.queue b ∧ r.1.asleep w.task = true

/-- The first tasks of the bucket, as many as may be woken, all sleep on the word. -/
def FirstMatch (s : Futexes) (pgd addrLimit uaddr : Nat) (val : Int) : Prop :=
  (USER_MIN_ADDR ≤ uaddr ∧ uaddr < addrLimit) ∧
    ∀ w ∈ (s.queue (futexHash pgd uaddr)).take val.toNat, s.waitsOn pgd uaddr w = true

/-- Every task is queued at most once, in the bucket of its word, and a task that sleeps is queued. -/
structure Wf (s : Futexes) : Prop where
  bucket : ∀ b, ∀ w ∈ s.queue b, futexHash w.pgd w.uaddr = b
  nodup : ∀ b, (s.queue b).map Waiter.task |>.Nodup
  once : ∀ b b' w w', w ∈ s.queue b → w' ∈ s.queue b' → w.task = w'.task → b = b'
  queued : ∀ t, s.asleep t = true → s.queued t

variable {s s' : Futexes} {w w' : Waiter} {b pgd addrLimit uaddr t : Nat} {val woken : Int}
  {l : List Waiter}

lemma Wf.init : Wf Futexes.init where
  bucket b w hw := absurd hw not_mem_nil
  nodup b := .nil
  once b b' w w' hw := absurd hw not_mem_nil
  queued t ht := absurd ht (by simp [Futexes.init])

/-- A task has one node. -/
lemma Wf.eq_of_task (h : Wf s) {b' : Nat} (hw : w ∈ s.queue b) (hw' : w' ∈ s.queue b')
    (ht : w.task = w'.task) : w = w' := by
  obtain rfl := h.once b b' w w' hw hw' ht
  exact inj_on_of_nodup_map (h.nodup b) hw hw' ht

/-! ## The loop -/

/-- The loop wakes the first tasks and leaves the others queued. -/
lemma wakeLoop_eq (b : Nat) (val : Int) (s : Futexes) (woken : Int) (l : List Waiter) :
    (wakeLoop b val s woken l).1.queue = update s.queue b (l.drop (val - woken).toNat) ∧
      (∀ t, (wakeLoop b val s woken l).1.asleep t = true ↔
        s.asleep t = true ∧ t ∉ (l.take (val - woken).toNat).map Waiter.task) ∧
      (wakeLoop b val s woken l).2 = woken + (l.take (val - woken).toNat).length := by
  induction l generalizing s woken with
  | nil => simp [wakeLoop]
  | cons w l ih =>
    unfold wakeLoop
    split
    · rename_i hlt
      obtain ⟨hque, hasl, hcnt⟩ := ih (s.taskWake w.task) (woken + 1)
      have hn : (val - woken).toNat = (val - (woken + 1)).toNat + 1 := by omega
      rw [hn, take_succ_cons]
      refine ⟨hque, fun t => ?_, ?_⟩
      · rw [hasl]
        by_cases ht : t = w.task
        · subst ht
          simp [taskWake]
        · simp [taskWake, ht]
      · rw [length_cons]
        omega
    · rename_i hge
      have hn : (val - woken).toNat = 0 := by omega
      rw [hn]
      simp

/-- What `do_futex_wake` does to an address it accepts. -/
lemma doFutexWake_eq (s : Futexes) (pgd : Nat) (val : Int) (h : USER_MIN_ADDR ≤ uaddr ∧ uaddr < addrLimit) :
    (s.doFutexWake pgd addrLimit uaddr val).1.queue = update s.queue (futexHash pgd uaddr)
          ((s.queue (futexHash pgd uaddr)).drop val.toNat) ∧
      (∀ t, (s.doFutexWake pgd addrLimit uaddr val).1.asleep t = true ↔ s.asleep t = true ∧
          t ∉ ((s.queue (futexHash pgd uaddr)).take val.toNat).map Waiter.task) ∧
      (s.doFutexWake pgd addrLimit uaddr val).2 =
        ((s.queue (futexHash pgd uaddr)).take val.toNat).length := by
  have hc : ¬(uaddr < USER_MIN_ADDR ∨ addrLimit ≤ uaddr) := by omega
  have hl := wakeLoop_eq (futexHash pgd uaddr) val s 0 (s.queue (futexHash pgd uaddr))
  rw [Int.sub_zero, Int.zero_add] at hl
  rw [doFutexWake, if_neg hc]
  exact hl

/-! ## When a wake-up reaches its tasks -/

/-- If the first tasks all sleep on the word, they are as many as there are to wake. -/
lemma length_take_eq (h : ∀ w ∈ l.take t, s.waitsOn pgd uaddr w = true) :
    (l.take t).length = min t (l.filter (s.waitsOn pgd uaddr)).length ∧
      (l.take t).Sublist (l.filter (s.waitsOn pgd uaddr)) := by
  have hfilter : (l.take t).filter (s.waitsOn pgd uaddr) = l.take t := filter_eq_self.2 h
  have hsub : (l.take t).Sublist (l.filter (s.waitsOn pgd uaddr)) := by
    have := (take_sublist t l).filter (s.waitsOn pgd uaddr)
    rwa [hfilter] at this
  refine ⟨?_, hsub⟩
  have hle := hsub.length_le
  have hle' := length_filter_le (s.waitsOn pgd uaddr) l
  rw [length_take] at hle ⊢
  omega

section

variable (h : Wf s)
include h

lemma WakesOwn.of_firstMatch (hfst : s.FirstMatch pgd addrLimit uaddr val) :
    s.WakesOwn pgd uaddr val (s.doFutexWake pgd addrLimit uaddr val) := by
  obtain ⟨hrng, hfst⟩ := hfst
  obtain ⟨hque, hasl, hcnt⟩ := doFutexWake_eq s pgd val hrng
  obtain ⟨hlen, hsub⟩ := length_take_eq hfst
  refine ⟨?_, (s.queue (futexHash pgd uaddr)).take val.toNat, hsub, hlen, hasl, fun b w hw hslp hnot => ?_⟩
  · rw [hcnt, hlen]
    rfl
  have hnotTask : w.task ∉ ((s.queue (futexHash pgd uaddr)).take val.toNat).map Waiter.task := by
    intro hmem
    obtain ⟨w', hw', ht⟩ := mem_map.1 hmem
    have heq := h.eq_of_task (mem_of_mem_take hw') hw ht
    exact hnot (heq ▸ hw')
  refine ⟨?_, (hasl w.task).2 ⟨hslp, hnotTask⟩⟩
  rw [hque]
  by_cases hb : b = futexHash pgd uaddr
  · subst hb
    rw [update_self]
    rw [← take_append_drop val.toNat (s.queue (futexHash pgd uaddr)), mem_append] at hw
    exact hw.resolve_left hnot
  · rwa [update_of_ne hb]

lemma FirstMatch.of_wakesOwn (hown : s.WakesOwn pgd uaddr val (s.doFutexWake pgd addrLimit uaddr val)) :
    s.FirstMatch pgd addrLimit uaddr val := by
  obtain ⟨hres, woken, hsub, hlen, hasl, -⟩ := hown
  have hrng : USER_MIN_ADDR ≤ uaddr ∧ uaddr < addrLimit := by
    by_contra hc
    have hbad : uaddr < USER_MIN_ADDR ∨ addrLimit ≤ uaddr := by omega
    rw [doFutexWake, if_pos hbad] at hres
    simp only [EFAULT] at hres
    omega
  obtain ⟨-, hasl', hcnt⟩ := doFutexWake_eq s pgd val hrng
  refine ⟨hrng, fun w hw => ?_⟩
  -- the tasks that were woken are among the first ones, and are as many, so they are the first ones
  have hnd : (woken.map Waiter.task).Nodup := ((hsub.trans filter_sublist).map Waiter.task).nodup (h.nodup _)
  have hsubset : woken.map Waiter.task ⊆
      ((s.queue (futexHash pgd uaddr)).take val.toNat).map Waiter.task := by
    intro t ht
    obtain ⟨v, hv, rfl⟩ := mem_map.1 ht
    have hs : s.asleep v.task = true := by
      have := (mem_filter.1 (hsub.subset hv)).2
      simp only [waitsOn, Bool.and_eq_true] at this
      exact this.2
    by_contra hnot
    exact ((hasl v.task).1 ((hasl' v.task).2 ⟨hs, hnot⟩)).2 ht
  have hp : (woken.map Waiter.task).Perm
      (((s.queue (futexHash pgd uaddr)).take val.toNat).map Waiter.task) := by
    refine (hnd.subperm hsubset).perm_of_length_le ?_
    rw [length_map, length_map, hlen]
    omega
  obtain ⟨v, hv, hts⟩ := mem_map.1 (hp.mem_iff.2 (mem_map_of_mem hw))
  obtain ⟨hvq, hvw⟩ := mem_filter.1 (hsub.subset hv)
  exact h.eq_of_task hvq (mem_of_mem_take hw) hts ▸ hvw

/-- A wake-up reaches its own tasks exactly if they are the first of their bucket. -/
lemma wakesOwn_iff : s.WakesOwn pgd uaddr val (s.doFutexWake pgd addrLimit uaddr val) ↔
      s.FirstMatch pgd addrLimit uaddr val := ⟨FirstMatch.of_wakesOwn h, WakesOwn.of_firstMatch h⟩

/-! ## Runs -/

lemma Wf.taskWake (t : Nat) : Wf (s.taskWake t) where
  bucket := h.bucket
  nodup := h.nodup
  once := h.once
  queued u hu := by
    by_cases hut : u = t
    · subst hut
      simp [Futexes.taskWake] at hu
    · exact h.queued u (by simpa [Futexes.taskWake, hut] using hu)

lemma Wf.doFutexWait (hq : ¬s.queued w.task) (val : Int) (inRange : Bool)
    (word : Option Int) : Wf (s.doFutexWait w val inRange word).1 := by
  unfold Futexes.doFutexWait
  split
  · exact h
  split
  · exact h
  split
  · exact h
  split
  · exact h
  -- the task is entered in the bucket of its word
  have hmem (b : Nat) (v : Waiter) : v ∈ update s.queue (futexHash w.pgd w.uaddr)
        (s.queue (futexHash w.pgd w.uaddr) ++ [w]) b ↔
      v ∈ s.queue b ∨ (v = w ∧ b = futexHash w.pgd w.uaddr) := by
    by_cases hb : b = futexHash w.pgd w.uaddr
    · subst hb
      simp
    · simp [hb]
  refine ⟨fun b v hv => ?_, fun b => ?_, fun b b' v v' hv hv' ht => ?_, fun t ht => ?_⟩
  · rcases (hmem b v).1 hv with hv | ⟨rfl, rfl⟩
    · exact h.bucket b v hv
    · rfl
  · by_cases hb : b = futexHash w.pgd w.uaddr
    · subst hb
      simp only [update_self, map_append, map_cons, map_nil]
      refine nodup_append.2 ⟨h.nodup _, nodup_singleton _, ?_⟩
      intro a ha c hc hac
      obtain ⟨v, hv, rfl⟩ := mem_map.1 ha
      rw [mem_singleton] at hc
      exact hq ⟨_, v, hv, hac.trans hc⟩
    · simp only [update_of_ne hb]
      exact h.nodup b
  · rcases (hmem b v).1 hv with hold | ⟨hnew, hb⟩ <;>
      obtain hold' | ⟨hnew', hb'⟩ := (hmem b' v').1 hv'
    · exact h.once b b' v v' hold hold' ht
    · exact (hq ⟨b, v, hold, hnew' ▸ ht⟩).elim
    · exact (hq ⟨b', v', hold', hnew ▸ ht.symm⟩).elim
    · exact hb.trans hb'.symm
  · by_cases htw : t = w.task
    · exact ⟨_, w, (hmem _ w).2 (.inr ⟨rfl, rfl⟩), htw.symm⟩
    · obtain ⟨b, v, hv, hvt⟩ := h.queued t (by simpa [htw] using ht)
      exact ⟨b, v, (hmem b v).2 (.inl hv), hvt⟩

lemma Wf.doFutexWake (pgd addrLimit uaddr : Nat) (val : Int) :
    Wf (s.doFutexWake pgd addrLimit uaddr val).1 := by
  by_cases hrng : USER_MIN_ADDR ≤ uaddr ∧ uaddr < addrLimit
  · obtain ⟨hque, hasl, -⟩ := doFutexWake_eq s pgd val hrng
    have hsub (b : Nat) : ((s.doFutexWake pgd addrLimit uaddr val).1.queue b).Sublist (s.queue b) := by
      rw [hque]
      by_cases hb : b = futexHash pgd uaddr
      · subst hb
        rw [update_self]
        exact drop_sublist _ _
      · rw [update_of_ne hb]
    refine ⟨fun b v hv => h.bucket b v ((hsub b).subset hv),
      fun b => ((hsub b).map Waiter.task).nodup (h.nodup b),
      fun b b' v v' hv hv' => h.once b b' v v' ((hsub b).subset hv) ((hsub b').subset hv'), fun t ht => ?_⟩
    obtain ⟨hslp, hnot⟩ := (hasl t).1 ht
    obtain ⟨b, v, hv, rfl⟩ := h.queued t hslp
    refine ⟨b, v, ?_, rfl⟩
    rw [hque]
    by_cases hb : b = futexHash pgd uaddr
    · subst hb
      rw [update_self]
      rw [← take_append_drop val.toNat (s.queue (futexHash pgd uaddr)), mem_append] at hv
      exact hv.resolve_left fun hv => hnot (mem_map_of_mem hv)
    · rwa [update_of_ne hb]
  · have hbad : uaddr < USER_MIN_ADDR ∨ addrLimit ≤ uaddr := by omega
    rwa [Futexes.doFutexWake, if_pos hbad]

lemma Wf.leave (t : Nat) : Wf (s.leave t) where
  bucket b v hv := h.bucket b v (mem_of_mem_filter hv)
  nodup b := (filter_sublist.map Waiter.task).nodup (h.nodup b)
  once b b' v v' hv hv' := h.once b b' v v' (mem_of_mem_filter hv) (mem_of_mem_filter hv')
  queued u hu := by
    by_cases hut : u = t
    · subst hut
      simp [Futexes.leave] at hu
    · obtain ⟨b, v, hv, hvu⟩ := h.queued u (by simpa [Futexes.leave, hut] using hu)
      refine ⟨b, v, mem_filter.2 ⟨hv, ?_⟩, hvu⟩
      simpa [hvu] using hut

end

lemma Wf.step {e : FutexEvent} (h : Wf s) (hs : Step s e s') : Wf s' := by
  cases hs with
  | wait w val inRange word hslp hq => exact h.doFutexWait hq val inRange word
  | wake pgd addrLimit uaddr val => exact h.doFutexWake pgd addrLimit uaddr val
  | signal task => exact h.taskWake task
  | resume task hslp => exact h.leave task

/-- **Whom a wake-up reaches.** In every state the system can get into, a call of `do_futex_wake`
reaches the tasks it is meant for exactly if the first tasks in the bucket of its word, as many as it
may wake, all sleep on that word. -/
theorem futex_wake_targets {es : List FutexEvent} {s : Futexes} (hrun : Run Step init es s)
    (pgd addrLimit uaddr : Nat) (val : Int) :
    s.WakesOwn pgd uaddr val (s.doFutexWake pgd addrLimit uaddr val) ↔ s.FirstMatch pgd addrLimit uaddr val :=
  wakesOwn_iff (hrun.invariant (fun _ _ _ h hs => h.step hs) .init)

/-- Task 1 waits on a word, and task 2 of the same address space on the next word of the page. -/
def oneWaiter : Futexes := (init.doFutexWait ⟨1, 0x200000, 0x400000⟩ 0 true (some 0)).1
def twoWaiters : Futexes := (oneWaiter.doFutexWait ⟨2, 0x200000, 0x400004⟩ 0 true (some 0)).1

/-- The two calls. -/
def twoWaits : List FutexEvent :=
  [.wait ⟨1, 0x200000, 0x400000⟩ 0 true (some 0), .wait ⟨2, 0x200000, 0x400004⟩ 0 true (some 0)]

lemma twoWaiters_run : Run Step init twoWaits twoWaiters := by
  have hone : ∀ b, ∀ w ∈ oneWaiter.queue b, w.task = 1 := by
    intro b w hw
    by_cases hb : b = futexHash 0x200000 0x400000
    · subst hb
      have : w = ⟨1, 0x200000, 0x400000⟩ := by simpa [oneWaiter, doFutexWait, init] using hw
      rw [this]
    · simp [oneWaiter, doFutexWait, init, hb] at hw
  refine .cons (t := oneWaiter) (.wait _ _ _ _ rfl ?_) (.single (.wait ⟨2, 0x200000, 0x400004⟩ 0 true (some 0) rfl ?_))
  · rintro ⟨b, w, hw, -⟩
    exact absurd hw not_mem_nil
  · rintro ⟨b, w, hw, ht⟩
    rw [hone b w hw] at ht
    exact absurd ht (by decide)

/-- The theorem where two tasks wait: a wake-up through the word of task 1 reaches task 1, and one through the word of
task 2 does not reach whom it is meant for. -/
theorem futex_wake_targets_two : Run Step init twoWaits twoWaiters ∧
      twoWaiters.WakesOwn 0x200000 0x400000 1 (twoWaiters.doFutexWake 0x200000 0x800000 0x400000 1) ∧
      ¬ twoWaiters.WakesOwn 0x200000 0x400004 1 (twoWaiters.doFutexWake 0x200000 0x800000 0x400004 1) := by
  refine ⟨twoWaiters_run, (futex_wake_targets twoWaiters_run _ _ _ _).2 ⟨by decide, by decide⟩, fun hown => ?_⟩
  have hfst := (futex_wake_targets twoWaiters_run _ _ _ _).1 hown
  exact absurd (hfst.2 ⟨1, 0x200000, 0x400000⟩ (by decide)) (by decide)

/-- Task 1 waits first; a wake-up through the word of task 2 wakes task 1. -/
theorem futex_wake_targets_other : ∃ s, Run Step init twoWaits s ∧
      (s.doFutexWake 0x200000 0x800000 0x400004 1).1.asleep 1 = false ∧
      (s.doFutexWake 0x200000 0x800000 0x400004 1).1.asleep 2 = true ∧
      ¬s.WakesOwn 0x200000 0x400004 1 (s.doFutexWake 0x200000 0x800000 0x400004 1) := by
  refine ⟨_, twoWaiters_run, by decide, by decide, fun hown => ?_⟩
  have hwf : Wf twoWaiters := twoWaiters_run.invariant (fun _ _ _ h hs => h.step hs) .init
  have hfst := (wakesOwn_iff hwf).1 hown
  exact absurd (hfst.2 ⟨1, 0x200000, 0x400000⟩ (by decide)) (by decide)

end Futexes

end OS01.Sync
