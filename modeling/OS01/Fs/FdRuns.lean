import OS01.Fs.FdCalls

/-!
# Reference accounting over whole runs

The descriptor calls keep the invariant, so the accounts hold in every state reached, and a call that
installs a file takes the lowest free slot or changes none.
-/

namespace OS01.Fs

open Function FdState Lib Int

variable {s s' : FdState} {f t i : Nat}

/-! ## Runs -/

/-- How many references to a file a call takes: to what is in the slot that it copies or looks up, if it gets so far. -/
def FdState.takes (s : FdState) (f : Nat) : FdEvent → Nat
  | .fdDup t fd soft =>
    if inRange fd ∧ s.slot (t, fd.toNat) = some f ∧ (s.lowestFree t 0 (min soft NOFILE)).isSome then 1 else 0
  | .fdDupfd t fd minFd soft =>
    if inRange fd ∧ 0 ≤ minFd ∧ s.slot (t, fd.toNat) = some f ∧
      (s.lowestFree t minFd.toNat (min soft NOFILE)).isSome then 1 else 0
  | .fdDup2 t fd newfd soft =>
    if inRange fd ∧ inRange newfd ∧ newfd < soft ∧ s.slot (t, fd.toNat) = some f ∧
      s.slot (t, newfd.toNat) ≠ some f then 1 else 0
  | .filesDup t ok => if ok then s.copies t f (List.range NOFILE) else 0
  | .filesGetFile t fd => if inRange fd ∧ s.slot (t, fd.toNat) = some f then 1 else 0
  | _ => 0

/-- How many references to a file a call gives up. -/
def FdState.drops (s : FdState) (f : Nat) : FdEvent → Nat
  | .fdDup2 t fd newfd soft =>
    if inRange fd ∧ inRange newfd ∧ newfd < soft ∧ s.slot (t, newfd.toNat) = some f ∧
      s.slot (t, fd.toNat) ≠ none ∧ s.slot (t, fd.toNat) ≠ some f then 1 else 0
  | .fdClose t fd => if inRange fd ∧ s.slot (t, fd.toNat) = some f then 1 else 0
  | .filesUnpin t =>
    if (s.table t).any fun n => n % 2 ^ 32 = 1 then s.copies t f (List.range NOFILE) else 0
  | .filesPutFile g => if g = f then 1 else 0
  | _ => 0

/-- The condition under which the accounts hold: a file has room for the references that the call takes, and the call
does not give up the last ones to a read end of a pipe that has `O_APPEND` set. -/
def FdState.Safe (s : FdState) (e : FdEvent) : Prop :=
  ∀ f, s.refs f + s.takes f e < 2 ^ 32 ∧ (s.AppendEnd f → s.drops f e < s.refs f)

/-- **One call** keeps the invariant. -/
lemma FdOk.step (h : FdOk s) {e : FdEvent} (hen : s.Enabled e) (hsf : s.Safe e) : FdOk (s.call e).1 := by
  obtain ⟨htab, hfl⟩ := hen
  cases e with
  | openFile flags => exact h.openFile flags
  | filesAlloc => exact h.tableAlloc
  | fdAllocLimit t f minFd limit => exact h.fdAllocLimit (htab t rfl) (hfl f rfl)
  | fdDup t oldfd soft =>
    simp only [call, fdDup]
    split
    · exact h
    next hr =>
      refine h.fdDupInstall (htab t rfl) (Nat.min_le_right ..) fun f hs hi => ?_
      have hf := (hsf f).1
      rwa [takes, if_pos ⟨by simpa using hr, hs, hi⟩] at hf
  | fdDupfd t oldfd minFd soft =>
    simp only [call, fdDupfd]
    split
    · exact h
    next hmin =>
      split
      · exact h
      split
      · exact h
      next hr =>
        refine h.fdDupInstall (htab t rfl) (Nat.min_le_right ..) fun f hs hi => ?_
        have hf := (hsf f).1
        rwa [takes, if_pos ⟨by simpa using hr, not_lt.1 hmin, hs, hi⟩] at hf
  | fdDup2 t oldfd newfd soft =>
    refine h.fdDup2 (htab t rfl) (fun f hold hnew hlt hs hne => ?_) fun f hold hnew hlt hs hsome hne happ => ?_
    · have hf := (hsf f).1
      rwa [takes, if_pos ⟨hold, hnew, hlt, hs, hne⟩] at hf
    · have hf := (hsf f).2 happ
      rwa [drops, if_pos ⟨hold, hnew, hlt, hs, hsome, hne⟩] at hf
  | fdClose t fd =>
    simp only [call, fdClose]
    split
    · next hr =>
        refine h.closeSlot fun f hs happ => ?_
        have hf := (hsf f).2 happ
        rwa [drops, if_pos ⟨hr, hs⟩] at hf
    · exact h
  | filesDup t ok =>
    refine h.filesDup (htab t rfl) fun f hok => ?_
    have hf := (hsf f).1
    rwa [takes, if_pos hok] at hf
  | filesPin t =>
    simp only [call, filesPin]
    split
    · exact h
    · exact h.retable _ (htab t rfl)
  | filesUnpin t =>
    simp only [call, filesUnpin]
    split
    · exact h
    next n hn =>
      split
      · next hz =>
          refine h.filesFree fun f happ => ?_
          have hone : n % 2 ^ 32 = 1 := by omega
          have hf := (hsf f).2 happ
          rwa [drops, if_pos (by simpa [hn] using hone)] at hf
      · exact h.retable _ (htab t rfl)
  | filesGetFile t fd =>
    simp only [call, filesGetFile]
    split
    · next hr =>
        cases hs : s.slot (t, fd.toNat) with
        | none => exact h
        | some f =>
          have hf := (hsf f).1
          rw [takes, if_pos ⟨hr, hs⟩] at hf
          exact h.get hf
    · exact h
  | filesPutFile f =>
    refine h.put (hfl f rfl) fun happ => ?_
    have hf := (hsf f).2 happ
    rwa [drops, if_pos rfl] at hf
  | setFl t fd append => exact h.setFl
  | doPipe t soft env => exact h.doPipe (htab t rfl)

/-- Nothing exists yet. -/
def FdState.init : FdState where
  file := fun _ => none
  pipe := fun _ => none
  table := fun _ => none
  slot := fun _ => none
  files := 0
  pipes := 0
  tables := 0
  held := fun _ => 0
  fileFrees := fun _ => 0
  pipeFrees := fun _ => 0

lemma FdOk.init : FdOk init where
  files f := ⟨rfl, rfl⟩
  pipes p := ⟨rfl, rfl, rfl⟩
  fresh _ _ := rfl
  range _ _ _ hs := by cases hs
  plain _ _ _ hf := by cases hf

/-- In which slots a call that succeeds has installed a file. -/
def Installed (slot slot' : Nat × Nat → Option Nat) (new : Nat) : FdEvent → Int → Prop
  | .fdAllocLimit t f minFd limit, r =>
    ∃ i : Nat, r = i ∧ LowestFree slot t minFd (min limit NOFILE) i ∧
      slot' = update slot (t, i) (some f)
  | .fdDup t oldfd soft, r =>
    ∃ i : Nat, r = i ∧ LowestFree slot t 0 (min soft NOFILE) i ∧
      slot' = update slot (t, i) (slot (t, oldfd.toNat))
  | .fdDupfd t oldfd minFd soft, r =>
    ∃ i : Nat, r = i ∧ LowestFree slot t minFd.toNat (min soft NOFILE) i ∧
      slot' = update slot (t, i) (slot (t, oldfd.toNat))
  | .fdDup2 t oldfd newfd _, r =>
    r = newfd ∧ slot' = update slot (t, newfd.toNat) (slot (t, oldfd.toNat))
  | .doPipe t soft _, _ =>
    ∃ i j : Nat, LowestFree slot t 0 (min soft NOFILE) i ∧
      LowestFree (update slot (t, i) (some new)) t 0 (min soft NOFILE) j ∧
      slot' = update (update slot (t, i) (some new)) (t, j) (some (new + 1))
  | _, _ => True

lemma fdAllocLimit_slot (s : FdState) (t f minFd limit : Nat) :
    (∃ i : Nat, (s.fdAllocLimit t f minFd limit) = (s.install t i f, (i : Int)) ∧
        LowestFree s.slot t minFd (min limit NOFILE) i) ∨
      (s.fdAllocLimit t f minFd limit) = (s, -EMFILE) := by
  unfold fdAllocLimit
  cases hi : s.lowestFree t minFd (min limit NOFILE) with
  | none => exact .inr rfl
  | some i => exact .inl ⟨i, rfl, lowestFree_spec hi⟩

lemma fileGet_slot (s : FdState) (f : Nat) : (s.fileGet f).slot = s.slot := by
  unfold fileGet
  split <;> rfl

lemma fdDupInstall_slot (s : FdState) (t oldfd minFd limit : Nat) :
    (∃ i : Nat, (s.fdDupInstall t oldfd minFd limit).2 = i ∧ LowestFree s.slot t minFd limit i ∧
        (s.fdDupInstall t oldfd minFd limit).1.slot = update s.slot (t, i) (s.slot (t, oldfd))) ∨
      (s.fdDupInstall t oldfd minFd limit).2 < 0 ∧ (s.fdDupInstall t oldfd minFd limit).1 = s := by
  unfold fdDupInstall
  cases hs : s.slot (t, oldfd) with
  | none => exact .inr ⟨(by decide : (-EBADF : Int) < 0), rfl⟩
  | some f =>
    cases hi : s.lowestFree t minFd limit with
    | none => exact .inr ⟨(by decide : (-EMFILE : Int) < 0), rfl⟩
    | some i =>
      refine .inl ⟨i, rfl, lowestFree_spec hi, ?_⟩
      change update (s.fileGet f).slot (t, i) (some f) = _
      rw [fileGet_slot]

/-- What `do_pipe` does to the slots once it has both files. -/
lemma pipeInstall_slot (s : FdState) (t rf wf soft : Nat) (copy : Bool) :
    (∃ i j : Nat, (s.pipeInstall t rf wf soft copy).2 = 0 ∧ LowestFree s.slot t 0 (min soft NOFILE) i ∧
        LowestFree (update s.slot (t, i) (some rf)) t 0 (min soft NOFILE) j ∧
        (s.pipeInstall t rf wf soft copy).1.slot = update (update s.slot (t, i) (some rf)) (t, j) (some wf)) ∨
      (s.pipeInstall t rf wf soft copy).2 < 0 ∧ (s.pipeInstall t rf wf soft copy).1.slot = s.slot := by
  have hmin : min (min soft NOFILE) NOFILE = min soft NOFILE := by omega
  have hcl (s : FdState) (j : Nat) (hj : j < NOFILE) :
      (s.fdClose t (j : Int)).slot = update s.slot (t, j) none := by
    rw [← closeSlot_slot]
    simp [fdClose, inRange, hj]
  have hneg : (-EMFILE : Int) < 0 := by decide
  unfold pipeInstall
  obtain ⟨i, he, hi⟩ | he := fdAllocLimit_slot s t rf 0 (min soft NOFILE)
  · rw [hmin] at hi
    have hrestore : update (update s.slot (t, i) (some rf)) (t, i) none = s.slot := by
      rw [update_idem, ← hi.2.2.1, update_eq_self]
    have hin : i < NOFILE := by have := hi.2.1; omega
    simp only [he]
    obtain ⟨j, he', hj⟩ | he' := fdAllocLimit_slot (s.install t i rf) t wf 0 (min soft NOFILE)
    · rw [hmin] at hj
      have hjn : j < NOFILE := by have := hj.2.1; omega
      simp only [he', not_lt.2 (natCast_nonneg _), or_self]
      cases copy with
      | true => exact .inl ⟨i, j, rfl, hi, hj, rfl⟩
      | false =>
        refine .inr ⟨(by decide : (-EFAULT : Int) < 0), ?_⟩
        have hij : (t, j) ≠ (t, i) := by
          rintro heq
          have hf := hj.2.2.1
          rw [heq, show (s.install t i rf).slot (t, i) = some rf from update_self ..] at hf
          cases hf
        have hjs : s.slot (t, j) = none := (update_of_ne hij ..).symm.trans hj.2.2.1
        simp only [Bool.false_eq_true, if_false]
        rw [hcl _ _ hjn, hcl _ _ hin]
        change update (update (update (update s.slot (t, i) _) (t, j) _) (t, i) none) (t, j) none = s.slot
        rw [update_comm hij, update_idem, hrestore, ← hjs, update_eq_self]
    · refine .inr ?_
      simp only [he', hneg, or_true, if_true, natCast_nonneg, not_le.2 hneg, if_false]
      refine ⟨trivial, ?_⟩
      rw [(filePut_frame _ wf).1, hcl _ _ hin]
      exact hrestore
  · refine .inr ?_
    have he' : s.fdAllocLimit t wf 0 (min soft NOFILE) = (s, -EMFILE) := by
      unfold fdAllocLimit at he ⊢
      cases hi : s.lowestFree t 0 (min (min soft NOFILE) NOFILE) with
      | none => rfl
      | some i =>
        rw [hi] at he
        have := congrArg Prod.snd he
        simp only [EMFILE] at this
        omega
    simp only [he, he', hneg, or_self, if_true, not_le.2 hneg, if_false]
    refine ⟨trivial, ?_⟩
    rw [(filePut_frame _ wf).1, (filePut_frame _ rf).1]

variable {P : Prop} {r : Int} {slot slot' : Nat × Nat → Option Nat}

lemma slots_of_error (hr : r < 0) (hs : slot' = slot) : (r < 0 → slot' = slot) ∧ (0 ≤ r → P) :=
  ⟨fun _ => hs, fun h => absurd h (not_le.2 hr)⟩

lemma slots_of_done (hr : 0 ≤ r) (h : P) : (r < 0 → slot' = slot) ∧ (0 ≤ r → P) :=
  ⟨fun hneg => absurd hneg (not_lt.2 hr), fun _ => h⟩

/-- **Where calls install files.** A call that fails changes no slot. -/
lemma call_slots (s : FdState) (e : FdEvent) : ((s.call e).2 < 0 → (s.call e).1.slot = s.slot) ∧
      (0 ≤ (s.call e).2 → Installed s.slot (s.call e).1.slot s.files e (s.call e).2) := by
  have hb : (-EBADF : Int) < 0 := by decide
  have hinval : (-EINVAL : Int) < 0 := by decide
  have hnomem : (-ENOMEM : Int) < 0 := by decide
  cases e with
  | fdAllocLimit t f minFd limit =>
    simp only [call]
    obtain ⟨i, he, hi⟩ | he := fdAllocLimit_slot s t f minFd limit
    · rw [he]
      exact slots_of_done (natCast_nonneg i) ⟨i, rfl, hi, rfl⟩
    · rw [he]
      exact slots_of_error (by decide : (-EMFILE : Int) < 0) rfl
  | fdDup t oldfd soft =>
    simp only [call, fdDup]
    split
    · exact slots_of_error hb rfl
    · obtain ⟨i, hr, hi, hs⟩ | ⟨hr, hs⟩ := fdDupInstall_slot s t oldfd.toNat 0 (min soft NOFILE)
      · exact slots_of_done (hr ▸ natCast_nonneg i) ⟨i, hr, hi, hs⟩
      · exact slots_of_error hr (by rw [hs])
  | fdDupfd t oldfd minFd soft =>
    simp only [call, fdDupfd]
    split
    · exact slots_of_error hinval rfl
    split
    · exact slots_of_error hinval rfl
    split
    · exact slots_of_error hb rfl
    · rcases fdDupInstall_slot s t oldfd.toNat minFd.toNat (min soft NOFILE) with ⟨i, hr, hi, hs⟩ | ⟨hr, hs⟩
      · exact slots_of_done (hr ▸ natCast_nonneg i) ⟨i, hr, hi, hs⟩
      · exact slots_of_error hr (by rw [hs])
  | fdDup2 t oldfd newfd soft =>
    simp only [call, fdDup2]
    split
    · exact slots_of_error hb rfl
    next hrng =>
      have hnew : 0 ≤ newfd := by
        simp only [inRange, Bool.or_eq_true, Bool.not_eq_true', Bool.and_eq_false_iff,
          decide_eq_false_iff_not] at hrng
        omega
      split
      · next heq =>
          subst heq
          split
          · exact slots_of_done hnew ⟨rfl, (update_eq_self ..).symm⟩
          · exact slots_of_error hb rfl
      split
      · exact slots_of_error hb rfl
      cases hs : s.slot (t, oldfd.toNat) with
      | none => exact slots_of_error hb rfl
      | some f =>
        refine slots_of_done ?_ ?_
        · dsimp only
          split <;> exact hnew
        dsimp only
        split
        · refine ⟨rfl, ?_⟩
          change update (s.fileGet f).slot _ (some f) = _
          rw [fileGet_slot, hs]
        · refine ⟨rfl, ?_⟩
          rw [(filePut_frame _ _).1, hs]
          change update (update (s.fileGet f).slot _ none) _ (some f) = _
          rw [update_idem, fileGet_slot]
  | setFl t fd append =>
    simp only [call, setFl]
    split
    · exact slots_of_error hb rfl
    · split
      · exact slots_of_error hb rfl
      · split <;> exact slots_of_done (le_refl 0) trivial
  | doPipe t soft env =>
    simp only [call, doPipe]
    split
    · exact slots_of_error hnomem rfl
    split
    · exact slots_of_error hnomem rfl
    split
    · refine slots_of_error hnomem ?_
      obtain ⟨pipe, frees, he⟩ := fileFree_eq (s := s.pipeAlloc.fileAlloc O_RDONLY (some s.pipes))
        (f := s.files) (update_self ..)
      rw [he]
      rfl
    · rcases pipeInstall_slot s.pipePair t s.files (s.files + 1) soft env.copy with
        ⟨i, j, hr, hi, hj, hs⟩ | ⟨hr, hs⟩
      · exact slots_of_done hr.ge ⟨i, j, hi, hj, hs⟩
      · exact slots_of_error hr hs
  | openFile _ | filesAlloc | fdClose _ _ | filesDup _ _ | filesPin _ | filesUnpin _
  | filesGetFile _ _ | filesPutFile _ => exact slots_of_done (le_refl 0) trivial

/-- **Descriptor accounting.** In every run that keeps to the condition the accounts of all files and
pipes are right; a call that fails changes no slot, and one that succeeds installs its file in the
lowest free slot of its range. -/
theorem fd_accounts {s : FdState} {es : List FdEvent}
    (hrun : Run (guarded FdState.Step FdState.Safe) init es s) : FdAccounts s ∧ ∀ e, s.Enabled e →
      ((s.call e).2 < 0 → (s.call e).1.slot = s.slot) ∧
      (0 ≤ (s.call e).2 → Installed s.slot (s.call e).1.slot s.files e (s.call e).2) := by
  have hok : FdOk s := by
    refine hrun.invariant (fun s e s' hs hst => ?_) FdOk.init
    obtain ⟨hsf, hen, rfl⟩ := hst
    exact hs.step hen hsf
  exact ⟨hok.toFdAccounts, fun e _ => call_slots s e⟩

/-- A table is made, and a pipe is opened in it. -/
def openPipe : List FdEvent := [.filesAlloc, .doPipe 0 16 ⟨true, true, true, true⟩]

/-- The read end is copied and closed. -/
def dupThenClose : List FdEvent := openPipe ++ [.fdDup 0 0 16, .fdClose 0 0]

/-- Each call of a list in turn. -/
def FdState.runCalls (s : FdState) (es : List FdEvent) : FdState :=
  es.foldl (fun s e => (s.call e).1) s

lemma refs_le (s : FdState) (f : Nat) : s.refs f ≤ s.tables * NOFILE + s.held f := by
  refine Nat.add_le_add_right ?_ _
  calc s.slots f ≤ s.places.card := Finset.card_filter_le ..
    _ = s.tables * NOFILE := by simp [places]

/-- A call that takes at most one reference is safe where there are few and no read end has `O_APPEND` set. -/
lemma safe_of_few {e : FdEvent} (hfew : s.tables ≤ 1) (hheld : ∀ f, s.held f = 0) (htakes : ∀ f, s.takes f e ≤ 1)
    (happ : ∀ f x, s.file f = some x → x.flags.append = false) : s.Safe e := by
  intro f
  have hrefs := refs_le s f
  have hone := htakes f
  rw [hheld, NOFILE] at hrefs
  refine ⟨by omega, ?_⟩
  rintro ⟨x, p, hx, -, -, h⟩
  rw [happ f x hx] at h
  cases h

/-- The theorem for a pipe whose read end is copied and closed. -/
theorem fd_accounts_dupThenClose :
    Run (guarded FdState.Step FdState.Safe) init dupThenClose (init.runCalls dupThenClose) ∧
      FdAccounts (init.runCalls dupThenClose) ∧ (init.runCalls dupThenClose).pipe 0 = some ⟨1, 1⟩ := by
  have hrun : Run (guarded FdState.Step FdState.Safe) init dupThenClose (init.runCalls dupThenClose) := by
    refine .cons ⟨safe_of_few (by decide) (fun _ => rfl) (fun _ => Nat.zero_le 1) nofun, ⟨nofun, nofun⟩, rfl⟩
      (.cons ⟨safe_of_few (by decide) (fun _ => rfl) (fun _ => Nat.zero_le 1) nofun, ⟨?_, nofun⟩, rfl⟩
      (.cons ⟨safe_of_few (by decide) ?_ ?_ ?_, ⟨?_, nofun⟩, rfl⟩
      (.cons ⟨safe_of_few (by decide) ?_ (fun _ => Nat.zero_le 1) ?_, ⟨?_, nofun⟩, rfl⟩ (.nil _))))
    · rintro t ⟨⟩
      rfl
    · rintro (_ | _ | f) <;> rfl
    · intro f
      rw [takes]
      split_ifs <;> decide
    · rintro (_ | _ | f) x ⟨⟩ <;> rfl
    · rintro t ⟨⟩
      rfl
    · rintro (_ | _ | f) <;> rfl
    · rintro (_ | _ | f) x ⟨⟩ <;> rfl
    · rintro t ⟨⟩
      rfl
  exact ⟨hrun, (fd_accounts hrun).1, by decide⟩

/-- `O_APPEND` is set on the read end of the pipe, which is then closed. -/
def appendThenClose : List FdEvent := openPipe ++ [.setFl 0 0 true, .fdClose 0 0]

/-- The read end is gone, but the pipe still counts a reader, and no writer for the write end that is
open. -/
theorem fd_accounts_appendThenClose :
    Run FdState.Step init appendThenClose (init.runCalls appendThenClose) ∧
      (init.runCalls appendThenClose).pipe 0 = some ⟨1, 0⟩ ∧
      (init.runCalls appendThenClose).ends 0 true = 0 ∧
      (init.runCalls appendThenClose).ends 0 false = 1 ∧
      ¬FdAccounts (init.runCalls appendThenClose) := by
  have hp : (init.runCalls appendThenClose).pipe 0 = some ⟨1, 0⟩ := rfl
  have hrds : (init.runCalls appendThenClose).ends 0 true = 0 := rfl
  have hrun : Run FdState.Step init appendThenClose
      (init.runCalls appendThenClose) := by
    refine .cons ⟨⟨?_, ?_⟩, rfl⟩ (.cons ⟨⟨?_, ?_⟩, rfl⟩ (.cons ⟨⟨?_, ?_⟩, rfl⟩
      (.cons ⟨⟨?_, ?_⟩, rfl⟩ (.nil _))))
    all_goals
      intro t ht
      cases ht
    · rfl
    all_goals decide
  refine ⟨hrun, hp, hrds, by decide, fun h => ?_⟩
  have hok := h.pipes 0
  exact absurd hok.1 (by decide)

end OS01.Fs
