import OS01.Intr.Signal

/-!
# What one delivery does

One specification for each way `arch_do_signal_delivery` can leave the loop. `Skipped c c'` is what
an iteration that goes on may have done, including an attempt whose frame could not be written.
`Delivered c sig c'` is everything a successful delivery does: the handler's entry registers, the
widened mask, the cleared pending bit, the bytes written below the interrupted stack pointer and
nothing at or above it. `archDoSignalDelivery_delivered` and `archDoSignalDelivery_cont` lift them
from one iteration to the whole call.
-/

namespace OS01.Intr

open Lib Sigframe Mem

/-! ## The handler's stack pointer -/

/-- The handler is entered with the stack pointer the ABI asks for after a call. -/
lemma newRsp_mod (rsp : Word) : (newRsp rsp).toNat % 16 = 8 := by
  rw [newRsp, BitVec.toNat_add, toNat_and_not_15]
  have h8 : BitVec.toNat (8 : Word) = 8 := rfl
  omega

variable {t : Task} {u : Uaccess} {c : Ctx}

/-- A range the check accepts, in numbers. -/
lemma syscallCheckUserRange_bounds {addr : Word} {len : Nat} {writable : Bool} (hlen : 0 < len)
    (h : syscallCheckUserRange u t addr len writable = true) :
    USER_MIN_ADDR ≤ addr.toNat ∧ addr.toNat + len ≤ t.addrLimit.toNat := by
  simp only [syscallCheckUserRange, Bool.or_eq_true, beq_iff_eq, Bool.and_eq_true,
    Bool.not_eq_true', Bool.or_eq_false_iff, decide_eq_false_iff_not] at h
  obtain h | ⟨⟨⟨hmin, hlim⟩, hr⟩, -⟩ := h
  · omega
  have hmin' : USER_MIN_ADDR ≤ addr.toNat := by
    rw [BitVec.lt_def] at hmin
    exact Nat.not_lt.1 hmin
  have hlim' : addr.toNat < t.addrLimit.toNat := by
    rw [BitVec.le_def] at hlim
    omega
  have hsub : (t.addrLimit - addr).toNat = t.addrLimit.toNat - addr.toNat :=
    BitVec.toNat_sub_of_le (by rw [BitVec.le_def]; omega)
  exact ⟨hmin', by omega⟩

/-- When the check accepts the handler's stack, the whole frame lies below the interrupted stack
pointer: no subtraction wrapped. -/
lemma newRsp_below {rsp : Word} (hlim : t.addrLimit = USER_ADDR_LIMIT)
    (h : syscallCheckUserRange u t (newRsp rsp) frameTotal true = true) :
    (newRsp rsp).toNat + frameTotal ≤ rsp.toNat ∧ (newRsp rsp + 8).toNat = (newRsp rsp).toNat + 8 := by
  obtain ⟨-, hr⟩ := syscallCheckUserRange_bounds (by decide) h
  have hlim' : t.addrLimit.toNat = 0x00007FFFFFFFFFFF := by rw [hlim]; rfl
  have htot : frameTotal = 208 := rfl
  have h8 : BitVec.toNat (8 : Word) = 8 := rfl
  have hval : (newRsp rsp).toNat = ((rsp.toNat + (2 ^ 64 - 216)) % 2 ^ 64 / 16 * 16 + 8) := by
    have hsub : (rsp - BitVec.ofNat 64 frameTotal - 8).toNat = (rsp.toNat + (2 ^ 64 - 216)) % 2 ^ 64 := by
      rw [BitVec.toNat_sub, BitVec.toNat_sub, htot]
      have h208 : (BitVec.ofNat 64 208).toNat = 208 := rfl
      omega
    rw [newRsp, BitVec.toNat_add, toNat_and_not_15]
    omega
  rw [BitVec.toNat_add]
  omega

/-! ## One iteration -/

/-- What an iteration that goes on to the next signal may have done. -/
structure Skipped (c c' : Ctx) : Prop where
  /-- The frame to return with is untouched. -/
  regs : c'.regs = c.regs
  /-- So is the mask. -/
  blocked : c'.task.blocked = c.task.blocked
  /-- So are the registered actions. -/
  sighand : c'.task.sighand = c.task.sighand
  /-- And the address limit. -/
  addrLimit : c'.task.addrLimit = c.task.addrLimit
  /-- No signal becomes pending. -/
  pending_sub : ∀ n, c'.task.signal.getLsbD n = true → c.task.signal.getLsbD n = true
  /-- A signal with a registered handler stays pending. -/
  handler_kept : ∀ n, (c.task.sighand n).saHandler ≠ SIG_IGN →
    (c.task.sighand n).saHandler ≠ SIG_DFL →
    c'.task.signal.getLsbD n = c.task.signal.getLsbD n
  /-- No byte at or above the stack pointer is written. -/
  above : ∀ x, c.regs.rsp.toNat ≤ x → c'.mem x = c.mem x

namespace Skipped

/-- Doing nothing is a skip. -/
lemma refl (c : Ctx) : Skipped c c := ⟨rfl, rfl, rfl, rfl, fun _ h => h, fun _ _ _ => rfl, fun _ _ => rfl⟩

/-- Skips compose. -/
lemma trans {a b : Ctx} (h : Skipped a b) (h' : Skipped b c) : Skipped a c where
  regs := h'.regs.trans h.regs
  blocked := h'.blocked.trans h.blocked
  sighand := h'.sighand.trans h.sighand
  addrLimit := h'.addrLimit.trans h.addrLimit
  pending_sub n hn := h.pending_sub n (h'.pending_sub n hn)
  handler_kept n hi hd := by
    have hi' : (b.task.sighand n).saHandler ≠ SIG_IGN := by rwa [h.sighand]
    have hd' : (b.task.sighand n).saHandler ≠ SIG_DFL := by rwa [h.sighand]
    rw [h'.handler_kept n hi' hd', h.handler_kept n hi hd]
  above x hx := by
    have hx' : b.regs.rsp.toNat ≤ x := by rwa [h.regs]
    rw [h'.above x hx', h.above x hx]

/-- Dropping a pending signal that has no handler is a skip. -/
lemma of_clearPending (c : Ctx) (sig : Nat)
    (hact : (c.task.sighand sig).saHandler = SIG_IGN ∨ (c.task.sighand sig).saHandler = SIG_DFL) :
    Skipped c (c.clearPending sig) where
  regs := rfl
  blocked := rfl
  sighand := rfl
  addrLimit := rfl
  pending_sub n hn := by
    rw [Ctx.clearPending_signal, getLsbD_and_not_bit64, Bool.and_eq_true] at hn
    exact hn.1
  handler_kept n hi hd := by
    have hne : n ≠ sig := by
      rintro rfl
      exact hact.elim hi hd
    rw [Ctx.clearPending_signal, getLsbD_and_not_bit64, decide_eq_true hne, Bool.and_true]
  above _ _ := rfl

/-- Writing below the stack pointer only is a skip. -/
lemma of_mem (c : Ctx) (m : Mem) (h : ∀ x, c.regs.rsp.toNat ≤ x → m x = c.mem x) :
    Skipped c { c with mem := m } := ⟨rfl, rfl, rfl, rfl, fun _ h => h, fun _ _ _ => rfl, h⟩

end Skipped

/-- Everything a successful delivery of `sig` does. -/
structure Delivered (c : Ctx) (sig : Nat) (c' : Ctx) : Prop where
  /-- The signal has a valid number. -/
  range : 1 ≤ sig ∧ sig < NSIG
  /-- It was pending. -/
  pending : c.task.signal.getLsbD sig = true
  /-- It was not blocked, the two uncatchable signals apart. -/
  unblocked : sig = SIGKILL ∨ sig = SIGSTOP ∨ c.task.blocked.getLsbD (sig - 1) = false
  /-- The frame returned to user mode. -/
  user : c.regs.cs &&& 3 ≠ 0
  /-- The handler's entry registers. -/
  regs : c'.regs = handlerEntry c.regs sig (c.task.sighand sig).saHandler
  /-- The signal and its action's mask are blocked on top of the old mask. -/
  blocked : c'.task.blocked
    = (c.task.blocked ||| bit64 (sig - 1)) ||| (c.task.sighand sig).saMask
  /-- Its pending bit is cleared. -/
  cleared : c'.task.signal.getLsbD sig = false
  /-- No signal becomes pending. -/
  pending_sub : ∀ n, c'.task.signal.getLsbD n = true → c.task.signal.getLsbD n = true
  /-- Every other signal with a handler stays pending. -/
  handler_kept : ∀ n, n ≠ sig → (c.task.sighand n).saHandler ≠ SIG_IGN →
    (c.task.sighand n).saHandler ≠ SIG_DFL →
    c'.task.signal.getLsbD n = c.task.signal.getLsbD n
  /-- The registered actions are untouched. -/
  sighand : c'.task.sighand = c.task.sighand
  /-- So is the address limit. -/
  addrLimit : c'.task.addrLimit = c.task.addrLimit
  /-- The return address below the frame is the restorer. -/
  restorer : c'.mem.read (newRsp c.regs.rsp).toNat 8
    = leBytes 8 (c.task.sighand sig).saRestorer.toNat
  /-- The frame holds the interrupted registers and mask. -/
  frame : c'.mem.read (newRsp c.regs.rsp + 8).toNat size
    = (c.regs.saveFrame c.task.blocked).toBytes
  /-- The frame lies below the interrupted stack pointer. -/
  below : (newRsp c.regs.rsp).toNat + frameTotal ≤ c.regs.rsp.toNat
  /-- No byte at or above the interrupted stack pointer is written. -/
  above : ∀ x, c.regs.rsp.toNat ≤ x → c'.mem x = c.mem x

/-- A fault-tolerant copy changes only its destination range. -/
lemma copyToUserFt_outside (u : Uaccess) (m : Mem) (dst : Word) (bs : List UInt8) {x : Nat}
    (hx : x < dst.toNat ∨ dst.toNat + bs.length ≤ x) : (copyToUserFt u m dst bs).1 x = m x := by
  unfold copyToUserFt
  split
  · exact write_outside m _ bs hx
  · refine write_outside m _ _ ?_
    rw [List.length_take]
    omega

/-- A copy that reports success wrote every byte. -/
lemma copyToUserFt_ok {m m' : Mem} {dst : Word} {bs : List UInt8}
    (h : copyToUserFt u m dst bs = (m', true)) : m' = m.write dst.toNat bs := by
  unfold copyToUserFt at h
  split at h
  · exact (congrArg Prod.fst h).symm
  · simp at h

variable {c' : Ctx} {sig : Nat} {act : Sigaction} {pending : Word}

/-- An attempt to enter a handler that goes on leaves registers, mask and pending set alone, and
may have written only below the stack pointer. -/
lemma deliverHandler_cont (hlim : c.task.addrLimit = USER_ADDR_LIMIT)
    (h : deliverHandler u c sig act = .cont c') :
    c'.regs = c.regs ∧ c'.task = c.task ∧ ∀ x, c.regs.rsp.toNat ≤ x → c'.mem x = c.mem x := by
  unfold deliverHandler at h
  split_ifs at h with hcs hr hchk
  · cases h
    exact ⟨rfl, rfl, fun _ _ => rfl⟩
  · cases h
    exact ⟨rfl, rfl, fun _ _ => rfl⟩
  obtain ⟨hbel, hadd⟩ := newRsp_below hlim (by simpa using hchk)
  have htot : frameTotal = 208 := rfl
  have hs : size = 200 := rfl
  have htramp : ∀ x, c.regs.rsp.toNat ≤ x →
      (copyToUserFt u c.mem (newRsp c.regs.rsp) (leBytes 8 act.saRestorer.toNat)).1 x = c.mem x := by
    intro x hx
    refine copyToUserFt_outside u c.mem _ _ (.inr ?_)
    rw [length_leBytes]
    omega
  split at h
  · next m hm =>
      cases h
      rw [hm] at htramp
      exact ⟨rfl, rfl, htramp⟩
  next m hm =>
    rw [hm] at htramp
    split at h
    · next m' hm' =>
        cases h
        refine ⟨rfl, rfl, fun x hx => ?_⟩
        have hfrm : m' x = m x := by
          have hout := copyToUserFt_outside u m (newRsp c.regs.rsp + 8)
            (c.regs.saveFrame c.task.blocked).toBytes (x := x) (.inr (by rw [length_toBytes]; omega))
          rwa [hm'] at hout
        exact hfrm.trans (htramp x hx)
    · cases h

variable {n : Nat}

section

variable (hlim : c.task.addrLimit = USER_ADDR_LIMIT)
include hlim

/-- Entering a handler, from a frame that returns to user mode. -/
lemma deliverHandler_delivered (h : deliverHandler u c sig act = .delivered n c') :
    n = sig ∧ ∃ m, c' = commitDelivery c m sig act ∧ c.regs.cs &&& 3 ≠ 0 ∧
      m.read (newRsp c.regs.rsp).toNat 8 = leBytes 8 act.saRestorer.toNat ∧
      m.read (newRsp c.regs.rsp + 8).toNat size = (c.regs.saveFrame c.task.blocked).toBytes ∧
      (newRsp c.regs.rsp).toNat + frameTotal ≤ c.regs.rsp.toNat ∧
      ∀ x, c.regs.rsp.toNat ≤ x → m x = c.mem x := by
  unfold deliverHandler at h
  split_ifs at h with hcs hr hchk
  obtain ⟨hbel, hadd⟩ := newRsp_below hlim (by simpa using hchk)
  have htot : frameTotal = 208 := rfl
  have hs : size = 200 := rfl
  split at h
  · cases h
  next m hm =>
    split at h
    · cases h
    next m' hm' =>
      cases h
      have hm := copyToUserFt_ok hm
      have hm' := copyToUserFt_ok hm'
      have hfrm := read_write_self m (newRsp c.regs.rsp + 8).toNat (c.regs.saveFrame c.task.blocked).toBytes
      have htramp := read_write_self c.mem (newRsp c.regs.rsp).toNat (leBytes 8 act.saRestorer.toNat)
      rw [← hm'] at hfrm
      rw [length_leBytes, ← hm] at htramp
      refine ⟨rfl, m', rfl, hcs, ?_, hfrm, hbel, fun x hx => ?_⟩
      · rw [hm', read_write_disjoint _ _ _ _ _ (.inl (by omega)), htramp]
      · rw [hm', write_outside _ _ _ (.inr (by
          rw [length_toBytes]; omega)), hm,
          write_outside _ _ _ (.inr (by rw [length_leBytes]; omega))]

/-- An iteration that goes on is a skip. -/
lemma deliverSignal_cont (h : deliverSignal u pending c sig = .cont c') : Skipped c c' := by
  unfold deliverSignal at h
  simp only at h
  split_ifs at h with hp hblk hign hdfl hdef
  · cases h
    exact .refl c
  · cases h
    exact .refl c
  · cases h
    exact .of_clearPending c sig (.inl hign)
  · cases h
    exact .of_clearPending c sig (.inr hdfl)
  · obtain ⟨hr, ht, hmem⟩ := deliverHandler_cont hlim h
    have heq : c' = { c with mem := c'.mem } := by rw [← hr, ← ht]
    rw [heq]
    exact .of_mem c _ hmem

/-- An iteration that delivers, when the signal is still pending. -/
lemma deliverSignal_delivered (hsig : 1 ≤ sig ∧ sig < NSIG)
    (hpending : (c.task.sighand sig).saHandler ≠ SIG_IGN →
      (c.task.sighand sig).saHandler ≠ SIG_DFL →
      c.task.signal.getLsbD sig = pending.getLsbD sig)
    (h : deliverSignal u pending c sig = .delivered n c') : n = sig ∧ Delivered c sig c' := by
  unfold deliverSignal at h
  simp only at h
  split_ifs at h with hp hblk hign hdfl hdef
  obtain ⟨hn, m, rfl, hcs, hr, hfrm, hbel, habove⟩ := deliverHandler_delivered hlim h
  simp only [testBit64_eq, Bool.not_eq_true', Bool.not_eq_false] at hp
  simp only [testBit64_eq, Bool.and_eq_true, bne_iff_ne, not_and,
    Bool.not_eq_true] at hblk
  refine ⟨hn,
    { range := hsig
      pending := (hpending hign hdfl).trans hp
      unblocked := ?_
      user := hcs
      regs := rfl
      blocked := rfl
      cleared := ?_
      pending_sub := fun k hk => ?_
      handler_kept := fun k hne _ _ => ?_
      sighand := rfl
      addrLimit := rfl
      restorer := hr
      frame := hfrm
      below := hbel
      above := habove }⟩
  · by_cases hk : sig = SIGKILL
    · exact .inl hk
    · by_cases hs : sig = SIGSTOP
      · exact .inr (.inl hs)
      · exact .inr (.inr (hblk ⟨hk, hs⟩))
  · simp only [commitDelivery, getLsbD_and_not_bit64, ne_eq, not_true_eq_false, decide_false,
      Bool.and_false]
  · simp only [commitDelivery, getLsbD_and_not_bit64, Bool.and_eq_true] at hk
    exact hk.1
  · simp only [commitDelivery, getLsbD_and_not_bit64, decide_eq_true hne, Bool.and_true]

end

/-! ## The whole call -/

/-- A delivery after some skipped signals is a delivery from the state before them. -/
lemma Delivered.of_skipped {a b : Ctx} (h : Skipped a b) (h' : Delivered b sig c) : Delivered a sig c where
  range := h'.range
  pending := h.pending_sub sig h'.pending
  unblocked := by
    rw [← h.blocked]
    exact h'.unblocked
  user := by
    rw [← h.regs]
    exact h'.user
  regs := by rw [h'.regs, h.regs, h.sighand]
  blocked := by rw [h'.blocked, h.blocked, h.sighand]
  cleared := h'.cleared
  pending_sub n hn := h.pending_sub n (h'.pending_sub n hn)
  handler_kept n hne hi hd := by
    have hi' : (b.task.sighand n).saHandler ≠ SIG_IGN := by rwa [h.sighand]
    have hd' : (b.task.sighand n).saHandler ≠ SIG_DFL := by rwa [h.sighand]
    rw [h'.handler_kept n hne hi' hd', h.handler_kept n hi hd]
  sighand := h'.sighand.trans h.sighand
  addrLimit := h'.addrLimit.trans h.addrLimit
  restorer := by
    rw [← h.regs, ← h.sighand]
    exact h'.restorer
  frame := by
    rw [← h.regs, ← h.blocked]
    exact h'.frame
  below := by
    rw [← h.regs]
    exact h'.below
  above x hx := by
    have hx' : b.regs.rsp.toNat ≤ x := by rwa [h.regs]
    rw [h'.above x hx', h.above x hx]

variable {env : Nat → Uaccess} {sigs : List Nat}

/-- The visited signals are the valid ones. -/
lemma mem_signals (h : n ∈ signals) : 1 ≤ n ∧ n < NSIG := by
  rw [signals, List.mem_range'_1] at h
  omega

section

variable (hlim : c.task.addrLimit = USER_ADDR_LIMIT)
include hlim

/-- A loop that runs to its end only skips. -/
lemma deliverLoop_cont
    (h : deliverLoop env pending sigs c = .cont c') : Skipped c c' := by
  induction sigs generalizing c with
  | nil =>
    cases h
    exact .refl _
  | cons n sigs ih =>
    rw [deliverLoop] at h
    split at h
    · next d hd =>
        have hs := deliverSignal_cont hlim hd
        exact hs.trans (ih (hs.addrLimit.trans hlim) h)
    all_goals cases h

/-- A loop that delivers skips the signals before the delivered one. The signals with handlers
that are still to be looked at are pending exactly when they were on entry. -/
lemma deliverLoop_delivered (hsg : ∀ n ∈ sigs, 1 ≤ n ∧ n < NSIG)
    (hp : ∀ n, (c.task.sighand n).saHandler ≠ SIG_IGN →
      (c.task.sighand n).saHandler ≠ SIG_DFL → c.task.signal.getLsbD n = pending.getLsbD n)
    (h : deliverLoop env pending sigs c = .delivered sig c') : Delivered c sig c' := by
  induction sigs generalizing c with
  | nil => cases h
  | cons n sigs ih =>
    rw [deliverLoop] at h
    split at h
    · next d hd =>
        have hs := deliverSignal_cont hlim hd
        refine .of_skipped hs (ih (hs.addrLimit.trans hlim)
          (fun k hk => hsg k (List.mem_cons_of_mem _ hk)) (fun k hi hd => ?_) h)
        rw [hs.sighand] at hi hd
        rw [hs.handler_kept k hi hd, hp k hi hd]
    · next k d hd =>
        cases h
        obtain ⟨rfl, hdel⟩ := deliverSignal_delivered hlim (hsg n List.mem_cons_self) (hp n) hd
        exact hdel
    · cases h

/-- A call that returns 0 only skips. -/
lemma archDoSignalDelivery_cont
    (h : archDoSignalDelivery env c = .cont c') : Skipped c c' := by
  unfold archDoSignalDelivery at h
  split_ifs at h with hz
  · cases h
    exact .refl c
  · exact deliverLoop_cont hlim h

/-- A call that returns 1 delivers one signal. -/
lemma archDoSignalDelivery_delivered
    (h : archDoSignalDelivery env c = .delivered sig c') : Delivered c sig c' := by
  unfold archDoSignalDelivery at h
  split_ifs at h with hz
  exact deliverLoop_delivered hlim (fun _ => mem_signals) (fun _ _ _ => rfl) h

end

/-! ## Sigreturn -/

/-- A sigreturn is accepted exactly when the frame is readable and returns to ring 3. -/
def SigreturnAccepted (u : Uaccess) (c : Ctx) : Prop :=
  syscallCheckUserRange u c.task c.regs.rsp size false = true ∧
    u.copyFault c.regs.rsp size = none ∧ (frameAt c).cs &&& 3 = 3

/-- The three ways `arch_syscall_sigreturn` ends. -/
lemma archSyscallSigreturn_cases (u : Uaccess) (c : Ctx) :
    (SigreturnAccepted u c ∧ archSyscallSigreturn u c = (c.restoreTo (frameAt c), 0)) ∨
      (¬ SigreturnAccepted u c ∧ ∃ err : Int, err ≠ 0 ∧ archSyscallSigreturn u c = (c, err)) := by
  by_cases hchk : syscallCheckUserRange u c.task c.regs.rsp size false = true
  · cases hfault : u.copyFault c.regs.rsp size with
    | some k =>
      right
      refine ⟨fun hacc => ?_, -EFAULT, by decide, ?_⟩
      · rw [hacc.2.1] at hfault
        cases hfault
      · simp [archSyscallSigreturn, copyFromUserFt, hfault]
    | none =>
      have hr : archSyscallSigreturn u c
          = if (frameAt c).cs &&& 3 ≠ 3 then (c, -EINVAL) else (c.restoreTo (frameAt c), 0) := by
        simp only [archSyscallSigreturn, hchk, copyFromUserFt, hfault, Bool.not_true,
          Bool.false_eq_true, if_false]
        rfl
      by_cases hcs : (frameAt c).cs &&& 3 = 3
      · exact .inl ⟨⟨hchk, hfault, hcs⟩, hr.trans (if_neg (not_not.2 hcs))⟩
      · exact .inr ⟨fun hacc => hcs hacc.2.2, -EINVAL, by decide, hr.trans (if_pos hcs)⟩
  · right
    refine ⟨fun hacc => hchk hacc.1, -EFAULT, by decide, ?_⟩
    simp [archSyscallSigreturn, Bool.eq_false_iff.2 hchk]

/-- An accepted sigreturn restores the frame and suppresses the write-back. -/
lemma sysSigreturn_accepted (h : SigreturnAccepted u c) : sysSigreturn u c = c.restoreTo (frameAt c) := by
  obtain ⟨-, heq⟩ | ⟨hn, -⟩ := archSyscallSigreturn_cases u c
  · rw [sysSigreturn, heq]
    rfl
  · exact absurd h hn

/-- A rejected sigreturn only writes its error back. -/
lemma sysSigreturn_rejected (h : ¬ SigreturnAccepted u c) :
    ∃ err : Int, sysSigreturn u c = writeback c err := by
  obtain ⟨hy, -⟩ | ⟨-, err, herr, heq⟩ := archSyscallSigreturn_cases u c
  · exact absurd hy h
  refine ⟨err, ?_⟩
  rw [sysSigreturn, heq]
  split
  · next c' hc' =>
      exact absurd (congrArg Prod.snd hc') herr
  · next c' e hne hc' =>
      cases hc'
      rfl

/-- The result is zero exactly when the frame is accepted. -/
lemma archSyscallSigreturn_eq_zero : (archSyscallSigreturn u c).2 = 0 ↔ SigreturnAccepted u c := by
  obtain ⟨hy, heq⟩ | ⟨hn, err, herr, heq⟩ := archSyscallSigreturn_cases u c
  · simp [heq, hy]
  · simp [heq, hn, herr]

end OS01.Intr
