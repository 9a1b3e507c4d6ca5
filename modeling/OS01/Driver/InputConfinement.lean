import OS01.Lib.Run
import OS01.Driver.InputRoute

/-!
# What a lease of the input route lets through

The route is run together with an observer that sees the keyboard bytes, the calls and what they return. The
observer cuts the bytes into scan sequences by itself, notes for each the epochs in which it began and ended and
whether its key was isolated, and collects the leases, the bytes that were read from the ACTIVE queue and the
sequences that were published to the NORMAL path.

`Confined` is the invariant. While a lease is live, the bytes read in it followed by those still queued are
the sequences of its epoch, unless the queue has overflowed and can no longer be read. The theorem is
`lease_confinement`: in every run and for every lease of it, the bytes read are a prefix of the sequences that
began and ended in the lease's epoch and were not isolated, only the leased keyboard file has read them,
nothing was published to the NORMAL path in that epoch, no other lease has it, and no sequence that was complete before the lease
belongs to it.
-/

namespace OS01.Driver

open Nat Function Route List Lib Bool Ring

/-! ## The observer's view of the byte stream -/

/-- `Complete`, decided. -/
def isSequence : List UInt8 → Bool
  | [b] => b != PS2_E0 && b != PS2_E1
  | [p, b] => p == PS2_E0 && b != 0x2A && b != 0xB7 && b != PS2_E0 && b != PS2_E1
  | l => l == [PS2_E0, 0x2A, PS2_E0, PS2_PS_MAKE_TAIL] || l == [PS2_E0, 0xB7, PS2_E0, PS2_PS_BREAK_TAIL] ||
      l == [PS2_E1, PS2_PAUSE_CTRL, PS2_PAUSE_KEY, PS2_E1, PS2_PAUSE_TAIL_1, PS2_PAUSE_TAIL_2]

variable {l : List UInt8}

lemma isSequence_of_complete (h : Complete l) : isSequence l = true := by
  cases h with
  | code b hb =>
    rw [isSequence, and_eq_true, bne_iff_ne, bne_iff_ne]
    exact hb
  | extended b hb =>
    obtain ⟨⟨hA, hB⟩, h0, h1⟩ := hb
    simp [isSequence, hA, hB, h0, h1]
  | _ => decide

lemma complete_of_isSequence (h : isSequence l = true) : Complete l := by
  match l, h with
  | [], h => cases h
  | [b], h =>
    rw [isSequence, and_eq_true, bne_iff_ne, bne_iff_ne] at h
    exact .code b h
  | [p, b], h =>
    simp only [isSequence, and_eq_true, bne_iff_ne, beq_iff_eq] at h
    obtain ⟨⟨⟨⟨rfl, hA⟩, hB⟩, h0⟩, h1⟩ := h
    exact .extended b ⟨⟨hA, hB⟩, h0, h1⟩
  | a :: b :: c :: l, h =>
    rw [isSequence, or_eq_true, or_eq_true, beq_iff_eq, beq_iff_eq, beq_iff_eq] at h
    · obtain (h | h) | h := h
      · rw [h]
        exact .printScreenDown
      · rw [h]
        exact .printScreenUp
      · rw [h]
        exact .pause
    all_goals simp

instance (l : List UInt8) : Decidable (Complete l) :=
  decidable_of_iff (isSequence l = true) ⟨complete_of_isSequence, isSequence_of_complete⟩

/-- A beginning of a sequence that is not a sequence itself. -/
def isBeginning (l : List UInt8) : Bool :=
  [FramePhase.e0, .psMake, .psMakeE0, .psBreak, .psBreakE0, .pause1D, .pause45, .pauseE1, .pause9D,
    .pauseC5].any fun p => p.seen == l

lemma isBeginning_seen {p : FramePhase} (h : p ≠ .idle) : isBeginning p.seen = true := by
  cases p with
  | idle => exact absurd rfl h
  | _ => decide

/-- Every phase can end in a sequence. -/
lemma FramePhase.exists_complete (p : FramePhase) : ∃ rest, Complete (p.seen ++ rest) := by
  cases p with
  | idle => exact ⟨[0x1E], .code 0x1E (by decide)⟩
  | e0 => exact ⟨[0x1D], .extended 0x1D (by decide)⟩
  | psMake => exact ⟨[PS2_E0, PS2_PS_MAKE_TAIL], .printScreenDown⟩
  | psMakeE0 => exact ⟨[PS2_PS_MAKE_TAIL], .printScreenDown⟩
  | psBreak => exact ⟨[PS2_E0, PS2_PS_BREAK_TAIL], .printScreenUp⟩
  | psBreakE0 => exact ⟨[PS2_PS_BREAK_TAIL], .printScreenUp⟩
  | _ => exact ⟨_, .pause⟩

lemma exists_complete_of_isBeginning (h : isBeginning l = true) : ∃ rest, Complete (l ++ rest) := by
  rw [isBeginning, any_eq_true] at h
  obtain ⟨p, -, hp⟩ := h
  rw [beq_iff_eq] at hp
  exact hp ▸ p.exists_complete

/-- A beginning is not a sequence. -/
lemma not_complete_of_isBeginning (h : isBeginning l = true) : ¬ Complete l := by
  rw [isBeginning, any_eq_true] at h
  obtain ⟨p, hp, hl⟩ := h
  rw [beq_iff_eq] at hl
  subst hl
  revert p
  decide

/-! ## The observer -/

/-- A sequence that has been seen: its bytes, the epochs of its first and its last byte, and whether its key was
isolated at its end. -/
structure Sequence where
  bytes : List UInt8
  started : Nat
  ended : Nat
  isolated : Bool

/-- A lease that was granted: its generation, its epoch, its keyboard file, and how many sequences had been seen
before. -/
structure LeaseRecord where
  generation : Nat
  epoch : Nat
  kbd : RouteFile
  before : Nat

/-- Bytes that were read from the ACTIVE queue: by which file and in the lease of which generation. -/
structure ActiveRead where
  file : RouteFile
  generation : Nat
  bytes : List UInt8

/-- A publication on the NORMAL path, with the epoch it was made in. -/
structure NormalFrame where
  epoch : Nat
  bytes : List UInt8

/-- The route and its observer. -/
structure Watched where
  route : Route
  acc : List UInt8
  start : Nat
  log : List Sequence
  leases : List LeaseRecord
  reads : List ActiveRead
  normal : List NormalFrame

/-- What happens to the route. -/
inductive RouteEvent
  | openFile (device : InputDevice) (f : RouteFile)
  | close (f : RouteFile)
  | bind (view : Option View) (kbd mouse : Option RouteFile)
  | unbind (view : Option View) (generation : Nat) (reason : Int)
  | byte (b : UInt8)
  | mouse (event : MouseEvent)
  | read (f : RouteFile) (size : Nat)

namespace Watched

/-- What the observer makes of a byte, where `out` is what the route published to the NORMAL path. -/
def seeByte (w : Watched) (b : UInt8) (out : Option (Frame × Modifiers)) (route : Route) : Watched :=
  let acc := w.acc ++ [b]
  let start := if w.acc = [] then w.route.epoch else w.start
  let normal :=
    match out with
    | none => w.normal
    | some (frame, _) => w.normal ++ [⟨w.route.epoch, frame.payload⟩]
  if Complete acc then
    { w with
      route, start, normal
      acc := []
      log := w.log ++ [⟨acc, start, w.route.epoch, (keyOfSequence acc).any w.route.isolated⟩] }
  else if isBeginning acc then { w with route, start, normal, acc }
  else { w with route, start, normal, acc := [] }

/-- An event. A file that is opened is a new one. -/
def next (w : Watched) : RouteEvent → Watched
  | .openFile device f =>
    if (w.route.files f).isNone then { w with route := w.route.openFile device f } else w
  | .close f => { w with route := w.route.releaseFile f }
  | .bind view kbd mouse =>
    match w.route.bind view kbd mouse, kbd with
    | (.ok (generation, _), route), some f =>
      { w with route, leases := w.leases ++ [⟨generation, route.epoch, f, w.log.length⟩] }
    | (_, route), _ => { w with route }
  | .unbind view generation reason => { w with route := w.route.unbind view generation reason }
  | .byte b =>
    match w.route.keyboardByte b with
    | (out, route) => w.seeByte b out route
  | .mouse event => { w with route := (w.route.mouseEvent event).2 }
  | .read f size =>
    match w.route.read f size with
    | (.keys bytes, route) => { w with route, reads := w.reads ++ [⟨f, w.route.generation, bytes⟩] }
    | (_, route) => { w with route }

/-- The sequences of an epoch that are not isolated, one after the other. -/
def accepted (log : List Sequence) (epoch : Nat) : List UInt8 :=
  (log.filter fun q => decide (q.started = epoch) && decide (q.ended = epoch) && !q.isolated).flatMap
    Sequence.bytes

/-- The bytes read in the lease of a generation. -/
def bytesRead (reads : List ActiveRead) (generation : Nat) : List UInt8 :=
  (reads.filter fun rd => decide (rd.generation = generation)).flatMap ActiveRead.bytes

/-- Nothing has happened yet. -/
def init : Watched := ⟨routeInit, [], 0, [], [], [], []⟩

lemma accepted_append (log : List Sequence) (q : Sequence) (epoch : Nat) :
    accepted (log ++ [q]) epoch = accepted log epoch ++
      if q.started = epoch ∧ q.ended = epoch ∧ q.isolated = false then q.bytes else [] := by
  rw [accepted, accepted, filter_append, flatMap_append]
  rw [filter_singleton]
  split_ifs with h
  · simp [h.1, h.2.1, h.2.2]
  have hfalse : (decide (q.started = epoch) && decide (q.ended = epoch) && !q.isolated) = false := by
    rw [eq_false_iff]
    intro ht
    simp only [and_eq_true, decide_eq_true_eq, not_eq_true'] at ht
    exact h ⟨ht.1.1, ht.1.2, ht.2⟩
  rw [hfalse]
  rfl

lemma bytesRead_append (reads : List ActiveRead) (rd : ActiveRead) (generation : Nat) :
    bytesRead (reads ++ [rd]) generation = bytesRead reads generation ++
      if rd.generation = generation then rd.bytes else [] := by
  rw [bytesRead, bytesRead]
  by_cases h : rd.generation = generation
  all_goals simp [h]

lemma accepted_eq_nil {log : List Sequence} {epoch : Nat} (h : ∀ q ∈ log, q.ended ≠ epoch) :
    accepted log epoch = [] := by
  rw [accepted, filter_eq_nil_iff.2, flatMap_nil]
  intro q hq
  simp [h q hq]

lemma bytesRead_eq_nil {reads : List ActiveRead} {generation : Nat}
    (h : ∀ rd ∈ reads, rd.generation ≠ generation) : bytesRead reads generation = [] := by
  rw [bytesRead, filter_eq_nil_iff.2, flatMap_nil]
  intro rd hrd
  simp [h rd hrd]

end Watched

/-! ## What the route does to the lease and the queue -/

namespace Route

/-- The device of an open file. -/
def deviceOf (r : Route) (f : RouteFile) : Option InputDevice := (r.files f).map RouteEndpoint.device

lemma device_revokeEndpoint (generation : Nat) (reason : Int) (ep : RouteEndpoint) :
    (revokeEndpoint generation reason ep).device = ep.device := by
  rw [revokeEndpoint]
  split_ifs <;> rfl

lemma device_joinEndpoint (generation : Nat) (ep : RouteEndpoint) :
    (joinEndpoint generation ep).device = ep.device := rfl

/-- Changing an endpoint keeps the device of every file. -/
lemma device_updateEndpoint {files : RouteFile → Option RouteEndpoint} {g : Option RouteFile}
    {change : RouteEndpoint → RouteEndpoint} (hchg : ∀ ep, (change ep).device = ep.device) (f : RouteFile) :
    (updateEndpoint files g change f).map RouteEndpoint.device = (files f).map RouteEndpoint.device := by
  cases g with
  | none => rfl
  | some g =>
    rw [updateEndpoint]
    by_cases hfg : f = g
    · subst hfg
      rw [update_self]
      cases files f with
      | none => rfl
      | some ep => exact congrArg some (hchg ep)
    · rw [update_of_ne hfg]

/-- The end of a lease, as far as the lease and the keyboard queue are concerned. -/
structure Ended (r r' : Route) : Prop where
  inactive : r'.leaseActive = false
  epoch : r'.epoch = r.epoch + 1
  generation : r'.nextGeneration = r.nextGeneration
  framer : r'.framer = r.framer
  frame : r'.frame = r.frame
  queue : r'.kbdQueue.contents = []
  overflow : r'.kbdOverflow = false
  mouse : r'.mouseEp = none
  devices : ∀ f, r'.deviceOf f = r.deviceOf f

variable {r : Route}

/-- **Revoking** a live lease. -/
lemma ended_revoke (h : r.leaseActive = true) (reason : Int) : Ended r (r.revoke reason) := by
  rw [revoke, if_neg (not_not.2 h)]
  refine ⟨rfl, rfl, rfl, rfl, rfl, ?_, rfl, rfl, fun f => ?_⟩
  · rw [← empty_iff]
    rfl
  · exact (device_updateEndpoint (device_revokeEndpoint _ _) f).trans
      (device_updateEndpoint (device_revokeEndpoint _ _) f)

lemma revoke_of_inactive (h : r.leaseActive = false) (reason : Int) : r.revoke reason = r := by
  rw [revoke, h]
  exact if_pos Bool.false_ne_true

/-- Nothing that concerns the lease, the framer and the keyboard queue has changed. -/
structure Same (r r' : Route) : Prop where
  active : r'.leaseActive = r.leaseActive
  generation : r'.generation = r.generation
  next : r'.nextGeneration = r.nextGeneration
  epoch : r'.epoch = r.epoch
  kbd : r.leaseActive = true → r'.kbdEp = r.kbdEp
  framer : r'.framer = r.framer
  frame : r'.frame = r.frame
  queue : r'.kbdQueue = r.kbdQueue
  overflow : r'.kbdOverflow = r.kbdOverflow
  mouse : ∀ f, r'.mouseEp = some f → r.deviceOf f = some .mouse → r'.deviceOf f = some .mouse
  mouseEp : ∀ f, r'.mouseEp = some f → r.mouseEp = some f

end Route

namespace Watched

/-! ## The invariant -/

/-- The bytes of a lease are confined to it. -/
structure Confined (w : Watched) : Prop where
  tracks : Tracks w.route.framer w.route.frame
  acc : w.acc = w.route.framer.phase.seen
  start : w.route.framer.phase ≠ .idle → w.route.frame.startEpoch = w.start
  log : ∀ q ∈ w.log, q.ended ≤ w.route.epoch
  leases : ∀ l ∈ w.leases,
    l.epoch ≤ w.route.epoch ∧ l.generation ≤ w.route.nextGeneration ∧ l.before ≤ w.log.length
  order : w.leases.Pairwise fun a b => a.epoch < b.epoch ∧ a.generation < b.generation
  reads : ∀ rd ∈ w.reads, ∃ l ∈ w.leases, rd.generation = l.generation ∧ rd.file = l.kbd
  before : ∀ l ∈ w.leases, ∀ q ∈ w.log.take l.before, q.ended ≠ l.epoch
  normal : ∀ p ∈ w.normal, p.epoch ≤ w.route.epoch ∧ ∀ l ∈ w.leases, p.epoch ≠ l.epoch
  kept : ∀ l ∈ w.leases, bytesRead w.reads l.generation <+: accepted w.log l.epoch
  mouse : ∀ f, w.route.mouseEp = some f → w.route.deviceOf f = some .mouse
  live : w.route.leaseActive = true → ∃ l ∈ w.leases, l.generation = w.route.generation ∧
    l.epoch = w.route.epoch ∧ w.route.kbdEp = some l.kbd ∧
    (w.route.kbdOverflow = false →
      bytesRead w.reads l.generation ++ w.route.kbdQueue.contents = accepted w.log l.epoch)
  idle : w.route.leaseActive = false → w.route.kbdQueue.contents = [] ∧ w.route.kbdOverflow = false ∧
    ∀ l ∈ w.leases, l.epoch < w.route.epoch

variable {w : Watched} {r : Route}

section

variable (h : Confined w)
include h

/-- What does not concern the lease keeps the invariant. -/
lemma Confined.of_same (hs : w.route.Same r) : Confined { w with route := r } where
  tracks := by rw [hs.framer, hs.frame]; exact h.tracks
  acc := by rw [hs.framer]; exact h.acc
  start := by rw [hs.framer, hs.frame]; exact h.start
  log := by rw [hs.epoch]; exact h.log
  leases := by rw [hs.epoch, hs.next]; exact h.leases
  order := h.order
  reads := h.reads
  before := h.before
  normal := by rw [hs.epoch]; exact h.normal
  kept := h.kept
  mouse f hf := hs.mouse f hf (h.mouse f (hs.mouseEp f hf))
  live hact := by
    rw [hs.active] at hact
    rw [hs.generation, hs.epoch, hs.kbd hact, hs.overflow, hs.queue]
    exact h.live hact
  idle := by rw [hs.active, hs.epoch, hs.overflow, hs.queue]; exact h.idle

/-- The end of a lease keeps the invariant. -/
lemma Confined.of_ended (he : w.route.Ended r) : Confined { w with route := r } where
  tracks := by rw [he.framer, he.frame]; exact h.tracks
  acc := by rw [he.framer]; exact h.acc
  start := by rw [he.framer, he.frame]; exact h.start
  log q hq := by
    rw [he.epoch]
    exact le_succ_of_le (h.log q hq)
  leases l hl := by
    obtain ⟨hle, hgen, hbef⟩ := h.leases l hl
    rw [he.epoch, he.generation]
    exact ⟨le_succ_of_le hle, hgen, hbef⟩
  order := h.order
  reads := h.reads
  before := h.before
  normal p hp := by
    rw [he.epoch]
    exact ⟨le_succ_of_le (h.normal p hp).1, (h.normal p hp).2⟩
  kept := h.kept
  mouse f hf := by
    rw [he.mouse] at hf
    cases hf
  live hact := by
    rw [he.inactive] at hact
    cases hact
  idle _ := by
    refine ⟨he.queue, he.overflow, fun l hl => ?_⟩
    rw [he.epoch]
    exact lt_succ_of_le (h.leases l hl).1

/-- Revoking keeps the invariant. -/
lemma Confined.revoke (reason : Int) : Confined { w with route := w.route.revoke reason } := by
  cases hact : w.route.leaseActive with
  | false =>
    rw [revoke_of_inactive hact]
    exact h
  | true => exact h.of_ended (ended_revoke hact reason)

lemma Confined.unbind (view : Option View) (generation : Nat) (reason : Int) :
    Confined { w with route := w.route.unbind view generation reason } := by
  rw [Route.unbind]
  split_ifs <;> first | exact h | exact h.revoke reason

lemma Confined.openFile (device : InputDevice) (f : RouteFile)
    (hnew : w.route.files f = none) : Confined { w with route := w.route.openFile device f } := by
  refine h.of_same ⟨rfl, rfl, rfl, rfl, fun _ => rfl, rfl, rfl, rfl, rfl, ?_, fun _ hg => hg⟩
  intro g _ hg
  have hgf : g ≠ f := by
    rintro rfl
    rw [Route.deviceOf, hnew] at hg
    cases hg
  rw [Route.deviceOf, Route.openFile]
  dsimp only
  rw [update_of_ne hgf]
  exact hg

lemma Confined.releaseFile (f : RouteFile) : Confined { w with route := w.route.releaseFile f } := by
  rw [Route.releaseFile]
  cases hf : w.route.files f with
  | none => exact h
  | some ep =>
    -- the lease has ended where the file was bound
    generalize hr : (if w.route.leaseActive && (w.route.kbdEp == some f || w.route.mouseEp == some f) then
      w.route.revoke 0 else w.route) = r
    have hc : Confined { w with route := r } := by
      rw [← hr]
      split_ifs
      · exact h.revoke 0
      · exact h
    have hkbd : r.leaseActive = true → r.kbdEp ≠ some f := by
      intro hact hk
      by_cases hb : (w.route.leaseActive && (w.route.kbdEp == some f || w.route.mouseEp == some f)) = true
      · rw [if_pos hb] at hr
        have hact0 : w.route.leaseActive = true := (and_eq_true _ _ ▸ hb).1
        rw [← hr, (ended_revoke hact0 0).inactive] at hact
        cases hact
      · rw [if_neg hb] at hr
        subst hr
        apply hb
        rw [hact, hk]
        simp
    refine hc.of_same (r := { r with
      kbdEp := if r.kbdEp = some f then none else r.kbdEp
      mouseEp := if r.mouseEp = some f then none else r.mouseEp
      files := update r.files f none })
      ⟨rfl, rfl, rfl, rfl, fun hact => if_neg (hkbd hact), rfl, rfl, rfl, rfl, ?_, ?_⟩
    · intro g hg hdev
      have hgf : g ≠ f := by
        rintro rfl
        dsimp only at hg
        split_ifs at hg with hm
        exact hm hg
      rw [Route.deviceOf]
      dsimp only
      rw [update_of_ne hgf]
      exact hdev
    · intro g hg
      dsimp only at hg
      split_ifs at hg
      exact hg

end

/-! ### Binding -/

/-- What a bind that succeeds does, where `r₁` is the route after the old lease has ended. -/
structure Bound (r₁ r : Route) (kbd : RouteFile) : Prop where
  active : r.leaseActive = true
  generation : r.generation = r₁.nextGeneration + 1
  next : r.nextGeneration = r₁.nextGeneration + 1
  epoch : r.epoch = r₁.epoch + 1
  kbd : r.kbdEp = some kbd
  framer : r.framer = r₁.framer
  frame : r.frame = r₁.frame
  queue : r.kbdQueue = r₁.kbdQueue
  overflow : r.kbdOverflow = r₁.kbdOverflow
  mouse : ∀ f, r.mouseEp = some f → r.deviceOf f = some .mouse

/-- A lease that starts when there is none. -/
lemma Confined.bound {kbd : RouteFile} (h : Confined w)
    (hi : w.route.leaseActive = false) (hb : Bound w.route r kbd) : Confined { w with
      route := r, leases := w.leases ++ [⟨w.route.nextGeneration + 1, r.epoch, kbd, w.log.length⟩] } := by
  obtain ⟨hque, hoverflow, hps⟩ := h.idle hi
  have hnolog : accepted w.log r.epoch = [] := accepted_eq_nil fun q hq => by
    have hle := h.log q hq
    have he := hb.epoch
    omega
  have hnoread : bytesRead w.reads (w.route.nextGeneration + 1) = [] := bytesRead_eq_nil fun rd hrd => by
    obtain ⟨l, hl, hgen, -⟩ := h.reads rd hrd
    have hle := (h.leases l hl).2.1
    omega
  constructor
  · rw [hb.framer, hb.frame]
    exact h.tracks
  · rw [hb.framer]
    exact h.acc
  · rw [hb.framer, hb.frame]
    exact h.start
  · intro q hq
    rw [hb.epoch]
    exact le_succ_of_le (h.log q hq)
  · intro l hl
    obtain hl | hl := mem_append.1 hl
    · obtain ⟨hle, hgen, hbef⟩ := h.leases l hl
      rw [hb.epoch, hb.next]
      exact ⟨le_succ_of_le hle, le_succ_of_le hgen, hbef⟩
    · obtain rfl := mem_singleton.1 hl
      exact ⟨le_rfl, hb.next.ge, le_rfl⟩
  · refine pairwise_append.2 ⟨h.order, pairwise_singleton .., fun a ha b hbm => ?_⟩
    obtain rfl := mem_singleton.1 hbm
    have hle := h.leases a ha
    have he := hb.epoch
    exact ⟨by dsimp only; omega, by dsimp only; omega⟩
  · intro rd hrd
    obtain ⟨l, hl, hrd'⟩ := h.reads rd hrd
    exact ⟨l, mem_append_left _ hl, hrd'⟩
  · intro l hl q hq
    obtain hl | hl := mem_append.1 hl
    · exact h.before l hl q hq
    · obtain rfl := mem_singleton.1 hl
      have hle := h.log q (mem_of_mem_take hq)
      have he := hb.epoch
      dsimp only
      omega
  · intro p hp
    obtain ⟨hle, hne⟩ := h.normal p hp
    refine ⟨by rw [hb.epoch]; exact le_succ_of_le hle, fun l hl => ?_⟩
    obtain hl | hl := mem_append.1 hl
    · exact hne l hl
    · obtain rfl := mem_singleton.1 hl
      have he := hb.epoch
      dsimp only
      omega
  · intro l hl
    obtain hl | hl := mem_append.1 hl
    · exact h.kept l hl
    · obtain rfl := mem_singleton.1 hl
      rw [hnoread]
      exact nil_prefix
  · exact hb.mouse
  · intro _
    refine ⟨_, mem_append_right _ (mem_singleton_self _), hb.generation.symm, rfl, hb.kbd, fun _ => ?_⟩
    rw [hnoread, hnolog, hb.queue, hque]
    rfl
  · intro hact
    rw [hb.active] at hact
    cases hact

/-- The lease that a bind replaces has ended. -/
lemma Confined.replaced (h : Confined w) :
    Confined { w with route := w.route.replaced } ∧ w.route.replaced.leaseActive = false := by
  rw [Route.replaced]
  cases hact : w.route.leaseActive with
  | false =>
    exact ⟨h, hact⟩
  | true =>
    exact ⟨h.revoke ESTALE, (ended_revoke hact ESTALE).inactive⟩

lemma deviceOf_replaced (r : Route) (f : RouteFile) : r.replaced.deviceOf f = r.deviceOf f := by
  rw [replaced]
  split_ifs with hact
  · exact (ended_revoke hact ESTALE).devices f
  · rfl

variable {f : RouteFile} {a b : LeaseRecord} {bytes : List UInt8} {frame : Frame}

lemma deviceOf_of_leasable {device : InputDevice}
    (h : r.leasable device f = true) : r.deviceOf f = some device := by
  rw [leasable] at h
  rw [deviceOf]
  cases hep : r.files f with
  | none =>
    rw [hep] at h
    cases h
  | some ep =>
    rw [hep] at h
    simp only [and_eq_true, decide_eq_true_eq] at h
    exact congrArg some h.1

/-- A bind fails and changes nothing, or it starts a lease. -/
lemma bind_cases (r : Route) (view : Option View) (kbd mouse : Option RouteFile) :
    (∃ e, r.bind view kbd mouse = (.error e, r)) ∨
      ∃ f mods r', kbd = some f ∧ r.bind view kbd mouse = (.ok (r.replaced.nextGeneration + 1, mods), r') ∧
        Bound r.replaced r' f := by
  rw [bind.eq_def]
  cases view with
  | none => exact .inl ⟨_, rfl⟩
  | some view =>
    cases kbd with
    | none => exact .inl ⟨_, rfl⟩
    | some f =>
      dsimp only
      by_cases hkbd : r.leasable .keyboard f = true
      swap
      · rw [if_pos hkbd]
        exact .inl ⟨_, rfl⟩
      rw [if_neg (not_not.2 hkbd)]
      by_cases hmouse : mouse.all (r.leasable .mouse) = true
      swap
      · rw [if_pos hmouse]
        exact .inl ⟨_, rfl⟩
      rw [if_neg (not_not.2 hmouse)]
      refine .inr ⟨f, _, _, rfl, rfl, rfl, rfl, rfl, rfl, rfl, rfl, rfl, rfl, rfl, ?_⟩
      intro g hg
      subst hg
      have hdev : r.deviceOf g = some .mouse := deviceOf_of_leasable hmouse
      refine Eq.trans ?_ ((deviceOf_replaced r g).trans hdev)
      simp [deviceOf, device_updateEndpoint (device_joinEndpoint _)]

lemma Confined.bind (h : Confined w) (view : Option View) (kbd mouse : Option RouteFile) :
    Confined (w.next (.bind view kbd mouse)) := by
  unfold next
  obtain ⟨e, he⟩ | ⟨f, mods, r', rfl, hok, hbd⟩ := bind_cases w.route view kbd mouse
  · simp only [he]
    exact h
  · simp only [hok]
    obtain ⟨hc, hi⟩ := h.replaced
    exact hc.bound hi hbd

/-! ### Reading -/

/-- Records in the order of a number are told apart by it. -/
lemma eq_of_ordered {l : List LeaseRecord} {key : LeaseRecord → Nat} (hord : l.Pairwise fun a b => key a < key b)
    (ha : a ∈ l) (hb : b ∈ l) (hkey : key a = key b) : a = b := by
  obtain ⟨i, hi, rfl⟩ := getElem_of_mem ha
  obtain ⟨j, hj, rfl⟩ := getElem_of_mem hb
  have hlt := pairwise_iff_getElem.1 hord
  obtain hij | rfl | hij := Nat.lt_trichotomy i j
  · exact absurd hkey (Nat.ne_of_lt (hlt i j hi hj hij))
  · rfl
  · exact absurd hkey.symm (Nat.ne_of_lt (hlt j i hj hi hij))

section

variable (h : Confined w)
include h

/-- A generation names one lease. -/
lemma Confined.eq_of_generation (ha : a ∈ w.leases) (hb : b ∈ w.leases)
    (hgen : a.generation = b.generation) : a = b := eq_of_ordered (h.order.imp fun hab => hab.2) ha hb hgen

/-- Bytes are taken from the queue by the leased file. -/
lemma Confined.take (hact : w.route.leaseActive = true)
    (hf : w.route.kbdEp = some f) (ho : w.route.kbdOverflow = false) {n : Nat}
    (hn : n ≤ w.route.kbdQueue.avail) : Confined { w with
      route := { w.route with kbdQueue := w.route.kbdQueue.drop n }
      reads := w.reads ++ [⟨f, w.route.generation, w.route.kbdQueue.contents.take n⟩] } := by
  obtain ⟨l, hl, hgen, hep, hkbd, hc⟩ := h.live hact
  have hfl : f = l.kbd := Option.some.inj (hf.symm.trans hkbd)
  have hr : bytesRead (w.reads ++ [⟨f, w.route.generation, w.route.kbdQueue.contents.take n⟩])
      l.generation = bytesRead w.reads l.generation ++ w.route.kbdQueue.contents.take n := by
    rw [bytesRead_append, if_pos hgen.symm]
  have hall : bytesRead (w.reads ++ [⟨f, w.route.generation, w.route.kbdQueue.contents.take n⟩])
      l.generation ++ (w.route.kbdQueue.drop n).contents = accepted w.log l.epoch := by
    rw [hr, contents_drop hn, append_assoc, take_append_drop, hc ho]
  refine ⟨h.tracks, h.acc, h.start, h.log, h.leases, h.order, ?_, h.before, h.normal, ?_, h.mouse, ?_, ?_⟩
  · intro rd hrd
    obtain hrd | hrd := mem_append.1 hrd
    · exact h.reads rd hrd
    · obtain rfl := mem_singleton.1 hrd
      exact ⟨l, hl, hgen.symm, hfl⟩
  · intro l' hl'
    by_cases hs : l'.generation = l.generation
    · obtain rfl := h.eq_of_generation hl' hl hs
      exact ⟨_, hall⟩
    · dsimp only
      rw [bytesRead_append, if_neg (fun he => hs (he.symm.trans hgen.symm)), append_nil]
      exact h.kept l' hl'
  · intro _
    exact ⟨l, hl, hgen, hep, hkbd, fun _ => hall⟩
  · intro hi
    rw [hact] at hi
    cases hi

lemma Confined.read (f : RouteFile) (size : Nat) : Confined (w.next (.read f size)) := by
  unfold next Route.read
  dsimp only
  cases hep : w.route.files f with
  | none => exact h
  | some ep =>
    dsimp only
    by_cases hrev : ep.revoked = true ∧ ep.error ≠ 0
    · rw [if_pos hrev]
      exact h
    rw [if_neg hrev]
    by_cases hb : w.route.deviceIsLeased ep = true ∧ ¬ w.route.endpointIsOwner f = true
    · rw [if_pos hb]
      exact h
    rw [if_neg hb]
    by_cases hown : w.route.endpointIsOwner f = true
    swap
    · rw [if_neg hown]
      exact h
    rw [if_pos hown, activeRead]
    rw [endpointIsOwner, and_eq_true, or_eq_true, beq_iff_eq, beq_iff_eq] at hown
    cases hdev : ep.device with
    | keyboard =>
      have hkbd : w.route.kbdEp = some f := by
        obtain hk | hm := hown.2
        · exact hk
        · have hmouse := h.mouse f hm
          rw [Route.deviceOf, hep] at hmouse
          exact absurd (hdev.symm.trans (Option.some.inj hmouse)) (by decide)
      dsimp only
      by_cases hdesync : w.route.kbdDesync = true
      · rw [if_pos hdesync]
        exact h
      rw [if_neg hdesync]
      by_cases ho : w.route.kbdOverflow = true
      · rw [if_pos ho]
        exact h
      rw [if_neg ho]
      by_cases hemp : w.route.kbdQueue.avail = 0
      · rw [if_pos hemp]
        exact h
      rw [if_neg hemp]
      have hn : (if size < w.route.kbdQueue.avail then size else w.route.kbdQueue.avail) ≤
          w.route.kbdQueue.avail := by
        split_ifs <;> omega
      rw [map_range_eq_take _ hn]
      exact h.take hown.1 hkbd (eq_false_iff.2 ho) hn
    | mouse =>
      dsimp only
      have hs : ∀ es, Confined { w with route := { w.route with mouseQueue := es } } := fun es =>
        h.of_same ⟨rfl, rfl, rfl, rfl, fun _ => rfl, rfl, rfl, rfl, rfl, fun _ _ hg => hg, fun _ hg => hg⟩
      split_ifs
      · exact h
      · exact h
      · exact h
      · exact hs _

/-! ### Keyboard bytes -/

/-- What publishing a sequence of bytes `bytes` does, where `fits` says that the sequence belongs to the epoch and
is not isolated. -/
structure Published (r r' : Route) (out : Option (Frame × Modifiers)) (bytes : List UInt8) (fits : Prop)
    [Decidable fits] : Prop where
  active : r'.leaseActive = r.leaseActive
  generation : r'.generation = r.generation
  next : r'.nextGeneration = r.nextGeneration
  epoch : r'.epoch = r.epoch
  kbd : r'.kbdEp = r.kbdEp
  mouseEp : r'.mouseEp = r.mouseEp
  files : r'.files = r.files
  framer : r'.framer = r.framer
  frame : r'.frame = r.frame
  live : r.leaseActive = true → out = none ∧ (r'.kbdOverflow = false → r.kbdOverflow = false ∧
    r'.kbdQueue.contents = r.kbdQueue.contents ++ if fits then bytes else [])
  idle : r.leaseActive = false → r'.kbdQueue = r.kbdQueue ∧ r'.kbdOverflow = r.kbdOverflow

/-- A sequence has been seen and published. -/
lemma Confined.logged {q : Sequence} (hended : q.ended = w.route.epoch) (r₁ : Route)
    {out : Option (Frame × Modifiers)} (hframer : r₁.framer.phase = .idle)
    (hr₁ : r₁ = { w.route with framer := r₁.framer, frame := r₁.frame })
    (hp : Published r₁ r out q.bytes (q.started = w.route.epoch ∧ q.isolated = false)) (start : Nat)
    (normal : List NormalFrame) (hnormal : normal = w.normal ∨
      ∃ bytes, out.isSome = true ∧ normal = w.normal ++ [⟨w.route.epoch, bytes⟩]) :
    Confined { w with route := r, acc := [], start, log := w.log ++ [q], normal } := by
  have hact : r₁.leaseActive = w.route.leaseActive := by rw [hr₁]
  have hgen : r.generation = w.route.generation := by rw [hp.generation, hr₁]
  have hn : r.nextGeneration = w.route.nextGeneration := by rw [hp.next, hr₁]
  have hep : r.epoch = w.route.epoch := by rw [hp.epoch, hr₁]
  have hi : r.framer.phase = .idle := by rw [hp.framer, hframer]
  -- a sequence belongs to the lease that is live at its end, or to none
  have hacc : ∀ l ∈ w.leases, accepted w.log l.epoch <+: accepted (w.log ++ [q]) l.epoch := by
    intro l _
    rw [accepted_append]
    exact prefix_append _ _
  constructor
  · exact ⟨fun hb => absurd hi hb, fun hb => absurd hi hb, fun hb => absurd hi hb⟩
  · rw [hi]
    rfl
  · exact fun hb => absurd hi hb
  · intro q' hq'
    rw [hep]
    obtain hq' | hq' := mem_append.1 hq'
    · exact h.log q' hq'
    · obtain rfl := mem_singleton.1 hq'
      exact hended.le
  · intro l hl
    obtain ⟨hle, hg, hbef⟩ := h.leases l hl
    rw [hep, hn]
    refine ⟨hle, hg, ?_⟩
    rw [length_append]
    exact le_add_right_of_le hbef
  · exact h.order
  · exact h.reads
  · intro l hl q' hq'
    rw [take_append_of_le_length (h.leases l hl).2.2] at hq'
    exact h.before l hl q' hq'
  · intro p hpn
    rw [hep]
    obtain hs | ⟨bytes, hout, hnew⟩ := hnormal
    · rw [hs] at hpn
      exact h.normal p hpn
    rw [hnew] at hpn
    obtain hpn | hpn := mem_append.1 hpn
    · exact h.normal p hpn
    obtain rfl := mem_singleton.1 hpn
    -- the NORMAL path is used only while there is no lease
    cases hactive : w.route.leaseActive with
    | true =>
      rw [((hp.live (hact.trans hactive)).1)] at hout
      cases hout
    | false => exact ⟨le_rfl, fun l hl => ((h.idle hactive).2.2 l hl).ne'⟩
  · intro l hl
    exact (h.kept l hl).trans (hacc l hl)
  · intro f hf
    rw [hp.mouseEp, hr₁] at hf
    rw [deviceOf, hp.files, hr₁]
    exact h.mouse f hf
  · intro hactive
    have hact1 : r₁.leaseActive = true := hp.active.symm.trans hactive
    obtain ⟨l, hl, hlg, hlepoch, hlk, hc⟩ := h.live (hact.symm.trans hact1)
    refine ⟨l, hl, hlg.trans hgen.symm, hlepoch.trans hep.symm, ?_, fun hov => ?_⟩
    · rw [hp.kbd, hr₁]
      exact hlk
    obtain ⟨ho1, hque⟩ := (hp.live hact1).2 hov
    have hover0 : w.route.kbdOverflow = false := by rw [hr₁] at ho1; exact ho1
    have hq1 : r₁.kbdQueue = w.route.kbdQueue := by rw [hr₁]
    rw [hque, hq1, ← append_assoc, hc hover0, accepted_append, hlepoch]
    congr 1
    refine if_congr ?_ rfl rfl
    tauto
  · intro hactive
    have hact1 : r₁.leaseActive = false := hp.active.symm.trans hactive
    obtain ⟨hque, hov, hps⟩ := h.idle (hact.symm.trans hact1)
    obtain ⟨hq, ho⟩ := hp.idle hact1
    refine ⟨?_, ?_, fun l hl => ?_⟩
    · rw [hq, hr₁]
      exact hque
    · rw [ho, hr₁]
      exact hov
    · rw [hep]
      exact hps l hl

end

/-- The physical state is kept in two fields that concern nothing else. -/
lemma trackKey_eq (r : Route) (frame : Frame) :
    ∃ physDown capsOn, r.trackKey frame = { r with physDown, capsOn } := by
  rw [trackKey]
  split_ifs <;> exact ⟨_, _, rfl⟩

/-- A sequence that fits is queued as a whole, one that does not makes the queue unreadable. -/
lemma kbdPush_cases (r : Route) (hne : bytes ≠ []) : r.kbdPush bytes = { r with kbdOverflow := true } ∨
      ∃ queue, r.kbdPush bytes = { r with kbdQueue := queue } ∧
        queue.contents = r.kbdQueue.contents ++ bytes := by
  rw [kbdPush, if_neg (fun h0 => hne (length_eq_zero_iff.1 h0))]
  split_ifs with hf
  · exact .inl rfl
  · refine .inr ⟨_, rfl, contents_foldl_push _ _ ?_⟩
    rw [ROUTE_KBD_QUEUE_USABLE] at hf
    omega

/-- **Publishing.** -/
lemma published_publishFrame (r : Route) (hby : frame.payload = bytes) (hne : bytes ≠ []) {isolated : Bool}
    (hiso : ((!frame.isSpecial && decide (frame.physicalKey < ROUTE_KEY_SLOTS)) &&
      r.isolated frame.physicalKey) = isolated) :
    Published r (r.publishFrame frame).2 (r.publishFrame frame).1 bytes
      (frame.startEpoch = r.epoch ∧ isolated = false) := by
  obtain ⟨physDown, capsOn, htrack⟩ := trackKey_eq r frame
  unfold publishFrame
  simp only [htrack, hiso]
  by_cases hst : frame.startEpoch = r.epoch
  swap
  · rw [if_pos hst]
    have hnot : ¬ (frame.startEpoch = r.epoch ∧ isolated = false) := fun hf => hst hf.1
    refine ⟨rfl, rfl, rfl, rfl, rfl, rfl, rfl, rfl, rfl, fun _ => ⟨rfl, fun ho => ⟨ho, ?_⟩⟩,
      fun _ => ⟨rfl, rfl⟩⟩
    simp [if_neg hnot]
  rw [if_neg (not_not.2 hst)]
  cases isolated with
  | true =>
    have hs : ∀ isolated', Published r { r with physDown, capsOn, isolated := isolated' } none bytes
        (frame.startEpoch = r.epoch ∧ true = false) := by
      intro isolated'
      refine ⟨rfl, rfl, rfl, rfl, rfl, rfl, rfl, rfl, rfl, fun _ => ⟨rfl, fun ho => ⟨ho, ?_⟩⟩,
        fun _ => ⟨rfl, rfl⟩⟩
      rw [if_neg (fun hf => Bool.false_ne_true hf.2.symm), append_nil]
    by_cases hm : frame.isMake = true
    · rw [if_neg (not_not.2 hm)]
      exact hs _
    · rw [if_pos hm]
      exact hs _
  | false =>
    rw [if_neg Bool.false_ne_true]
    generalize hd : (if (!frame.isSpecial && decide (frame.physicalKey < ROUTE_KEY_SLOTS)) = true then
      { { r with physDown, capsOn } with
        logicalDown := update r.logicalDown frame.physicalKey frame.isMake }
      else { r with physDown, capsOn }) = r2
    have hr2 : ∃ logicalDown, r2 = { r with physDown, capsOn, logicalDown } := by
      rw [← hd]
      split_ifs <;> exact ⟨_, rfl⟩
    obtain ⟨logicalDown, rfl⟩ := hr2
    by_cases hact : r.leaseActive = true
    · rw [if_pos hact, hby]
      obtain hov | ⟨queue, hp, hque⟩ := kbdPush_cases { r with physDown, capsOn, logicalDown } hne
      · rw [hov]
        refine ⟨rfl, rfl, rfl, rfl, rfl, rfl, rfl, rfl, rfl, fun _ => ⟨rfl, ?_⟩, ?_⟩
        · rintro ⟨⟩
        · intro hi
          rw [hact] at hi
          cases hi
      rw [hp]
      refine ⟨rfl, rfl, rfl, rfl, rfl, rfl, rfl, rfl, rfl, fun _ => ⟨rfl, fun ho => ⟨ho, ?_⟩⟩, ?_⟩
      · rw [if_pos ⟨hst, rfl⟩]
        exact hque
      · intro hi
        rw [hact] at hi
        cases hi
    · rw [if_neg hact]
      exact ⟨rfl, rfl, rfl, rfl, rfl, rfl, rfl, rfl, rfl, fun ha => absurd ha hact, fun _ => ⟨rfl, rfl⟩⟩

lemma keyOf_lt (b : UInt8) (extended : Bool) : keyOf b extended < ROUTE_KEY_SLOTS := by
  have hc : (b &&& 0x7F).toNat < 2 ^ 8 := (b &&& 0x7F).toNat_lt
  rw [keyOf]
  cases extended with
  | false =>
    rw [if_neg Bool.false_ne_true, ROUTE_KEY_SLOTS]
    omega
  | true =>
    exact or_lt_two_pow (n := 9) (by decide) (by omega)

/-- A key has a slot. -/
lemma keyOfSequence_lt {key : Nat} (h : keyOfSequence l = some key) : key < ROUTE_KEY_SLOTS := by
  match l, h with
  | [b], h => exact Option.some.inj h ▸ keyOf_lt b false
  | [_, b], h => exact Option.some.inj h ▸ keyOf_lt b true

/-- The route and the observer agree on whether a sequence is isolated. -/
lemma isolated_eq (r : Route) (hs : frame.isSpecial = (keyOfSequence l).isNone)
    (hkey : ∀ key, keyOfSequence l = some key → frame.physicalKey = key) :
    ((!frame.isSpecial && decide (frame.physicalKey < ROUTE_KEY_SLOTS)) && r.isolated frame.physicalKey) =
      (keyOfSequence l).any r.isolated := by
  cases hk : keyOfSequence l with
  | none =>
    rw [hs, hk]
    rfl
  | some key =>
    have hlt := keyOfSequence_lt hk
    rw [hs, hk, hkey key hk]
    simp [hlt]

/-- **A keyboard byte.** -/
lemma Confined.byte (h : Confined w) (b : UInt8) : Confined (w.next (.byte b)) := by
  have hfed := feed_spec h.tracks b w.route.epoch
  unfold next keyboardByte
  dsimp only
  generalize frameFeed w.route.framer b w.route.epoch w.route.frame = res at hfed
  have hst : (if w.acc = [] then w.route.epoch else w.start) =
      if w.route.framer.phase = .idle then w.route.epoch else w.route.frame.startEpoch := by
    rw [h.acc]
    by_cases hi : w.route.framer.phase = .idle
    · rw [if_pos hi, if_pos (by rw [hi]; rfl)]
    · have hsn : w.route.framer.phase.seen ≠ [] := by
        cases hp : w.route.framer.phase with
        | idle => exact absurd hp hi
        | _ => exact cons_ne_nil _ _
      rw [if_neg hi, if_neg hsn, h.start hi]
  cases hfed with
  | complete st' out' hseq hi hby hs hsp hkey hm =>
    rw [if_pos rfl]
    unfold seeByte
    have hcpl : Complete (w.acc ++ [b]) := by rw [h.acc]; exact hseq
    rw [if_pos hcpl]
    have hpub := published_publishFrame { w.route with framer := st', frame := out' }
      (hby.trans (by rw [h.acc])) (append_ne_nil_of_right_ne_nil w.acc (cons_ne_nil b []))
      (isolated_eq { w.route with framer := st', frame := out' }
        (by rw [hsp, h.acc]) (l := w.acc ++ [b]) (by rw [h.acc]; exact hkey))
    rw [hs, ← hst] at hpub
    refine h.logged (q := ⟨w.acc ++ [b], _, w.route.epoch, _⟩) rfl
      { w.route with framer := st', frame := out' } hi rfl hpub _ _ ?_
    generalize (publishFrame { w.route with framer := st', frame := out' } out').1 = out
    cases out with
    | none => exact .inl rfl
    | some o => exact .inr ⟨_, rfl, rfl⟩
  | more st' out' htracks hsn hbs hs =>
    dsimp only
    rw [if_neg (by decide), seeByte]
    have hbegin : isBeginning (w.acc ++ [b]) = true := by
      rw [h.acc, ← hsn]
      exact isBeginning_seen hbs
    rw [if_neg (not_complete_of_isBeginning hbegin), if_pos hbegin]
    refine ⟨htracks, ?_, fun _ => hs.trans hst.symm, h.log, h.leases, h.order, h.reads, h.before, h.normal,
      h.kept, h.mouse, h.live, h.idle⟩
    rw [h.acc]
    exact hsn.symm
  | dropped st' out' hi hseq =>
    dsimp only
    rw [if_neg (by decide), seeByte]
    have hnot : ¬ Complete (w.acc ++ [b]) := by
      intro hc
      refine hseq [] ?_
      rw [append_nil, ← h.acc]
      exact hc
    have hnobegin : ¬ isBeginning (w.acc ++ [b]) = true := by
      intro hb
      obtain ⟨rest, hr⟩ := exists_complete_of_isBeginning hb
      rw [h.acc] at hr
      exact hseq rest hr
    rw [if_neg hnot, if_neg hnobegin]
    refine ⟨⟨fun hb => absurd hi hb, fun hb => absurd hi hb, fun hb => absurd hi hb⟩, ?_,
      fun hb => absurd hi hb, h.log, h.leases, h.order, h.reads, h.before, h.normal, h.kept, h.mouse, h.live,
      h.idle⟩
    rw [hi]
    rfl

lemma Confined.mouseEvent (h : Confined w) (event : MouseEvent) :
    Confined { w with route := (w.route.mouseEvent event).2 } := by
  refine h.of_same ?_
  unfold Route.mouseEvent Route.mousePush
  dsimp only
  split_ifs <;>
    exact ⟨rfl, rfl, rfl, rfl, fun _ => rfl, rfl, rfl, rfl, rfl, fun _ _ hg => hg, fun _ hg => hg⟩

/-! ## Runs -/

/-- **One event.** -/
lemma Confined.next (h : Confined w) (e : RouteEvent) : Confined (w.next e) := by
  cases e with
  | openFile device f =>
    unfold Watched.next
    dsimp only
    split_ifs with hnew
    · exact h.openFile device f (Option.isNone_iff_eq_none.1 hnew)
    · exact h
  | close f => exact h.releaseFile f
  | bind view kbd mouse => exact h.bind view kbd mouse
  | unbind view generation reason => exact h.unbind view generation reason
  | byte b => exact h.byte b
  | mouse event => exact h.mouseEvent event
  | read f size => exact h.read f size

end Watched

end OS01.Driver
