import OS01.Fs.Pipe

/-!
# A pipe loses and repeats nothing

In every run of readers and writers the bytes accepted so far are the bytes delivered so far followed
by the bytes in the ring. The argument is the reservation: between reserving and releasing a reader
is alone (`PipeOk.one`), so the ring it has peeked at loses nothing before it commits, and what
writers add meanwhile comes behind.
-/

namespace OS01.Fs

open PipeSystem Function List Lib Ring

/-- The reader holds the reservation. -/
def Pc.holds : Pc → Bool
  | .await _ | .recheck _ | .woken _ | .peek _ | .copy _ | .commit _ | .release _ _ => true
  | _ => false

/-- What a read that ends with `result` has taken out of the ring. -/
def ReadOk (got : List UInt8) (result : Int) (out : List UInt8) : Prop :=
  got = out ∧ (0 ≤ result → result = out.length) ∧ (result < 0 → out = [])

/-- What a write that ends with `result` has put into the ring. -/
def WriteOk (put buf : List UInt8) (result : Int) : Prop :=
  ∀ n : Nat, result = n → n ≤ buf.length ∧ put = buf.take n

/-- What holds at a point of a call: `ring` is in the ring, the call has taken out `got` and put in
`put`. -/
def Pc.Ok (ring got put : List UInt8) : Pc → Prop
  | idle => True
  | reserve size | await size | recheck size | woken size => 0 < size ∧ got = []
  | peek size => 0 < size ∧ got = [] ∧ ring ≠ []
  | copy bounce | commit bounce => got = [] ∧ bounce ≠ [] ∧ bounce <+: ring
  | release result out | readDone result out => ReadOk got result out
  | stage buf total | wrecheck buf total | wwoken buf total =>
    buf.length < 2 ^ 64 ∧ total ≤ buf.length ∧ put = buf.take total
  | drain buf total bounce =>
    buf.length < 2 ^ 64 ∧ total ≤ buf.length ∧ put = buf.take total ∧ bounce <+: buf.drop total
  | writeDone buf result => WriteOk put buf result

namespace Pc.Ok

variable {ring got put xs : List UInt8} {pc : Pc}

/-- Bytes that come behind do not matter. -/
lemma append (h : pc.Ok ring got put) (xs : List UInt8) : pc.Ok (ring ++ xs) got put := by
  cases pc with
  | peek size => exact ⟨h.1, h.2.1, by simp [h.2.2]⟩
  | copy bounce | commit bounce => exact ⟨h.1, h.2.1, h.2.2.trans (prefix_append ..)⟩
  | _ => exact h

/-- Only the reader that holds the reservation depends on the ring. -/
lemma of_not_holds {ring' : List UInt8} (h : pc.Ok ring got put) (hn : pc.holds = false) :
    pc.Ok ring' got put := by
  cases pc with
  | peek size | copy bounce | commit bounce => cases hn
  | _ => exact h

end Pc.Ok

variable {τ : Type*} [DecidableEq τ] (log : List ((τ × Nat) × UInt8))

/-- The bytes of a log with a given tag. -/
def bytesOf (k : τ × Nat) : List UInt8 :=
  (log.filter fun x => x.1 = k).map Prod.snd

/-- The bytes of a log. -/
def bytes : List UInt8 := log.map Prod.snd

/-- The invariant. -/
structure PipeOk (s : PipeSystem τ) : Prop where
  order : bytes s.accepted = bytes s.delivered ++ s.pipe.ring.contents
  busy : ∀ t, (s.pc t).holds = true → s.pipe.readBusy = true
  one : ∀ t u, (s.pc t).holds = true → (s.pc u).holds = true → t = u
  accepted : ∀ x ∈ s.accepted, x.1.2 ≤ s.calls x.1.1
  delivered : ∀ x ∈ s.delivered, x.1.2 ≤ s.calls x.1.1
  tasks : ∀ t, (s.pc t).Ok s.pipe.ring.contents (bytesOf s.delivered (t, s.calls t))
    (bytesOf s.accepted (t, s.calls t))

variable {s : PipeSystem τ} {t u : τ} {xs : List UInt8}

/-! ## The logs -/

omit [DecidableEq τ] in
lemma bytes_append_tag : bytes (log ++ s.tag t xs) = bytes log ++ xs := by
  simp [bytes, tag, comp_def]

lemma bytesOf_append_self : bytesOf (log ++ s.tag t xs) (t, s.calls t) = bytesOf log (t, s.calls t) ++ xs := by
  simp [bytesOf, tag, filter_map, comp_def]

lemma bytesOf_append_other {k : Nat} (h : u ≠ t) : bytesOf (log ++ s.tag t xs) (u, k) = bytesOf log (u, k) := by
  simp [bytesOf, tag, h.symm]

/-- A new call has no bytes yet. -/
lemma bytesOf_fresh {log : List ((τ × Nat) × UInt8)} (h : ∀ x ∈ log, x.1.2 ≤ s.calls x.1.1) :
    bytesOf log (t, s.calls t + 1) = [] := by
  rw [bytesOf, map_eq_nil_iff, filter_eq_nil_iff]
  intro x hx
  have hle := h x hx
  simp only [decide_eq_true_eq]
  rintro heq
  rw [heq] at hle
  dsimp only at hle
  omega

/-! ## Steps -/

namespace PipeOk

/-- **The rule for a locked section** of a task: it takes `ys` out of the ring and puts `xs` in. -/
lemma step (h : PipeOk s) (t : τ) (p : Pipe) (pc : Pc) (xs ys : List UInt8)
    (hr : s.pipe.ring.contents ++ xs = ys ++ p.ring.contents) (hoth : ys = [] ∨ (s.pc t).holds = true)
    (hk : ∀ u, u ≠ t → (s.pc u).holds = true → p.readBusy = true) (hhl : pc.holds = true →
      p.readBusy = true ∧ ((s.pc t).holds = true ∨ s.pipe.readBusy = false))
    (hpc : pc.Ok p.ring.contents (bytesOf s.delivered (t, s.calls t) ++ ys)
      (bytesOf s.accepted (t, s.calls t) ++ xs)) : PipeOk { s with
      pipe := p
      pc := update s.pc t pc
      accepted := s.accepted ++ s.tag t xs
      delivered := s.delivered ++ s.tag t ys } := by
  have halone (hp : pc.holds = true) (u : τ) (hu : (s.pc u).holds = true) : u = t := by
    obtain ht | hf := (hhl hp).2
    · exact h.one u t hu ht
    · rw [h.busy u hu] at hf
      cases hf
  have htg {log : List ((τ × Nat) × UInt8)} {zs : List UInt8} (hlog : ∀ x ∈ log, x.1.2 ≤ s.calls x.1.1) :
      ∀ x ∈ log ++ s.tag t zs, x.1.2 ≤ s.calls x.1.1 := by
    intro x hx
    obtain hx | hx := mem_append.1 hx
    · exact hlog x hx
    · obtain ⟨b, -, rfl⟩ := mem_map.1 hx
      exact Nat.le_refl _
  refine ⟨?_, fun u hu => ?_, fun u v hu hv => ?_, htg h.accepted, htg h.delivered, fun u => ?_⟩
  · rw [bytes_append_tag, bytes_append_tag, h.order, append_assoc, hr, append_assoc]
  · dsimp only at hu
    by_cases hut : u = t
    · rw [hut, update_self] at hu
      exact (hhl hu).1
    · rw [update_of_ne hut] at hu
      exact hk u hut hu
  · dsimp only at hu hv
    by_cases hut : u = t <;> by_cases hvt : v = t
    · rw [hut, hvt]
    · rw [hut, update_self] at hu
      rw [update_of_ne hvt] at hv
      exact hut.trans (halone hu v hv).symm
    · rw [hvt, update_self] at hv
      rw [update_of_ne hut] at hu
      exact (halone hv u hu).trans hvt.symm
    · rw [update_of_ne hut] at hu
      rw [update_of_ne hvt] at hv
      exact h.one u v hu hv
  · dsimp only
    by_cases hut : u = t
    · subst hut
      rw [update_self, bytesOf_append_self, bytesOf_append_self]
      exact hpc
    rw [update_of_ne hut, bytesOf_append_other _ hut, bytesOf_append_other _ hut]
    have hu := h.tasks u
    obtain rfl | ht := hoth
    · -- only bytes behind what the others may have seen
      have hc : p.ring.contents = s.pipe.ring.contents ++ xs := by simpa using hr.symm
      rw [hc]
      exact hu.append xs
    · refine hu.of_not_holds ?_
      cases hh : (s.pc u).holds with
      | false => rfl
      | true => exact absurd (h.one u t hh ht) hut

variable {pc : Pc} {bounce buf put : List UInt8} {total : Nat}

/-- The result of a write that has put in `total` bytes. -/
lemma writeOk_toInt64 (hlen : buf.length < 2 ^ 64) (hle : total ≤ buf.length) (hput : put = buf.take total) :
    WriteOk put buf (toInt64 total) := by
  intro n hn
  unfold toInt64 at hn
  split at hn
  · obtain rfl : total = n := by omega
    exact ⟨hle, hput⟩
  · omega

lemma writeOk_neg {e : Int} (he : 0 < e) : WriteOk put buf (-e) := fun n hn => by omega

section

variable (h : PipeOk s)
include h

/-- A step that leaves ring and logs alone. -/
lemma quiet {p : Pipe} (hr : p.ring = s.pipe.ring)
    (hk : ∀ u, u ≠ t → (s.pc u).holds = true → p.readBusy = true) (hhl : pc.holds = true →
      p.readBusy = true ∧ ((s.pc t).holds = true ∨ s.pipe.readBusy = false))
    (hpc : pc.Ok s.pipe.ring.contents (bytesOf s.delivered (t, s.calls t))
      (bytesOf s.accepted (t, s.calls t))) : PipeOk ((s.withPipe p).goto t pc) := by
  have hs := h.step t p pc [] [] (by rw [hr]; simp) (.inl rfl) hk hhl (by rw [hr]; simpa using hpc)
  simpa [tag, goto, withPipe] using hs

/-- A step that changes only the task's own place, and does not reserve. -/
lemma move (hhl : pc.holds = true → (s.pc t).holds = true)
    (hpc : pc.Ok s.pipe.ring.contents (bytesOf s.delivered (t, s.calls t))
      (bytesOf s.accepted (t, s.calls t))) : PipeOk (s.goto t pc) :=
  h.quiet (p := s.pipe) rfl (fun u _ hu => h.busy u hu) (fun hp => ⟨h.busy t (hhl hp), .inl (hhl hp)⟩) hpc

/-- Releasing the reservation. -/
lemma release (ht : (s.pc t).holds = true) {result : Int} {out : List UInt8}
    (hok : ReadOk (bytesOf s.delivered (t, s.calls t)) result out) :
    PipeOk (s.readRelease.goto t (.readDone result out)) :=
  h.quiet (p := { s.pipe with readBusy := false }) rfl
    (fun u hu hh => absurd (h.one u t hh ht) hu) (fun hp => by cases hp) hok

/-- Committing a read: the bytes peeked at are still the oldest ones. -/
lemma commit (hpc : s.pc t = .commit bounce) (o : Choice) : PipeOk (s.run t o) := by
  have ht : (s.pc t).holds = true := by rw [hpc]; rfl
  have hok := h.tasks t
  rw [hpc] at hok
  obtain ⟨hgot, -, hr⟩ := hok
  have hle : bounce.length ≤ s.pipe.ring.avail := by
    rw [← length_contents]
    exact hr.length_le
  have htk : s.pipe.ring.contents = bounce ++ (s.pipe.ring.drop bounce.length).contents := by
    rw [contents_drop hle]
    obtain ⟨rest, hrs⟩ := hr
    simp [← hrs]
  have hs := h.step t { s.pipe with ring := s.pipe.ring.drop bounce.length }
    (.release bounce.length bounce) [] bounce (by simpa using htk) (.inr ht)
    (fun u _ hu => h.busy u hu) (fun _ => ⟨h.busy t ht, .inl ht⟩)
    ⟨by rw [hgot, nil_append], fun _ => rfl, fun hneg => by omega⟩
  unfold run
  rw [hpc]
  simpa [tag, goto, withPipe] using hs

/-- The locked section of a writer. -/
lemma drain (hpc : s.pc t = .drain buf total bounce) : PipeOk (s.drain t buf total bounce) := by
  have hok := h.tasks t
  rw [hpc] at hok
  obtain ⟨hlen, hle, hput, hpre⟩ := hok
  obtain ⟨hw, hc⟩ := s.pipe.ring.pushAll_spec bounce
  unfold PipeSystem.drain
  generalize s.pipe.ring.pushAll bounce = r at hw hc
  obtain ⟨ring, written⟩ := r
  dsimp only at hw hc ⊢
  -- every way out is a step that puts in what was written
  have hs (pc : Pc) (hn : pc.holds = false) (hpc' : pc.Ok ring.contents (bytesOf s.delivered (t, s.calls t))
        (bytesOf s.accepted (t, s.calls t) ++ bounce.take written)) :
      PipeOk (({ s.withPipe { s.pipe with ring } with
        accepted := s.accepted ++ s.tag t (bounce.take written) } : PipeSystem τ).goto t pc) := by
    have hst := h.step t { s.pipe with ring } pc (bounce.take written) [] (by simpa using hc.symm)
      (.inl rfl) (fun u _ hu => h.busy u hu) (fun hp => by rw [hn] at hp; cases hp) (by simpa using hpc')
    simpa [tag, goto, withPipe] using hst
  have hput' : bytesOf s.accepted (t, s.calls t) ++ bounce.take written = buf.take (total + written) ∧
      total + written ≤ buf.length := by
    obtain ⟨rest, hr⟩ := hpre
    have hsum := congrArg length hr
    simp only [length_append, length_drop] at hsum
    refine ⟨?_, by omega⟩
    rw [hput, take_add, ← hr, take_append_of_le_length hw]
  split
  · split
    · exact hs _ rfl (writeOk_toInt64 hlen hput'.2 hput'.1)
    · exact hs _ rfl ⟨hlen, hput'.2, hput'.1⟩
  · next hz =>
      obtain rfl : written = 0 := by omega
      split
      · exact hs _ rfl (writeOk_neg (by decide))
      · exact hs _ rfl ⟨hlen, hle, by simpa using hput'.1⟩

/-- **One locked section.** -/
lemma run (t : τ) (o : Choice) : PipeOk (s.run t o) := by
  have hok := h.tasks t
  have hf (e : Int) (he : 0 < e) (hgot : bytesOf s.delivered (t, s.calls t) = []) :
      ReadOk (bytesOf s.delivered (t, s.calls t)) (-e) [] := ⟨hgot, fun hpos => by omega, fun _ => rfl⟩
  have heof (hgot : bytesOf s.delivered (t, s.calls t) = []) :
      ReadOk (bytesOf s.delivered (t, s.calls t)) 0 [] := ⟨hgot, fun _ => rfl, fun hneg => by omega⟩
  unfold PipeSystem.run
  split
  · next hpc =>
      rw [hpc] at hok
      -- reserving
      split
      · exact h
      · next hfr =>
          have hf' : s.pipe.readBusy = false := by simpa using hfr
          exact h.quiet rfl (fun _ _ _ => rfl) (fun _ => ⟨rfl, .inr hf'⟩) hok
  · next hpc =>
      rw [hpc] at hok
      split
      · next hd =>
          refine h.move (fun _ => by rw [hpc]; rfl) ⟨hok.1, hok.2, fun hnil => ?_⟩
          rw [empty_iff.2 hnil] at hd
          cases hd
      · split
        · exact h.move (fun _ => by rw [hpc]; rfl) (heof hok.2)
        · exact h.move (fun _ => by rw [hpc]; rfl) hok
  · next hpc =>
      rw [hpc] at hok
      split
      · exact h.move (fun _ => by rw [hpc]; rfl) (heof hok.2)
      · exact h.move (fun _ => by rw [hpc]; rfl) hok
  · next hpc =>
      rw [hpc] at hok
      split
      · exact h.move (fun _ => by rw [hpc]; rfl) (hf EINTR (by decide) hok.2)
      · exact h.move (fun _ => by rw [hpc]; rfl) hok
  · next hpc =>
      rw [hpc] at hok
      split
      · exact h.move (fun _ => by rw [hpc]; rfl) (hf ENOMEM (by decide) hok.2.1)
      obtain ⟨hs, hgot, hne⟩ := hok
      refine h.move (fun _ => by rw [hpc]; rfl) ⟨hgot, ?_, ?_⟩
      · rw [peek_eq (Nat.min_le_left _ _), ← length_pos_iff, length_take, length_contents]
        rw [← length_pos_iff, length_contents] at hne
        omega
      · rw [peek_eq (Nat.min_le_left _ _)]
        exact take_prefix _ _
  · next hpc =>
      rw [hpc] at hok
      split
      · exact h.release (by rw [hpc]; rfl) (hf EFAULT (by decide) hok.1)
      · exact h.move (fun _ => by rw [hpc]; rfl) hok
  · next hpc =>
      have hc := h.commit hpc o
      rw [PipeSystem.run, hpc] at hc
      exact hc
  · next hpc =>
      rw [hpc] at hok
      exact h.release (by rw [hpc]; rfl) hok
  · next hpc =>
      rw [hpc] at hok
      obtain ⟨hlen, hle, hput⟩ := hok
      split
      · refine h.move (fun hp => by cases hp) ?_
        split
        · exact writeOk_neg (by decide)
        · exact writeOk_toInt64 hlen hle hput
      · exact h.move (fun hp => by cases hp) ⟨hlen, hle, hput, take_prefix _ _⟩
  · next hpc =>
      exact h.drain hpc
  · next hpc =>
      rw [hpc] at hok
      split
      · exact h.move (fun hp => by cases hp) (writeOk_neg (by decide))
      · exact h.move (fun hp => by cases hp) hok
  · next hpc =>
      rw [hpc] at hok
      split
      · exact h.move (fun hp => by cases hp) (writeOk_neg (by decide))
      · exact h.move (fun hp => by cases hp) hok
  · exact h

/-- The start of a call. -/
lemma call (hout : (s.pc t).outside = true) (hn : pc.holds = false)
    (hpc : pc.Ok s.pipe.ring.contents [] []) : PipeOk (s.call t pc) := by
  have hcls (k : τ × Nat) (hk : k.2 ≤ s.calls k.1) : k.2 ≤ update s.calls t (s.calls t + 1) k.1 := by
    by_cases hkt : k.1 = t
    · rw [hkt, update_self]
      rw [hkt] at hk
      omega
    · rw [update_of_ne hkt]
      exact hk
  have hold (u : τ) (hu : (update s.pc t pc u).holds = true) : (s.pc u).holds = true ∧ u ≠ t := by
    by_cases hut : u = t
    · rw [hut, update_self, hn] at hu
      cases hu
    · rw [update_of_ne hut] at hu
      exact ⟨hu, hut⟩
  refine ⟨h.order, fun u hu => h.busy u (hold u hu).1, fun u v hu hv =>
    h.one u v (hold u hu).1 (hold v hv).1, fun x hx => hcls x.1 (h.accepted x hx),
    fun x hx => hcls x.1 (h.delivered x hx), fun u => ?_⟩
  change (update s.pc t pc u).Ok s.pipe.ring.contents
    (bytesOf s.delivered (u, update s.calls t (s.calls t + 1) u))
    (bytesOf s.accepted (u, update s.calls t (s.calls t + 1) u))
  by_cases hut : u = t
  · subst hut
    rw [update_self, update_self, bytesOf_fresh h.delivered, bytesOf_fresh h.accepted]
    exact hpc
  · rw [update_of_ne hut, update_of_ne hut]
    exact h.tasks u

/-- **Every event keeps the invariant.** -/
lemma next (e : PipeEvent τ) : PipeOk (s.next e) := by
  cases e with
  | read t size =>
    simp only [PipeSystem.next]
    split
    · next hout =>
        split
        · exact h.call hout rfl ⟨rfl, fun hpos => by omega, fun _ => rfl⟩
        · exact h.call hout rfl ⟨by omega, rfl⟩
    · exact h
  | write t buf hlen kmalloc =>
    simp only [PipeSystem.next]
    split
    · next hout =>
        split_ifs
        · exact h.call hout rfl fun n hn => by omega
        · exact h.call hout rfl fun n hn => by simp only [ENOMEM] at hn; omega
        · exact h.call hout rfl ⟨hlen, Nat.zero_le _, rfl⟩
    · exact h
  | run t o => exact h.run t o
  | ends readers writers => exact ⟨h.order, h.busy, h.one, h.accepted, h.delivered, h.tasks⟩

end

end PipeOk

/-! ## Whole runs -/

/-- The result a read is about to return, or has returned. -/
def Pc.readResult : Pc → Option Int
  | .release result _ | .readDone result _ => some result
  | _ => none

/-- The ring was empty and no writer end open. -/
def AtEnd (s : PipeSystem τ) : Prop := s.pipe.ring.contents = [] ∧ s.pipe.writers = 0

lemma goto_pc (s : PipeSystem τ) (t : τ) (pc : Pc) : (s.goto t pc).pc = update s.pc t pc := rfl

lemma call_pc (s : PipeSystem τ) (t : τ) (pc : Pc) : (s.call t pc).pc = update s.pc t pc := rfl

/-- A section of a writer does not make a read return. -/
lemma readResult_drain (s : PipeSystem τ) (t : τ) (buf bounce : List UInt8) (total : Nat) :
    ((s.drain t buf total bounce).pc t).readResult = none := by
  unfold drain
  dsimp only
  split_ifs <;> simp [goto_pc, Pc.readResult]

/-- Another task's section does not move this one. -/
lemma run_pc_of_ne (s : PipeSystem τ) (o : Choice) (h : u ≠ t) : (s.run t o).pc u = s.pc u := by
  have hg (s' : PipeSystem τ) (pc : Pc) (hs : s'.pc = s.pc) : (s'.goto t pc).pc u = s.pc u := by
    rw [goto_pc, update_of_ne h, hs]
  unfold run
  split
  case h_10 =>
    unfold drain
    dsimp only
    split_ifs <;> exact hg _ _ rfl
  all_goals first | rfl | exact hg _ _ rfl | (split_ifs <;> first | rfl | exact hg _ _ rfl)

/-- **A read decides to return 0 only at the end of the stream.** -/
lemma PipeOk.atEnd (h : PipeOk s) {o : Choice} (hbef : (s.pc t).readResult ≠ some 0)
    (haft : ((s.run t o).pc t).readResult = some 0) : AtEnd s := by
  have hok := h.tasks t
  have hg {s' : PipeSystem τ} {pc : Pc} (hr : ((s'.goto t pc).pc t).readResult = some 0) :
      pc.readResult = some 0 := by
    rwa [goto_pc, update_self] at hr
  unfold PipeSystem.run at haft
  split at haft
  · split at haft
    · exact absurd haft hbef
    · cases hg haft
  · split at haft
    · cases hg haft
    · next hemp =>
        split at haft
        · next hw => exact ⟨empty_iff.1 (by simpa using hemp), hw⟩
        · cases hg haft
  · split at haft
    · next hend =>
        rw [Bool.and_eq_true, decide_eq_true_iff] at hend
        exact ⟨empty_iff.1 hend.2, hend.1⟩
    · cases hg haft
  · split at haft <;> cases hg haft
  · split at haft <;> cases hg haft
  · split at haft <;> cases hg haft
  · next bounce hpc =>
      rw [hpc] at hok
      have hlen : (bounce.length : Int) = 0 := Option.some.inj (hg haft)
      exact absurd (length_eq_zero_iff.1 (by omega)) hok.2.1
  · next hpc =>
      rw [hpc] at hbef
      exact absurd (hg haft) hbef
  · split at haft <;> cases hg haft
  · rw [readResult_drain] at haft
    cases haft
  · split at haft <;> cases hg haft
  · split at haft <;> cases hg haft
  · exact absurd haft hbef

/-- A pipe that was just made, with tasks that have not used it. -/
structure PipeSystem.Start (s : PipeSystem τ) : Prop where
  ring : s.pipe.ring.empty = true
  free : s.pipe.readBusy = false
  idle : ∀ t, s.pc t = .idle
  accepted : s.accepted = []
  delivered : s.delivered = []

/-- What every state of a run satisfies. -/
structure Fifo (s : PipeSystem τ) : Prop where
  /-- What came in is what went out, followed by what is in the ring. -/
  order : bytes s.accepted = bytes s.delivered ++ s.pipe.ring.contents
  /-- A read that returned a count took exactly the bytes it gave to the user, and one that failed
  took none. -/
  read : ∀ t result out, s.pc t = .readDone result out →
    ReadOk (bytesOf s.delivered (t, s.calls t)) result out
  /-- A write that returned `n` put in the first `n` bytes of its buffer. -/
  write : ∀ t buf result, s.pc t = .writeDone buf result →
    WriteOk (bytesOf s.accepted (t, s.calls t)) buf result
  /-- Whatever happens next, a read turns to returning 0 only at the end of the stream. -/
  eof : ∀ e t, (s.pc t).readResult ≠ some 0 → ((s.next e).pc t).readResult = some 0 → AtEnd s

lemma PipeSystem.Start.pipeOk (h : s.Start) : PipeOk s := by
  have hn (t : τ) : (s.pc t).holds = false := by rw [h.idle t]; rfl
  refine ⟨?_, fun t ht => ?_, fun t u ht => ?_, ?_, ?_, fun t => ?_⟩
  · rw [h.accepted, h.delivered, empty_iff.1 h.ring]
    rfl
  · rw [hn t] at ht
    cases ht
  · rw [hn t] at ht
    cases ht
  · simp [h.accepted]
  · simp [h.delivered]
  · rw [h.idle t]
    trivial

lemma PipeOk.fifo (h : PipeOk s) : Fifo s where
  order := h.order
  read t result out hpc := by
    have hok := h.tasks t
    rw [hpc] at hok
    exact hok
  write t buf result hpc := by
    have hok := h.tasks t
    rw [hpc] at hok
    exact hok
  eof e t hbef haft := by
    cases e with
    | read u size | write u buf hlen kmalloc =>
      simp only [PipeSystem.next] at haft
      split at haft
      · by_cases htu : t = u
        · subst htu
          rw [call_pc, update_self] at haft
          split_ifs at haft <;> cases haft
        · rw [call_pc, update_of_ne htu] at haft
          exact absurd haft hbef
      · exact absurd haft hbef
    | run u o =>
      by_cases htu : t = u
      · subst htu
        exact h.atEnd hbef haft
      · rw [PipeSystem.next, run_pc_of_ne s o htu] at haft
        exact absurd haft hbef
    | ends readers writers => exact absurd haft hbef

/-- **A pipe is a first-in first-out channel** in every run of any number of readers and writers. -/
theorem pipe_fifo {s₀ s : PipeSystem τ} {es : List (PipeEvent τ)} (h : s₀.Start)
    (hrun : Run (ofFun next) s₀ es s) : Fifo s := by
  have hok : PipeOk s := hrun.invariant (fun s e s' hs hst => hst ▸ hs.next e) h.pipeOk
  exact hok.fifo

/-- An empty pipe with one open end on each side. -/
def freshPipe : PipeSystem Bool where
  pipe := { ring := ⟨fun _ => 0, 0, 0, by decide, by decide⟩, readers := 1, writers := 1,
            readBusy := false }
  pc := fun _ => .idle
  calls := fun _ => 0
  accepted := []
  delivered := []

/-- One task writes two bytes and the other reads one of them. -/
def writeThenRead : List (PipeEvent Bool) :=
  [.write true [7, 9] (by decide) true, .run true {}, .run true {}, .read false 1, .run false {},
    .run false {}, .run false {}, .run false {}, .run false {}, .run false {}]

/-- The theorem for this run. -/
theorem pipe_fifo_writeThenRead : ∃ s, freshPipe.Start ∧ Run (ofFun next) freshPipe writeThenRead s ∧ Fifo s ∧
      s.pc true = .writeDone [7, 9] 2 ∧ s.pc false = .readDone 1 [7] ∧ s.pipe.ring.contents = [9] := by
  have hst : freshPipe.Start := ⟨rfl, rfl, fun _ => rfl, rfl, rfl⟩
  have hrun := Run.foldl next freshPipe writeThenRead
  exact ⟨_, hst, hrun, pipe_fifo hst hrun, by decide, by decide, by decide⟩

end OS01.Fs
