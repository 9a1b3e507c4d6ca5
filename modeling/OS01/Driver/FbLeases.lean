import OS01.Driver.FbState

/-!
# Writer leases and the display owner

A lease that is held belongs to the class that may draw: to the console while there is no owner, to the owner's
view otherwise, and it carries the current mode generation. So nothing that changes the owner or the mode
commits while a lease is held.

Two things carry this. A display that is *closed* (a transition, or a failed backend) admits no writer, so that a
call which has seen the count at zero still finds it there when it commits (`Phase.Placed`). And a call that
commits without having closed admission leaves the owner alone, because what it saw in its first section can
only have been changed by a failure of the backend, which it looks for again.

`fb_mark_failed` takes the owner away whatever is held, and `fb_owner_detach` does not drain. Their callers see
to it that no lease is in the way: `LeaseSafe` says so of the events.
-/

namespace OS01.Driver

open List Option Lib FbSystem Outcome Display

namespace Display

/-! ## What the pieces change -/

variable (d : Display)

/-- No writer is admitted. -/
def Closed : Prop := d.transitioning = true ∨ d.backendFailed = true

/-- The console is enabled exactly when there is no owner. -/
def ConsoleFollows : Prop := d.consoleActive = true ↔ d.owner = none

lemma fbInputRevoke_eq (reason : Int) :
    ∃ inputLease route, d.fbInputRevoke reason = { d with inputLease, route } := by
  unfold fbInputRevoke
  split_ifs with h
  · exact ⟨d.inputLease, d.route, rfl⟩
  · exact ⟨_, _, rfl⟩

lemma commitOwner_eq (view : Option View) : d.commitOwner view = { d with
        owner := view, ownerGeneration := d.ownerGeneration + 1
        consoleActive := decide (view = none), surrendered := decide (view ≠ none) } := by
  unfold commitOwner fbUpdateConsoleOwnership
  by_cases h : view = none <;> simp [h]

/-- A change of the display that the count of writers does not see. -/
structure Recast (d d' : Display) : Prop where
  writers : d'.activeWriters = d.activeWriters
  console : d.ConsoleFollows → d'.ConsoleFollows

/-- A change that also keeps the owner and the mode. -/
structure Steady (d d' : Display) : Prop extends Recast d d' where
  owner : d'.owner = d.owner
  generation : d'.generation = d.generation

lemma Steady.refl : Steady d d := ⟨⟨rfl, id⟩, rfl, rfl⟩

lemma Recast.trans {d₁ d₂ d₃ : Display} (h : Recast d₁ d₂) (h' : Recast d₂ d₃) : Recast d₁ d₃ :=
  ⟨h'.writers.trans h.writers, h'.console ∘ h.console⟩

variable {d : Display}

/-- What is outside the writers' part of the state may change freely. -/
lemma Steady.of_fields {d' : Display} (hw : d'.activeWriters = d.activeWriters)
    (hc : d'.consoleActive = d.consoleActive) (ho : d'.owner = d.owner) (hg : d'.generation = d.generation) :
    Steady d d' := by
  refine ⟨⟨hw, ?_⟩, ho, hg⟩
  intro h
  rwa [ConsoleFollows, hc, ho]

lemma steady_fbInputRevoke (d : Display) (reason : Int) : Steady d (d.fbInputRevoke reason) := by
  obtain ⟨lease, route, h⟩ := d.fbInputRevoke_eq reason
  rw [h]
  exact .of_fields rfl rfl rfl rfl

lemma recast_commitOwner (d : Display) (view : Option View) : Recast d (d.commitOwner view) := by
  rw [commitOwner_eq]
  exact ⟨rfl, fun _ => decide_eq_true_iff⟩

/-- A commit that keeps the owner. -/
lemma steady_commitOwner_self (d : Display) : Steady d (d.commitOwner d.owner) :=
  ⟨d.recast_commitOwner d.owner, by rw [commitOwner_eq], by rw [commitOwner_eq]⟩

lemma recast_fbMarkFailed (d : Display) : Recast d d.fbMarkFailed := by
  refine Recast.trans ?_ (recast_commitOwner _ none)
  obtain ⟨lease, route, h⟩ :=
    fbInputRevoke_eq { d with backendFailed := true, backendReady := false, transitioning := true } EIO
  rw [h]
  exact ⟨rfl, id⟩

/-- The failure of the backend: there is no owner any more, and the mode stays. -/
lemma fbMarkFailed_spec (d : Display) : d.fbMarkFailed.owner = none ∧ d.fbMarkFailed.generation = d.generation ∧
      d.fbMarkFailed.backendFailed = true := by
  unfold fbMarkFailed
  obtain ⟨lease, route, h⟩ :=
    fbInputRevoke_eq { d with backendFailed := true, backendReady := false, transitioning := true } EIO
  rw [h]
  exact ⟨rfl, rfl, rfl⟩

lemma recast_fbCommitLayout (d : Display) (info : Option FbInfo) (redraw : Bool) :
    Recast d (d.fbCommitLayout info redraw) := by
  obtain ⟨lease, route, h⟩ := d.fbInputRevoke_eq ESTALE
  unfold fbCommitLayout
  rw [h]
  cases info.isSome || redraw
  all_goals exact ⟨rfl, id⟩

lemma steady_fbInputUnbind (d : Display) (view : Option View) (generation : Nat) (reason : Int) :
    Steady d (d.fbInputUnbind view generation reason) := by
  unfold fbInputUnbind
  split_ifs <;> exact .of_fields rfl rfl rfl rfl

/-- A check that refuses a call leaves the display as it is. -/
lemma of_check {P : Display → Prop} {c : Prop} [Decidable c] {α : Type} {rc : α}
    {r : α × Display} (hd : P d) (h : ¬ c → P r.2) : P (if c then (rc, d) else r).2 := by
  by_cases hc : c
  · rwa [if_pos hc]
  · rw [if_neg hc]
    exact h hc

lemma fbInputLeaseBlocks_eq (d : Display) : ∃ inputLease, d.fbInputLeaseBlocks.2 = { d with inputLease } := by
  unfold fbInputLeaseBlocks
  split_ifs <;> exact ⟨_, rfl⟩

lemma steady_fbInputBind (d : Display) (view : Option View) (mode : Nat) (kbd mouse : Option RouteFile) :
    Steady d (d.fbInputBind view mode kbd mouse).2 := by
  have hs : Steady d d := .refl d
  refine of_check hs fun _ => of_check hs fun _ => of_check hs fun _ => of_check hs fun _ =>
    of_check hs fun _ => ?_
  obtain ⟨lease, hlse⟩ := d.fbInputLeaseBlocks_eq
  rcases hb : d.fbInputLeaseBlocks with ⟨blocks, d1⟩
  rw [hb] at hlse
  obtain rfl : d1 = { d with inputLease := lease } := hlse
  cases blocks with
  | true => exact .of_fields rfl rfl rfl rfl
  | false => dsimp only; split <;> exact .of_fields rfl rfl rfl rfl

/-! ## What a commit changes -/

/-- Whatever a call commits, the writers are counted as before and the console follows the owner. -/
lemma recast_commit (d : Display) (bga : BgaResult) (op : ControlOp) : Recast d (d.commit bga op).2 := by
  have hs : Recast d d := (Steady.refl d).toRecast
  have hrevoke : ∀ {d1 : Display} reason view, Recast d d1 →
      Recast d ((d1.fbInputRevoke reason).commitOwner view) := fun reason view h =>
    (h.trans (steady_fbInputRevoke _ reason).toRecast).trans (recast_commitOwner _ view)
  have hfb : ∀ view, Recast d { d with fallback := some view } := fun _ => ⟨rfl, id⟩
  cases op with
  | setMode width height bpp =>
    cases bga with
    | applied | rolledBack => exact d.recast_fbCommitLayout _ _
    | failed => exact d.recast_fbMarkFailed
  | registerFallback cookie mode =>
    refine of_check hs fun _ => of_check hs fun _ => of_check hs fun _ => of_check hs fun _ => ?_
    by_cases hown : d.owner = none
    · rw [if_pos hown]
      dsimp only
      exact (hfb cookie).trans (recast_commitOwner _ _)
    rw [if_neg hown]
    split_ifs with hnew
    · exact (hfb cookie).trans (recast_commitOwner _ _)
    · exact hfb cookie
  | acquire cookie mode =>
    refine of_check hs fun _ => of_check hs fun _ => of_check hs fun _ => of_check hs fun _ => ?_
    split_ifs with hown
    · dsimp only
      exact hrevoke _ _ hs
    · exact hs
  | release cookie =>
    refine of_check hs fun _ => ?_
    split_ifs with hown
    · exact hrevoke _ _ hs
    · exact hs
  | replaceFallback old new mode =>
    refine of_check hs fun _ => of_check hs fun _ => of_check hs fun _ => ?_
    split_ifs with hown
    · dsimp only
      exact hrevoke _ _ (hfb new)
    · exact (hfb new).trans (recast_commitOwner _ _)

lemma recast_fbOwnerDetach (d : Display) (cookie : View) : Recast d (d.fbOwnerDetach cookie) := by
  have hfb : Recast d (if d.fallback = some cookie then { d with fallback := none } else d) := by
    split_ifs
    · exact ⟨rfl, id⟩
    · exact (Steady.refl d).toRecast
  simp only [fbOwnerDetach]
  generalize (if d.fallback = some cookie then { d with fallback := none } else d) = d1 at hfb ⊢
  split_ifs
  · exact hfb.trans ((steady_fbInputRevoke _ _).toRecast.trans (recast_commitOwner _ _))
  · exact hfb.trans (recast_commitOwner _ _)
  · exact (Steady.refl d).toRecast

/-- A view that is not the owner leaves without a change of the owner. -/
lemma steady_fbOwnerDetach (d : Display) {cookie : View} (h : d.owner ≠ some cookie) :
    Steady d (d.fbOwnerDetach cookie) := by
  simp only [fbOwnerDetach, if_neg h]
  split_ifs with hf
  · have hs := steady_commitOwner_self { d with fallback := none }
    have hfb : Recast d { d with fallback := none } := ⟨rfl, id⟩
    exact ⟨hfb.trans hs.toRecast, hs.owner, hs.generation⟩
  · exact .refl d

/-- A call that commits with admission open looks again for a failed backend, and where the owner is as it was
seen it stays. -/
lemma steady_registerFallback (d : Display) (bga : BgaResult) (cookie : View) (mode : Nat)
    (h : d.owner ≠ none ∨ d.backendFailed = true) :
    Steady d (d.commit bga (.registerFallback cookie mode)).2 := by
  have hs : Steady d d := .refl d
  refine of_check hs fun hfld => of_check hs fun _ => of_check hs fun _ => of_check hs fun _ => ?_
  have hown : d.owner ≠ none := h.resolve_right hfld
  have hfb : Recast d { d with fallback := some cookie } := ⟨rfl, id⟩
  have hsl := steady_commitOwner_self { d with fallback := some cookie }
  rw [if_neg hown]
  split_ifs with hnew
  · exact ⟨hfb.trans hsl.toRecast, hsl.owner, hsl.generation⟩
  · exact ⟨hfb, rfl, rfl⟩

lemma steady_replaceFallback (d : Display) (bga : BgaResult) (old new : View) (mode : Nat)
    (h : d.owner ≠ some old ∨ d.backendFailed = true) :
    Steady d (d.commit bga (.replaceFallback old new mode)).2 := by
  have hs : Steady d d := .refl d
  refine of_check hs fun hfld => of_check hs fun _ => of_check hs fun _ => ?_
  have hown : d.owner ≠ some old := h.resolve_right hfld
  have hfb : Recast d { d with fallback := some new } := ⟨rfl, id⟩
  have hsl := steady_commitOwner_self { d with fallback := some new }
  rw [if_neg hown]
  exact ⟨hfb.trans hsl.toRecast, hsl.owner, hsl.generation⟩

/-! ## Admission -/

/-- A lease is refused, and nothing changes, or it is granted: on an open display, to a class that is not
`refused`, with the generation of the mode. -/
lemma beginLease_cases (d : Display) (refused : Option Int) (expected : Nat) :
    (∃ e, d.beginLease refused expected = (.error e, d)) ∨ (¬ d.Closed ∧ refused = none ∧
        d.beginLease refused expected = (.ok d.generation, { d with activeWriters := d.activeWriters + 1 })) := by
  unfold beginLease
  by_cases h1 : ¬ d.initialized
  · exact .inl ⟨_, if_pos h1⟩
  rw [if_neg h1]
  by_cases h2 : d.backendFailed = true
  · exact .inl ⟨_, if_pos h2⟩
  rw [if_neg h2]
  by_cases h3 : d.transitioning = true
  · exact .inl ⟨_, if_pos h3⟩
  rw [if_neg h3]
  by_cases h4 : ¬ d.mapped ∨ d.mappedSize = 0
  · exact .inl ⟨_, if_pos h4⟩
  rw [if_neg h4]
  cases refused with
  | some e => exact .inl ⟨_, rfl⟩
  | none =>
    by_cases h5 : expected ≠ 0 ∧ expected ≠ d.generation
    · exact .inl ⟨_, if_pos h5⟩
    · exact .inr ⟨fun h => h.elim h3 h2, rfl, if_neg h5⟩

/-- What a grant by `fb_writer_begin` and `fb_gfx_writer_begin` says, for the class `client` of the writer. -/
def Grants (d : Display) (client : Option View) (r : Except Int Nat × Display) : Prop :=
  (∃ e, r = (.error e, d)) ∨
    (¬ d.Closed ∧ d.owner = client ∧
      r = (.ok d.generation, { d with activeWriters := d.activeWriters + 1 }))

lemma grants_fbWriterBegin (d : Display) (expected : Nat) : d.Grants none (d.fbWriterBegin expected) := by
  rcases d.beginLease_cases (if d.owner ≠ none then some EBUSY else none) expected with h | ⟨ho, hrfd, h⟩
  · exact .inl h
  · refine .inr ⟨ho, ?_, h⟩
    by_contra hown
    rw [if_pos hown] at hrfd
    cases hrfd

lemma grants_fbGfxWriterBegin (d : Display) (modeSeq : Nat) (cookie : Option View) :
    d.Grants cookie (d.fbGfxWriterBegin modeSeq cookie) := by
  rcases d.beginLease_cases (if cookie = none ∨ d.owner ≠ cookie then some EACCES else none) modeSeq with
    h | ⟨ho, hrfd, h⟩
  · exact .inl h
  · refine .inr ⟨ho, ?_, h⟩
    by_contra hown
    rw [if_pos (Or.inr hown)] at hrfd
    cases hrfd

end Display

/-! ## The invariant -/

/-- What is known where a call is. With admission closed there is no lease; a call that has left it open has seen
an owner that it will not replace. -/
def Control.Placed (c : Control) (d : Display) (held : List HeldLease) : Prop :=
  match c.phase with
  | .entered | .checked | .ending _ _ => True
  | .draining => d.Closed
  | .ready true => held = [] ∧ d.Closed
  | .ready false =>
    match c.op with
    | .registerFallback _ _ => d.owner ≠ none ∨ d.backendFailed = true
    | .replaceFallback old _ _ => d.owner ≠ some old ∨ d.backendFailed = true
    | _ => False

/-- What is known where a call is stays known while the owner stays, or once the backend has failed; no writer may
come where none is and admission is closed. -/
lemma Control.Placed.keep {c : Control} {d d' : Display} {held held' : List HeldLease} (h : c.Placed d held)
    (hhl : d.Closed → held = [] → held' = []) (hcl : d.Closed → d'.Closed)
    (hfld : d.backendFailed = true → d'.backendFailed = true)
    (hown : d'.owner = d.owner ∨ d'.backendFailed = true) : c.Placed d' held' := by
  have hs : ∀ view, d.owner ≠ view ∨ d.backendFailed = true → d'.owner ≠ view ∨ d'.backendFailed = true := by
    intro view hv
    obtain hown | hnow := hown
    · rw [hown]
      exact hv.imp_right hfld
    · exact .inr hnow
  obtain ⟨op, phase⟩ := c
  cases phase with
  | draining => exact hcl h
  | ready closed =>
    cases closed with
    | true => exact ⟨hhl h.2 h.1, hcl h.2⟩
    | false =>
      cases op with
      | registerFallback cookie mode => exact hs none h
      | replaceFallback old new mode => exact hs (some old) h
      | setMode | acquire | release => exact h.elim
  | _ => trivial

namespace FbSystem

/-- The leases that are held are counted, and each belongs to who may draw now, in the mode of now. -/
structure Leased (s : FbSystem) : Prop where
  count : s.display.activeWriters = s.held.length
  entitled : ∀ l ∈ s.held, l.client = s.display.owner ∧ l.generation = s.display.generation
  console : s.display.ConsoleFollows
  placed : ∀ c, s.control = some c → c.Placed s.display s.held

/-- The callers of `fb_owner_detach` have ended the leases of the view, and those of `fb_mark_failed` the leases of
every view. -/
def LeaseSafe (s : FbSystem) : FbEvent → Prop
  | .detach cookie => ∀ l ∈ s.held, l.client ≠ some cookie
  | .markFailed => ∀ l ∈ s.held, l.client = none
  | _ => True

/-- A step from `s` to `t` keeps the leases in order, and where one is held it keeps the owner and the mode. -/
structure Accounted (s t : FbSystem) : Prop where
  leased : t.Leased
  same : s.held = [] ∨ t.display.owner = s.display.owner ∧ t.display.generation = s.display.generation

variable {control : Option Control} {d : Display} {s t : FbSystem} {id : Nat} {phase : Phase} {op : ControlOp}

section

variable (h : s.Leased)
include h

/-- A step that keeps the owner and the mode, whatever is held. -/
lemma Leased.steady (hd : s.display.Steady d)
    (hpl : ∀ c, control = some c → c.Placed d s.held) (boundMode : Nat) :
    Accounted s ⟨d, s.held, control, boundMode⟩ where
  leased :=
    { count := hd.writers.trans h.count
      entitled := by
        intro l hl
        rw [hd.owner, hd.generation]
        exact h.entitled l hl
      console := hd.console h.console
      placed := hpl }
  same := .inr ⟨hd.owner, hd.generation⟩

/-- A step taken while nothing is held. -/
lemma Leased.recast (hhl : s.held = []) (hd : s.display.Recast d)
    (hpl : ∀ c, control = some c → c.Placed d s.held) (boundMode : Nat) :
    Accounted s ⟨d, s.held, control, boundMode⟩ where
  leased :=
    { count := hd.writers.trans h.count
      entitled := by
        intro l hl
        rw [hhl] at hl
        cases hl
      console := hd.console h.console
      placed := hpl }
  same := .inl hhl

/-- No lease is held while the count is zero. -/
lemma Leased.held_nil (hw : s.display.activeWriters = 0) : s.held = [] :=
  length_eq_zero_iff.1 (h.count.symm.trans hw)

/-! ## One step -/

lemma Leased.beginWriter {client : Option View}
    {r : Except Int Nat × Display} (hr : s.display.Grants client r) (hs : s.beginWriter id client r = some t) :
    Accounted s t := by
  unfold FbSystem.beginWriter at hs
  split_ifs at hs with hid
  obtain ⟨e, rfl⟩ | ⟨ho, hown, rfl⟩ := hr
  · cases hs
    exact ⟨h, .inr ⟨rfl, rfl⟩⟩
  cases hs
  refine ⟨⟨?_, ?_, ?_, ?_⟩, .inr ⟨rfl, rfl⟩⟩
  · simp [h.count]
  · intro l hl
    obtain hl | hl := mem_append.1 hl
    · exact h.entitled l hl
    · obtain rfl := mem_singleton.1 hl
      exact ⟨hown.symm, rfl⟩
  · exact h.console
  · -- A call that has closed admission would have made this grant impossible.
    intro c hc
    exact (h.placed c hc).keep (fun hcl _ => absurd hcl ho) (fun h => h) (fun h => h) (.inl rfl)

lemma Leased.writerEnd (hid : s.held.any (fun l => l.id == id)) :
    Accounted s { s with display := s.display.fbWriterEnd, held := s.held.eraseP fun l => l.id == id } := by
  obtain ⟨l, hl, hlid⟩ := any_eq_true.1 hid
  have hlen : (s.held.eraseP fun l => l.id == id).length = s.held.length - 1 := length_eraseP_of_mem hl hlid
  have hpos : 0 < s.display.activeWriters := by
    rw [h.count]
    exact length_pos_of_mem hl
  have hend : s.display.fbWriterEnd = { s.display with activeWriters := s.display.activeWriters - 1 } :=
    if_pos hpos
  rw [hend]
  refine ⟨⟨?_, ?_, ?_, ?_⟩, .inr ⟨rfl, rfl⟩⟩
  · rw [hlen, ← h.count]
  · exact fun l hl => h.entitled l (mem_of_mem_eraseP hl)
  · exact h.console
  · intro c hc
    exact (h.placed c hc).keep (fun _ hnil => absurd hnil (ne_nil_of_mem hl)) (fun h => h) (fun h => h) (.inl rfl)

end

/-- A call that goes on has passed its checks. -/
lemma goes_check {c : Prop} [Decidable c] {rc : Int} {o : Outcome}
    (h : (if c then .returns rc else o) = .goes phase) : ¬ c ∧ o = .goes phase := by
  by_cases hc : c
  · rw [if_pos hc] at h
    cases h
  · rw [if_neg hc] at h
    exact ⟨hc, h⟩

lemma enter_goes (h : d.enter op = .goes phase) : phase = .entered ∨ phase = .checked := by
  have hoth : (if ¬ d.initialized then returns (- EAGAIN)
      else if d.backendFailed then .returns (- EIO) else .goes .entered) = .goes phase → phase = .entered := by
    intro h
    obtain ⟨-, h⟩ := goes_check h
    obtain ⟨-, h⟩ := goes_check h
    exact (goes.inj h).symm
  cases op with
  | setMode width height bpp =>
    iterate 9 obtain ⟨-, h⟩ := goes_check h
    exact .inr (goes.inj h).symm
  | _ => exact .inl (hoth h)

/-- Where its first section sends a call is consistent with what it saw. -/
lemma placed_check (h : d.check op = .goes phase)
    (held : List HeldLease) : Control.Placed ⟨op, phase⟩ d held := by
  cases op with
  | setMode width height bpp =>
    cases h
    trivial
  | registerFallback cookie mode =>
    iterate 4 obtain ⟨-, h⟩ := goes_check h
    by_cases hown : d.owner = none
    · rw [if_pos hown] at h
      cases h
      trivial
    · rw [if_neg hown] at h
      cases h
      exact .inl hown
  | acquire cookie mode =>
    iterate 4 obtain ⟨-, h⟩ := goes_check h
    cases h
    trivial
  | release cookie =>
    obtain ⟨-, h⟩ := goes_check h
    cases h
    trivial
  | replaceFallback old new mode =>
    iterate 3 obtain ⟨-, h⟩ := goes_check h
    by_cases hown : d.owner = some old
    · rw [if_pos hown] at h
      cases h
      trivial
    · rw [if_neg hown] at h
      cases h
      exact .inl hown

section

variable (h : s.Leased)
include h

lemma Leased.goOn (op : ControlOp) {outcome : Outcome}
    (hpl : ∀ phase, outcome = .goes phase → Control.Placed ⟨op, phase⟩ s.display s.held) :
    Accounted s (s.goOn op outcome) := by
  cases outcome with
  | returns rc => exact h.steady (.refl _) (by rintro c ⟨⟩) s.boundMode
  | goes phase =>
    refine h.steady (.refl _) ?_ s.boundMode
    rintro c ⟨⟩
    exact hpl phase rfl

lemma Leased.enter (op : ControlOp) : Accounted s (s.goOn op (s.display.enter op)) := by
  refine h.goOn op ?_
  intro phase hph
  rcases enter_goes hph with rfl | rfl <;> trivial

/-- A section of `fb_transition_begin`: admission is closed, and the call goes on to its commit only with nothing
held. -/
lemma Leased.afterDrain (op : ControlOp) {r : Except Int Bool}
    (hd : s.display.Steady d) (hr : ∀ b, r = .ok b → d.Closed ∧ (b = true → s.display.activeWriters = 0)) :
    Accounted s (s.afterDrain op (r, d)) := by
  cases r with
  | error e => exact h.steady hd (by rintro c ⟨⟩) s.boundMode
  | ok b =>
    obtain ⟨hcl, hz⟩ := hr b rfl
    cases b with
    | true =>
      refine h.steady hd ?_ s.boundMode
      rintro c ⟨⟩
      exact ⟨h.held_nil (hz rfl), hcl⟩
    | false =>
      refine h.steady hd ?_ s.boundMode
      rintro c ⟨⟩
      exact hcl

lemma Leased.closeAdmission (op : ControlOp) : Accounted s (s.afterDrain op s.display.fbTransitionBegin) := by
  unfold fbTransitionBegin
  split_ifs
  · exact h.afterDrain op (.refl _) (by rintro b ⟨⟩)
  · exact h.afterDrain op (.refl _) (by rintro b ⟨⟩)
  · refine h.afterDrain op (.of_fields rfl rfl rfl rfl) ?_
    rintro b ⟨⟩
    exact ⟨.inl rfl, of_decide_eq_true⟩
  · exact h.afterDrain op (.refl _) (by rintro b ⟨⟩)

lemma Leased.drain (op : ControlOp) (hcl : s.display.Closed) (late : Bool) :
    Accounted s (s.afterDrain op (s.display.fbDrain late)) := by
  unfold fbDrain
  split_ifs with hz hl
  · refine h.afterDrain op (.refl _) ?_
    rintro b ⟨⟩
    exact ⟨hcl, fun _ => hz⟩
  · exact h.afterDrain op (.of_fields rfl rfl rfl rfl) (by rintro b ⟨⟩)
  · refine h.afterDrain op (.refl _) ?_
    rintro b ⟨⟩
    exact ⟨hcl, nofun⟩

/-- **The commit.** With admission closed nothing is held; with admission open the owner stays. -/
lemma Leased.commit {closed : Bool} (hctl : s.control = some ⟨op, .ready closed⟩) (bga : BgaResult) :
    Accounted s (s.afterCommit op closed bga (s.display.commit bga op)) := by
  have hpl := h.placed _ hctl
  have hend : ∀ closed', Accounted s ⟨(s.display.commit bga op).2, s.held,
        some ⟨op, .ending closed' (s.display.commit bga op).1⟩, s.boundMode⟩ := by
    intro closed'
    have hending : ∀ c, some (Control.mk op (.ending closed' (s.display.commit bga op).1)) = some c →
        c.Placed (s.display.commit bga op).2 s.held := by
      rintro c ⟨⟩
      trivial
    cases closed with
    | true => exact h.recast hpl.1 (s.display.recast_commit bga op) hending s.boundMode
    | false =>
      cases op with
      | registerFallback cookie mode =>
        exact h.steady (s.display.steady_registerFallback bga cookie mode hpl) hending s.boundMode
      | replaceFallback old new mode =>
        exact h.steady (s.display.steady_replaceFallback bga old new mode hpl) hending s.boundMode
      | setMode | acquire | release => exact hpl.elim
  unfold afterCommit
  split
  · exact hend false
  · exact hend closed

/-- A step that touches neither the writers nor the owner, taken beside whatever call there is. -/
lemma Leased.aside (hd : s.display.Steady d)
    (hclosed : d.transitioning = s.display.transitioning) (hfld : d.backendFailed = s.display.backendFailed) :
    Accounted s { s with display := d } := by
  refine h.steady hd ?_ s.boundMode
  intro c hc
  refine (h.placed c hc).keep (fun _ => id) ?_ (fun hf => hfld.trans hf) (.inl hd.owner)
  intro hcl
  rwa [Display.Closed, hclosed, hfld]

lemma Leased.markFailed (hs : ∀ l ∈ s.held, l.client = none) :
    Accounted s { s with display := s.display.fbMarkFailed } := by
  obtain ⟨hown, hgen, hfld⟩ := s.display.fbMarkFailed_spec
  have hpl : ∀ c, s.control = some c → c.Placed s.display.fbMarkFailed s.held := fun c hc =>
    (h.placed c hc).keep (fun _ => id) (fun _ => .inr hfld) (fun _ => hfld) (.inr hfld)
  -- A lease that is held is the console's, and then there is no owner to take away.
  by_cases hhl : s.held = []
  · exact h.recast hhl s.display.recast_fbMarkFailed hpl s.boundMode
  · obtain ⟨l, hl⟩ := exists_mem_of_ne_nil s.held hhl
    have hn : s.display.owner = none := (h.entitled l hl).1.symm.trans (hs l hl)
    exact h.steady ⟨s.display.recast_fbMarkFailed, hown.trans hn.symm, hgen⟩ hpl s.boundMode

lemma Leased.detach (hctl : s.control = none) {cookie : View} (hs : ∀ l ∈ s.held, l.client ≠ some cookie) :
    Accounted s { s with display := s.display.fbOwnerDetach cookie } := by
  have hpl : ∀ c, s.control = some c → c.Placed (s.display.fbOwnerDetach cookie) s.held := by
    rw [hctl]
    rintro c ⟨⟩
  by_cases hown : s.display.owner = some cookie
  · have hhl : s.held = [] := by
      refine eq_nil_iff_forall_not_mem.2 ?_
      intro l hl
      exact hs l hl ((h.entitled l hl).1.trans hown)
    exact h.recast hhl (s.display.recast_fbOwnerDetach cookie) hpl s.boundMode
  · exact h.steady (s.display.steady_fbOwnerDetach hown) hpl s.boundMode

end

/-- **One section.** -/
theorem Leased.step {e : FbEvent} (h : s.Leased) (hs : guarded fbStep LeaseSafe s e t) : Accounted s t := by
  obtain ⟨hsf, hs⟩ := hs
  have hn : ∀ {d : Display}, s.control = none → ∀ c, s.control = some c → c.Placed d s.held := by
    intro d hctl c hc
    rw [hctl] at hc
    cases hc
  cases e with simp only [fbStep, next] at hs
  | consoleBegin id expected => exact h.beginWriter (s.display.grants_fbWriterBegin expected) hs
  | gfxBegin id cookie modeSeq => exact h.beginWriter (s.display.grants_fbGfxWriterBegin modeSeq cookie) hs
  | writerEnd id =>
    split_ifs at hs with hid <;> cases hs
    · exact h.writerEnd hid
    · exact ⟨h, .inr ⟨rfl, rfl⟩⟩
  | enter op =>
    split at hs <;> cases hs
    exact h.enter op
  | check =>
    split at hs <;> cases hs
    exact h.goOn _ fun _ hph => placed_check hph s.held
  | closeAdmission =>
    split at hs <;> cases hs
    exact h.closeAdmission _
  | drain late =>
    split at hs <;> cases hs
    rename_i op hctl
    exact h.drain op (h.placed _ hctl) late
  | commit bga =>
    split at hs <;> cases hs
    rename_i op closed hctl
    exact h.commit hctl bga
  | finish =>
    split at hs <;> cases hs
    refine h.steady ?_ (by rintro c ⟨⟩) s.boundMode
    unfold fbTransitionEnd
    split_ifs <;> exact .of_fields rfl rfl rfl rfl
  | detach cookie =>
    split at hs <;> cases hs
    exact h.detach ‹_› hsf
  | markFailed =>
    cases hs
    exact h.markFailed hsf
  | inputBind view mode kbd mouse =>
    have hb := s.display.steady_fbInputBind view mode kbd mouse
    split at hs
    · rename_i hctl
      generalize s.display.fbInputBind view mode kbd mouse = r at hs hb
      obtain ⟨_ | _, d⟩ := r <;> cases hs
      · exact h.steady hb (hn hctl) s.boundMode
      · exact h.steady hb (hn hctl) d.generation
    · cases hs
  | inputUnbind view generation reason =>
    split at hs <;> cases hs
    exact h.steady (s.display.steady_fbInputUnbind view generation reason) (hn ‹_›) s.boundMode
  | openFile device f =>
    split_ifs at hs
    cases hs
    exact h.aside (.of_fields rfl rfl rfl rfl) rfl rfl
  | closeFile f =>
    cases hs
    exact h.aside (.of_fields rfl rfl rfl rfl) rfl rfl
  | rawMmap writable =>
    cases hs
    exact h.aside (.of_fields rfl rfl rfl rfl) rfl rfl

lemma Leased.of_booted (h : Booted s) : s.Leased where
  count := by rw [h.writers, h.held, length_nil]
  entitled l hl := by
    rw [h.held] at hl
    cases hl
  console := iff_of_true h.console h.owner
  placed c hc := by
    rw [h.control] at hc
    cases hc

lemma Leased.of_run {es : List FbEvent} (hb : Booted s)
    (hrun : Run (guarded fbStep LeaseSafe) s es t) : t.Leased :=
  Run.invariant (fun _ _ _ hs hst => (hs.step hst).leased) hrun (.of_booted hb)

/-- **Display ownership and writer leases.** In every state that is reached, the count of writers is the number of
leases held; each of them belongs to who may draw, the console or the owner's view, in the current mode; and the
console is enabled exactly when there is no owner. A step that changes the owner or the mode is taken with no lease
held. -/
theorem writer_leases {s t : FbSystem} {es : List FbEvent} (hboot : Booted s)
    (hrun : Run (guarded fbStep LeaseSafe) s es t) : t.display.activeWriters = t.held.length ∧
      (∀ l ∈ t.held, l.client = t.display.owner ∧ l.generation = t.display.generation) ∧
      (t.display.consoleActive = true ↔ t.display.owner = none) ∧ ∀ e u, guarded fbStep LeaseSafe t e u →
        u.display.owner ≠ t.display.owner ∨ u.display.generation ≠ t.display.generation → t.held = [] := by
  have ht : t.Leased := .of_run hboot hrun
  refine ⟨ht.count, ht.entitled, ht.console, ?_⟩
  intro e u hs hchg
  obtain hhl | ⟨hown, hgen⟩ := (ht.step hs).same
  · exact hhl
  · exact absurd hchg (by simp [hown, hgen])

/-- A display that has been set up, with a mapping and one mode. -/
def bootedSystem : FbSystem where
  display :=
    { initialized := true, info := ⟨640, 480, 32⟩, generation := 1, mapped := true, mappedSize := 0x400000
      vramCapacity := 0x400000, modes := [⟨800, 600, 32⟩], activeWriters := 0, transitioning := false
      backendReady := true, backendFailed := false, rawMmapSeen := false, rawWritableMmapSeen := false
      owner := none, fallback := none, ownerGeneration := 1, inputLease := ⟨.none, none, 0⟩
      consoleActive := true, surrendered := false, route := routeInit }
  held := []
  control := none
  boundMode := 0

lemma booted_bootedSystem : Booted bootedSystem := ⟨rfl, rfl, rfl, rfl, rfl, rfl, rfl, rfl⟩

/-- View 7 takes the display, over the console that is still drawing, and draws. -/
def takeOver : List FbEvent :=
  [.consoleBegin 0 0, .enter (.acquire 7 0), .check, .closeAdmission, .writerEnd 0, .drain false, .commit .applied,
    .finish, .gfxBegin 1 (some 7) 1]

/-- The system after the take-over. -/
def takenOver : FbSystem := (takeOver.foldlM next bootedSystem).get rfl

lemma run_takeOver : Run fbStep bootedSystem takeOver takenOver := Run.of_foldlM (some_get _).symm

/-- The take-over with its lease held: the view owns the display and is the one that is counted. -/
theorem writer_leases_takeOver : takenOver.held = [⟨1, some 7, 1⟩] ∧ takenOver.display.activeWriters = 1 ∧
      takenOver.display.owner = some 7 ∧ takenOver.display.consoleActive = false := by
  have hs : ∀ e ∈ takeOver, ∀ s, LeaseSafe s e := by simp [takeOver, LeaseSafe]
  obtain ⟨hcnt, hentitled, hconsole, -⟩ := writer_leases booted_bootedSystem (run_takeOver.guard hs)
  have hhl : takenOver.held = [⟨1, some 7, 1⟩] := rfl
  have hown : takenOver.display.owner = some 7 := (hentitled ⟨1, some 7, 1⟩ (by simp [hhl])).1.symm
  refine ⟨hhl, hcnt.trans (by rw [hhl]; rfl), hown, ?_⟩
  exact Bool.eq_false_iff.2 (fun h => nomatch hconsole.1 h)

/-- `fb_mark_failed` beside a view that is drawing: the lease is held, and its view does not own the display. -/
theorem markFailed_beside_lease :
    Booted bootedSystem ∧ ∃ t : FbSystem, Run fbStep bootedSystem (takeOver ++ [.markFailed]) t ∧
      ∃ l ∈ t.held, l.client ≠ t.display.owner := by
  refine ⟨booted_bootedSystem, { takenOver with display := takenOver.display.fbMarkFailed }, ?_, ?_⟩
  · exact run_takeOver.append (.single rfl)
  · exact ⟨⟨1, some 7, 1⟩, mem_singleton.2 rfl, by decide⟩

end FbSystem

end OS01.Driver
