import OS01.Driver.FbLeases
import OS01.Driver.InputConfinement

/-!
# Input follows the display owner

The coordinator keeps a record of the input lease under the display lock, and the input route keeps the lease
itself under its own. `Display.Follows` relates the two: a lease of the route belongs to the owner of the display,
was bound in the current mode, and is the one on record. The converse does not hold, because the route ends a lease
on its own when a bound file is closed; `fb_input_lease_blocks_locked` finds the record stale later.

Every commit that changes the owner or the mode revokes the lease first, with the view and the generation on
record. Under the invariant these are the route's, so the lease does end.
-/

namespace OS01.Driver

open Option Lib Display Route FbSystem

namespace Display

/-- A lease of the route is the owner's, of the mode `boundMode` that it was bound in, and on record. -/
def Follows (d : Display) (boundMode : Nat) : Prop :=
  d.route.leaseActive = true →
    (∃ view, d.owner = some view ∧ d.route.view = some view) ∧ boundMode = d.generation ∧
      d.inputLease = ⟨.live, d.route.view, d.route.generation⟩

variable {d : Display} {boundMode : Nat}

lemma Follows.of_inactive (h : d.route.leaseActive = false) (boundMode : Nat) : d.Follows boundMode := by
  intro hact
  rw [h] at hact
  cases hact

/-- The invariant reads four fields. -/
lemma Follows.congr {d' : Display} (h : d.Follows boundMode) (hroute : d'.route = d.route)
    (hlse : d'.inputLease = d.inputLease) (hown : d'.owner = d.owner)
    (hgen : d'.generation = d.generation) : d'.Follows boundMode := by
  unfold Follows
  rw [hroute, hlse, hown, hgen]
  exact h

lemma leaseActive_revoke (r : Route) (reason : Int) : (r.revoke reason).leaseActive = false := by
  cases hact : r.leaseActive with
  | true => exact (ended_revoke hact reason).inactive
  | false => rwa [revoke_of_inactive hact]

/-- An unbind with the view and the generation of the lease ends it. -/
lemma leaseActive_unbind (r : Route) {view : View} (hv : r.view = some view) (reason : Int) :
    (r.unbind (some view) r.generation reason).leaseActive = false := by
  unfold unbind
  by_cases hact : r.leaseActive = true
  · simpa [hact, hv] using leaseActive_revoke r reason
  · simp [hact]

section

variable (h : d.Follows boundMode)
include h

/-- **The revoke ends the lease**, whatever it is for. -/
lemma Follows.leaseActive_fbInputRevoke (reason : Int) :
    (d.fbInputRevoke reason).route.leaseActive = false := by
  cases hact : d.route.leaseActive with
  | true =>
    obtain ⟨⟨view, -, hv⟩, -, hlse⟩ := h hact
    have hl : ¬ d.inputLease.state ≠ .live := by rw [hlse]; exact not_not_intro rfl
    rw [fbInputRevoke]
    rw [hlse, hv]
    exact leaseActive_unbind d.route hv reason
  | false =>
    unfold fbInputRevoke
    split_ifs
    · exact hact
    · simp [unbind, hact]

/-- A new owner is set after the lease has been revoked. -/
lemma Follows.revoke_commitOwner (reason : Int)
    (view : Option View) : ((d.fbInputRevoke reason).commitOwner view).Follows boundMode := by
  refine .of_inactive ?_ boundMode
  rw [commitOwner_eq]
  exact h.leaseActive_fbInputRevoke reason

lemma Follows.commitOwner_self : (d.commitOwner d.owner).Follows boundMode := by
  rw [commitOwner_eq]
  exact h

/-- Where there is no owner there is no lease. -/
lemma Follows.inactive_of_owner (hown : d.owner = none) : d.route.leaseActive = false := by
  by_contra hact
  obtain ⟨⟨view, hv, -⟩, -⟩ := h (Bool.not_eq_false _ ▸ hact)
  rw [hown] at hv
  cases hv

lemma Follows.fbMarkFailed : d.fbMarkFailed.Follows boundMode := by
  have hfld : Follows { d with backendFailed := true, backendReady := false, transitioning := true } boundMode :=
    h.congr rfl rfl rfl rfl
  refine .of_inactive ?_ boundMode
  exact hfld.leaseActive_fbInputRevoke EIO

lemma Follows.fbCommitLayout {info : Option FbInfo}
    {redraw : Bool} (hmv : (info.isSome || redraw) = true) : (d.fbCommitLayout info redraw).Follows boundMode := by
  refine .of_inactive ?_ boundMode
  simp only [Display.fbCommitLayout, hmv]
  exact h.leaseActive_fbInputRevoke ESTALE

/-! ## Commits -/

lemma Follows.commit (bga : BgaResult) (op : ControlOp) : (d.commit bga op).2.Follows boundMode := by
  have hfb : ∀ view, Follows { d with fallback := some view } boundMode := fun _ => h.congr rfl rfl rfl rfl
  have hchk : ∀ {c : Prop} [Decidable c] {rc : Int} {r : Int × Display},
      (¬ c → r.2.Follows boundMode) → (if c then (rc, d) else r).2.Follows boundMode := fun hr =>
    of_check (P := fun d => d.Follows boundMode) h hr
  cases op with
  | setMode width height bpp =>
    cases bga with
    | applied | rolledBack => exact h.fbCommitLayout rfl
    | failed => exact h.fbMarkFailed
  | registerFallback cookie mode =>
    refine hchk fun _ => hchk fun _ => hchk fun _ => hchk fun _ => ?_
    by_cases hown : d.owner = none
    · rw [if_pos hown]
      refine .of_inactive ?_ boundMode
      exact h.inactive_of_owner hown
    rw [if_neg hown]
    split_ifs with hnew
    · exact (hfb cookie).commitOwner_self
    · exact hfb cookie
  | acquire cookie mode =>
    refine hchk fun _ => hchk fun _ => hchk fun _ => hchk fun _ => ?_
    split_ifs with hown
    · exact h.revoke_commitOwner _ _
    · exact h
  | release cookie =>
    refine hchk fun _ => ?_
    split_ifs with hown
    · exact h.revoke_commitOwner _ _
    · exact h
  | replaceFallback old new mode =>
    refine hchk fun _ => hchk fun _ => hchk fun _ => ?_
    split_ifs with hown
    · exact (hfb new).revoke_commitOwner _ _
    · exact (hfb new).commitOwner_self

lemma Follows.fbOwnerDetach (cookie : View) : (d.fbOwnerDetach cookie).Follows boundMode := by
  have hfb : Follows { d with fallback := none } boundMode := h.congr rfl rfl rfl rfl
  unfold Display.fbOwnerDetach
  by_cases hf : d.fallback = some cookie
  · simp only [if_pos hf]
    split_ifs
    · exact hfb.revoke_commitOwner _ _
    · exact hfb.commitOwner_self
  · simp only [if_neg hf]
    split_ifs
    · exact h.revoke_commitOwner _ _
    · exact h

end

/-! ## Binding, unbinding and closing -/

/-- A bind of the route that succeeds gives out the generation of the lease that it starts. -/
lemma bind_ok {r r' : Route} {view : Option View} {kbd mouse : Option RouteFile} {generation : Nat}
    {mods : Modifiers} (h : r.bind view kbd mouse = (.ok (generation, mods), r')) :
    r'.view = view ∧ r'.generation = generation := by
  rw [Route.bind.eq_def] at h
  cases view with
  | none => cases h
  | some view =>
    cases kbd with
    | none => cases h
    | some kbd =>
      dsimp only at h
      split_ifs at h <;> cases h <;> exact ⟨rfl, rfl⟩

/-- A bind is refused, and the invariant stays with the mode of the last bind, or it starts a lease of the owner in
the mode of now. -/
def BindFollows (boundMode : Nat) : Except Int (Nat × Bool) × Display → Prop
  | (.error _, d) => d.Follows boundMode
  | (.ok _, d) => d.Follows d.generation

lemma Follows.fbInputBind (h : d.Follows boundMode) (view : Option View) (mode : Nat) (kbd mouse : Option RouteFile) :
    BindFollows boundMode (d.fbInputBind view mode kbd mouse) := by
  have hchk {c : Prop} [Decidable c] {e : Int} {r : Except Int (Nat × Bool) × Display}
      (hr : ¬ c → BindFollows boundMode r) : BindFollows boundMode (if c then (.error e, d) else r) :=
    iteInduction (fun _ => h) hr
  refine hchk fun h1 => hchk fun _ => hchk fun _ => hchk fun hown => hchk fun _ => ?_
  have hbl : ∃ b d1, d.fbInputLeaseBlocks = (b, d1) ∧ d1.Follows boundMode ∧ d1.owner = d.owner := by
    unfold fbInputLeaseBlocks
    split_ifs with hl hroute
    · exact ⟨_, _, rfl, h, rfl⟩
    · exact ⟨_, _, rfl, h, rfl⟩
    · exact ⟨_, _, rfl, fun hact => absurd hact hroute, rfl⟩
  obtain ⟨b, d1, hb, hd1, hown1⟩ := hbl
  rw [hb]
  cases b with
  | true => exact hd1
  | false =>
    dsimp only
    rcases hbn : d1.route.bind view kbd mouse with ⟨_ | ⟨generation, mods⟩, route⟩
    · obtain ⟨e, he⟩ | ⟨f, mods, r', -, hok, -⟩ := Watched.bind_cases d1.route view kbd mouse
      · obtain rfl : route = d1.route := (Prod.mk.inj (hbn.symm.trans he)).2
        exact hd1
      · cases hbn.symm.trans hok
    · obtain ⟨hv, hgen⟩ := bind_ok hbn
      obtain ⟨v, rfl⟩ : ∃ v, view = some v := ne_none_iff_exists'.1 fun hn => h1 (.inl hn)
      intro _
      refine ⟨⟨v, hown1.trans (not_not.1 hown), hv⟩, rfl, ?_⟩
      rw [hv, hgen]

lemma Follows.fbInputUnbind (h : d.Follows boundMode) (view : Option View)
    (generation : Nat) (reason : Int) : (d.fbInputUnbind view generation reason).Follows boundMode := by
  unfold Display.fbInputUnbind
  by_cases hn : view = none
  · rw [if_pos hn]
    exact h
  rw [if_neg hn]
  by_cases hrecord : d.inputLease.state ≠ .none ∧ d.inputLease.view = view ∧
      (generation = 0 ∨ generation = d.inputLease.generation)
  · -- The record is dropped, and what it names is what the route holds.
    obtain ⟨hst, hvw, hgen⟩ := hrecord
    rw [if_pos ⟨hst, hvw, hgen⟩]
    have hpassed : (if generation ≠ 0 then generation else d.inputLease.generation) =
        d.inputLease.generation := by
      split_ifs with hz
      · exact hgen.resolve_left hz
      · rfl
    rw [hpassed]
    refine .of_inactive ?_ boundMode
    cases hact : d.route.leaseActive with
    | true =>
      obtain ⟨⟨v, -, hv⟩, -, hlse⟩ := h hact
      rw [← hvw, hlse, hv]
      exact leaseActive_unbind d.route hv reason
    | false => simp [unbind, hact]
  · rw [if_neg hrecord]
    exact h

/-- The route ends the lease of a file that is closed on its own, and the record stays behind. -/
lemma Follows.releaseFile (h : d.Follows boundMode) (f : RouteFile) :
    Follows { d with route := d.route.releaseFile f } boundMode := by
  unfold Route.releaseFile
  cases d.route.files f with
  | none => exact h
  | some ep =>
    split_ifs with hbd
    · exact .of_inactive (leaseActive_revoke d.route 0) boundMode
    · exact h

end Display

namespace FbSystem

variable {s t : FbSystem}

lemma follows_beginWriter (h : s.display.Follows s.boundMode) {id : Nat} {client : Option View}
    {r : Except Int Nat × Display} (hr : s.display.Grants client r) (hs : s.beginWriter id client r = some t) :
    t.display.Follows t.boundMode := by
  unfold beginWriter at hs
  split_ifs at hs
  obtain ⟨e, rfl⟩ | ⟨-, -, rfl⟩ := hr
  · cases hs
    exact h
  · cases hs
    exact h.congr rfl rfl rfl rfl

lemma follows_afterDrain (op : ControlOp) {r : Except Int Bool} {d : Display} (hd : d.Follows s.boundMode) :
    (s.afterDrain op (r, d)).display.Follows (s.afterDrain op (r, d)).boundMode := by
  rcases r with _ | _ | _ <;> exact hd

/-- **One section** keeps the input with the owner. -/
theorem follows_step {e : FbEvent} (h : s.display.Follows s.boundMode) (hs : fbStep s e t) :
    t.display.Follows t.boundMode := by
  cases e with simp only [fbStep, next] at hs
  | consoleBegin id expected => exact follows_beginWriter h (s.display.grants_fbWriterBegin expected) hs
  | gfxBegin id cookie modeSeq => exact follows_beginWriter h (s.display.grants_fbGfxWriterBegin modeSeq cookie) hs
  | writerEnd id =>
    split_ifs at hs <;> cases hs
    · unfold fbWriterEnd
      split_ifs
      · exact h.congr rfl rfl rfl rfl
      · exact h
    · exact h
  | enter op =>
    split at hs <;> cases hs
    cases s.display.enter op <;> exact h
  | check =>
    split at hs <;> cases hs
    rename_i op _
    cases s.display.check op <;> exact h
  | closeAdmission =>
    split at hs <;> cases hs
    unfold fbTransitionBegin
    split_ifs <;> exact follows_afterDrain _ (h.congr rfl rfl rfl rfl)
  | drain late =>
    split at hs <;> cases hs
    unfold fbDrain
    split_ifs <;> exact follows_afterDrain _ (h.congr rfl rfl rfl rfl)
  | commit bga =>
    split at hs <;> cases hs
    unfold afterCommit
    split <;> exact h.commit _ _
  | finish =>
    split at hs <;> cases hs
    dsimp only [fbTransitionEnd]
    split_ifs <;> exact h.congr rfl rfl rfl rfl
  | detach cookie =>
    split at hs <;> cases hs
    exact h.fbOwnerDetach cookie
  | markFailed =>
    cases hs
    exact h.fbMarkFailed
  | inputBind view mode kbd mouse =>
    have hb := h.fbInputBind view mode kbd mouse
    split at hs
    · generalize s.display.fbInputBind view mode kbd mouse = r at hs hb
      obtain ⟨_ | _, d⟩ := r <;> cases hs <;> exact hb
    · cases hs
  | inputUnbind view generation reason =>
    split at hs <;> cases hs
    exact h.fbInputUnbind view generation reason
  | openFile device f =>
    split_ifs at hs
    cases hs
    exact h
  | closeFile f =>
    cases hs
    exact h.releaseFile f
  | rawMmap writable =>
    cases hs
    exact h.congr rfl rfl rfl rfl

/-- **Input follows display ownership.** In every state that is reached, a lease of the input route belongs to the
owner of the display, was bound in the current mode, and is the live one on record; and an unbind that carries the
generation of another lease changes nothing, in the coordinator and in the route. Generation 0 stands for whatever
lease the view has. -/
theorem input_follows_owner {s t : FbSystem} {es : List FbEvent} (hboot : Booted s) (hrun : Run fbStep s es t)
    (hactive : t.display.route.leaseActive = true) :
    (∃ view, t.display.owner = some view ∧ t.display.route.view = some view) ∧
      t.boundMode = t.display.generation ∧
      t.display.inputLease = ⟨.live, t.display.route.view, t.display.route.generation⟩ ∧
      ∀ view generation reason, generation ≠ 0 → generation ≠ t.display.route.generation →
        t.display.fbInputUnbind view generation reason = t.display ∧
          t.display.route.unbind view generation reason = t.display.route := by
  have hfol : t.display.Follows t.boundMode :=
    Run.invariant (I := fun s => s.display.Follows s.boundMode) (fun _ _ _ => follows_step) hrun
      (.of_inactive hboot.route s.boundMode)
  obtain ⟨hown, hm, hlse⟩ := hfol hactive
  refine ⟨hown, hm, hlse, ?_⟩
  intro view generation reason hz hoth
  constructor
  · unfold fbInputUnbind
    rw [hlse]
    simp [hz, hoth]
  · unfold unbind
    simp [hz, hoth]

/-- View 7 takes the display and the keyboard. -/
def takeInput : List FbEvent :=
  takeOver ++ [.openFile .keyboard 3, .inputBind (some 7) 1 (some 3) none]

/-- The system after that. -/
def withInput : FbSystem := (takeInput.foldlM next bootedSystem).get rfl

/-- The lease of view 7 on the keyboard is on record with generation 1. -/
theorem input_follows_owner_takeInput :
    withInput.display.route.leaseActive = true ∧ withInput.display.inputLease = ⟨.live, some 7, 1⟩ := by
  have hrun : Run fbStep bootedSystem takeInput withInput := Run.of_foldlM (some_get _).symm
  obtain ⟨-, -, hlse, -⟩ := input_follows_owner booted_bootedSystem hrun rfl
  exact ⟨rfl, hlse⟩

end FbSystem

end OS01.Driver
