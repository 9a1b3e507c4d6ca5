import Mathlib.Data.List.Nodup
import Mathlib.Data.List.Perm.Basic
import OS01.Fs.Dcache

/-!
# Coherence of the dentry cache

With fewer than `2 ^ 32` mutations at the same time, a cached entry that does not agree with the name
space belongs to a name that a mutation in progress may still change, so that all entries agree when
none is in progress.

An entry is only inserted when no mutation is active and the generation is the one of the token. A
token is only issued when no mutation is active, and every mutation begins and ends with a bump of
the generation. So there was no mutation between the two, and what the looker read in between is still
so. An entry that goes stale in a mutation is removed before the mutation counts itself down, and none
comes in its place meanwhile.
-/

namespace OS01.Fs

open Nat Function List Lib Dcache DPc

/-! ## The clock -/

/-- Generations before the epoch changes: zero is not used. -/
def GENERATIONS : Nat := 2 ^ 48 - 1

/-- The token after a number of bumps. -/
def tokenAt (bumps : Nat) : Nat := bumps / GENERATIONS % 2 ^ 16 * 2 ^ 48 + (bumps % GENERATIONS + 1)

/-- The generation and the epoch after a number of bumps. -/
structure Dcache.Clock (c : Dcache) (bumps : Nat) : Prop where
  gen : c.gen = bumps % GENERATIONS + 1
  epoch : c.epoch = bumps / GENERATIONS % 2 ^ 64

namespace Dcache.Clock

variable {c : Dcache} {n : Nat}

lemma gen_lt (n : Nat) : n % GENERATIONS + 1 < 2 ^ 48 := by
  have h : n % GENERATIONS < GENERATIONS := mod_lt _ (by decide)
  have hG : GENERATIONS + 1 = 2 ^ 48 := by decide
  omega

/-- A token tells the clock's time. -/
lemma encodeToken (h : c.Clock n) (hact : c.active = 0) : c.encodeToken = tokenAt n := by
  have hlt := gen_lt n
  have htok : (c.epoch <<< 48) % 2 ^ 64 ||| c.gen % 2 ^ 48 = tokenAt n := by
    rw [h.gen, h.epoch, shiftLeft_eq, show (2 : Nat) ^ 64 = 2 ^ 16 * 2 ^ 48 from rfl,
      mul_mod_mul_right, mod_eq_of_lt hlt, mod_mul_right_mod, ← shiftLeft_eq,
      ← shiftLeft_add_eq_or_of_lt hlt, shiftLeft_eq]
    rfl
  unfold Dcache.encodeToken
  rw [if_neg (not_not.2 hact)]
  simp only [htok]
  exact if_neg (succ_ne_zero _)

/-- One more bump, before the end of an epoch and at the end of it. -/
lemma succ_generations (n : Nat) :
    (n % GENERATIONS + 1 < GENERATIONS ∧ (n + 1) % GENERATIONS = n % GENERATIONS + 1 ∧
        (n + 1) / GENERATIONS = n / GENERATIONS) ∨
      (n % GENERATIONS + 1 = GENERATIONS ∧ (n + 1) % GENERATIONS = 0 ∧
        (n + 1) / GENERATIONS = n / GENERATIONS + 1) := by
  have hpos : 0 < GENERATIONS := by decide
  have hlt : n % GENERATIONS < GENERATIONS := mod_lt _ hpos
  have hn : n + 1 = n % GENERATIONS + 1 + GENERATIONS * (n / GENERATIONS) := by
    have := mod_add_div n GENERATIONS
    omega
  by_cases hr : n % GENERATIONS + 1 < GENERATIONS
  · refine .inl ⟨hr, ?_, ?_⟩
    · rw [hn, add_mul_mod_self_left, mod_eq_of_lt hr]
    · rw [hn, Nat.add_mul_div_left _ _ hpos, div_eq_of_lt hr, Nat.zero_add]
  · have hr : n % GENERATIONS + 1 = GENERATIONS := by omega
    refine .inr ⟨hr, ?_, ?_⟩
    · rw [hn, add_mul_mod_self_left, hr, mod_self]
    · rw [hn, Nat.add_mul_div_left _ _ hpos, hr, Nat.div_self hpos, Nat.add_comm]

lemma bumpGen (h : c.Clock n) : c.bumpGen.1.Clock (n + 1) := by
  have hG : GENERATIONS + 1 = 2 ^ 48 := by decide
  unfold Dcache.bumpGen
  obtain ⟨hr, hmod, hdiv⟩ | ⟨hr, hmod, hdiv⟩ := succ_generations n
  · have hgen : (c.gen + 1) % 2 ^ 64 = n % GENERATIONS + 2 := by
      rw [h.gen]
      exact mod_eq_of_lt (by omega)
    have hne : ¬(n % GENERATIONS + 2) % 2 ^ 48 = 0 := by
      omega
    simp only [hgen, if_neg hne]
    exact ⟨by rw [hmod], by rw [hdiv]; exact h.epoch⟩
  have hgen : (c.gen + 1) % 2 ^ 64 = 2 ^ 48 := by
    rw [h.gen, hr, hG, mod_eq_of_lt (by decide)]
  simp only [hgen, mod_self, if_true]
  refine ⟨by rw [hmod], ?_⟩
  rw [hdiv, h.epoch]
  simp

end Dcache.Clock

/-- Tokens come back only after all generations of all epochs. -/
lemma eq_of_tokenAt {m n : Nat} (h : tokenAt m = tokenAt n) (hle : m ≤ n) (hlt : n < m + 2 ^ 49) : m = n := by
  have hm := Dcache.Clock.gen_lt m
  have hn := Dcache.Clock.gen_lt n
  have hmod := congrArg (· % 2 ^ 48) h
  have hdiv := congrArg (· / 2 ^ 48) h
  simp only [tokenAt, mul_add_mod_self_right, mod_eq_of_lt hm, mod_eq_of_lt hn] at hmod
  simp only [tokenAt, Nat.mul_comm _ (2 ^ 48), mul_add_div (by decide : 0 < 2 ^ 48)] at hdiv
  have hepochs : m / GENERATIONS = n / GENERATIONS := by
    by_contra hne
    have hle' : m / GENERATIONS ≤ n / GENERATIONS := Nat.div_le_div_right hle
    have hfar : m / GENERATIONS + 65536 ≤ n / GENERATIONS := by omega
    have hmul := mul_le_mul_left GENERATIONS hfar
    have hbig : 2 ^ 49 ≤ GENERATIONS * 65536 := by decide
    have h1 := mod_add_div m GENERATIONS
    have h2 := mod_add_div n GENERATIONS
    rw [Nat.mul_add] at hmul
    omega
  rw [← mod_add_div m GENERATIONS, ← mod_add_div n GENERATIONS, succ.inj hmod, hepochs]

/-! ## The invariant -/

namespace DPc

/-- The names that may still be stale in the cache because of a task. -/
def Dirty : DPc → DKey → Prop
  | .beginFlush target, k | .changing target, k => target.Covers k
  | .flushOld old new, k => k.mount = old ∨ k.mount = new
  | .flushNew _ new, k => k.mount = new
  | _, _ => False

/-- The task is in a mutation whose last bump is still to come. -/
def works : DPc → Bool
  | .beginFlush _ | .changing _ | .flushOld _ _ | .flushNew _ _ | .closing _ _ => true
  | _ => false

/-- The task is in a mutation after its last bump. -/
def sweeps : DPc → Bool
  | .endFlush | .leaving => true
  | _ => false

lemma works_of_dirty {pc : DPc} {k : DKey} (h : pc.Dirty k) : pc.works = true := by
  cases pc <;> first | rfl | exact absurd h id

end DPc

variable {τ : Type*}

/-- What holds of a token: when it was issued no mutation was in progress, and every mutation begun
since then has bumped the generation. -/
def TokenOk (s : DSystem τ) (token issued begun : Nat) : Prop :=
  token ≠ 0 → token = tokenAt issued ∧ issued = 2 * begun ∧ begun ≤ s.begun ∧
    s.begun + issued ≤ s.bumps + begun

/-- What holds at a point of a lookup: while nothing is bumped, what was read stays true. -/
def DPc.Ok (s : DSystem τ) : DPc → Prop
  | .missed _ _ token issued begun => TokenOk s token issued begun
  | .found dir name token issued begun child => TokenOk s token issued begun ∧
      (token ≠ 0 → s.bumps = issued → s.ns (dir.key name) = some child.object)
  | _ => True

/-- An entry that agrees with the name space, or whose name is being changed. -/
def DSystem.Current (s : DSystem τ) (e : DEntry) : Prop :=
  s.ns e.key = some e.child.object ∨ ∃ t, (s.pc t).Dirty e.key

/-- The invariant. -/
structure DcOk (s : DSystem τ) : Prop where
  clock : s.cache.Clock s.bumps
  active : s.cache.active = s.working.length + s.sweeping.length
  bumps : s.bumps + s.working.length = 2 * s.begun
  working : s.working.Nodup ∧ ∀ t, t ∈ s.working ↔ (s.pc t).works = true
  sweeping : s.sweeping.Nodup ∧ ∀ t, t ∈ s.sweeping ↔ (s.pc t).sweeps = true
  keys : s.cache.entries.Pairwise fun e e' => e.key ≠ e'.key
  entries : ∀ e ∈ s.cache.entries, s.Current e
  tasks : ∀ t, (s.pc t).Ok s

variable {s s' : DSystem τ} {t : τ} {pc : DPc} {c : Dcache} {k : DKey} {begun issued token n : Nat} {e : DEntry}
  {target : Target} {mp : Mount} {f : τ → DPc}

/-- While the generation is the one of a token, no mutation is in progress. -/
lemma DcOk.working_eq_nil (h : DcOk s)
    (htok : TokenOk s token issued begun) (hne : token ≠ 0) (heq : s.bumps = issued) : s.working = [] := by
  obtain ⟨-, hiss, hle, hcnt⟩ := htok hne
  have := h.bumps
  exact eq_nil_of_length_eq_zero (by omega)

/-- A task that works is in the list of those. -/
lemma DcOk.working_ne_nil (h : DcOk s) (ht : (s.pc t).works = true) : s.working ≠ [] :=
  ne_nil_of_mem ((h.working.2 t).2 ht)

/-- What holds at a point of a lookup depends on the counters and the name space only. -/
lemma DPc.Ok.congr (h : pc.Ok s) (hbumps : s'.bumps = s.bumps) (hbegun : s'.begun = s.begun)
    (hns : s'.ns = s.ns) : pc.Ok s' := by
  cases pc with
  | missed dir name token issued begun =>
    simpa only [DPc.Ok, TokenOk, hbumps, hbegun] using h
  | found dir name token issued begun child =>
    simpa only [DPc.Ok, TokenOk, hbumps, hbegun, hns] using h
  | _ => trivial

/-- After a bump no token is valid. -/
lemma DPc.Ok.bump (h : pc.Ok s) (hn : n ≤ 1) (hbumps : s'.bumps = s.bumps + 1)
    (hbegun : s'.begun = s.begun + n) : pc.Ok s' := by
  have htok {token issued begun : Nat} (h : TokenOk s token issued begun) :
      TokenOk s' token issued begun := by
    intro hne
    obtain ⟨h1, h2, h3, h4⟩ := h hne
    exact ⟨h1, h2, by omega, by omega⟩
  cases pc with
  | missed dir name token issued begun => exact htok h
  | found dir name token issued begun child =>
    refine ⟨htok h.1, fun hne heq => ?_⟩
    obtain ⟨-, -, h3, h4⟩ := h.1 hne
    omega
  | _ => trivial

/-- Entries leave the cache or are reordered. -/
lemma DcOk.shrink (h : DcOk s) (hgen : c.gen = s.cache.gen) (hep : c.epoch = s.cache.epoch)
    (hact : c.active = s.cache.active) (hsub : ∀ e ∈ c.entries, e ∈ s.cache.entries)
    (hk : c.entries.Pairwise fun e e' => e.key ≠ e'.key) : DcOk (s.withCache c) where
  clock := ⟨hgen.trans h.clock.gen, hep.trans h.clock.epoch⟩
  active := hact.trans h.active
  bumps := h.bumps
  working := h.working
  sweeping := h.sweeping
  keys := hk
  entries e he := h.entries e (hsub e he)
  tasks u := (h.tasks u).congr rfl rfl rfl

lemma DcOk.erase (h : DcOk s) (p : DEntry → Bool) :
    DcOk (s.withCache { s.cache with entries := s.cache.entries.eraseP p }) :=
  h.shrink rfl rfl rfl (fun _ he => mem_of_mem_eraseP he) (h.keys.sublist eraseP_sublist)

/-! ## Lookups -/

lemma find_spec (h : c.find k = some e) : e ∈ c.entries ∧ e.key = k :=
  ⟨mem_of_find?_eq_some h, by simpa using find?_some h⟩

lemma keys_of_find_none (h : c.find k = none) : ∀ e ∈ c.entries, e.key ≠ k := by
  intro e he hk
  simpa [hk] using find?_eq_none.1 h e he

/-- After an entry is detached its key is free. -/
lemma keys_detach (h : c.entries.Pairwise fun e e' => e.key ≠ e'.key) :
    ∀ e ∈ (c.detach k).entries, e.key ≠ k := by
  intro e he hk
  unfold detach at he
  generalize c.entries = l at h he
  induction l with
  | nil => cases he
  | cons x l ih =>
    obtain ⟨hx, hl⟩ := pairwise_cons.1 h
    by_cases hxk : x.key = k
    · rw [eraseP_cons_of_pos (by simpa using hxk)] at he
      exact hx e he (hxk.trans hk.symm)
    · rw [eraseP_cons_of_neg (by simpa using hxk)] at he
      obtain rfl | he := mem_cons.1 he
      · exact hxk hk
      · exact ih hl he

lemma keys_pushHead (h : c.entries.Pairwise fun e e' => e.key ≠ e'.key)
    (hne : ∀ e' ∈ c.entries, e'.key ≠ e.key) : (c.pushHead e).entries.Pairwise fun e e' => e.key ≠ e'.key :=
  pairwise_cons.2 ⟨fun e' he' heq => hne e' he' heq.symm, h⟩

/-- What a lookup does to the cache, and what a token says. -/
lemma lookupBegin_spec (h : DcOk s) (dir : DirNode) (name : FileName) :
    DcOk (s.withCache (s.cache.lookupBegin s.dead dir name).1) ∧
      (∀ child, (s.cache.lookupBegin s.dead dir name).2.1 = some child →
        ⟨dir.key name, child⟩ ∈ s.cache.entries) ∧
      TokenOk s (s.cache.lookupBegin s.dead dir name).2.2 s.bumps s.begun := by
  have htok (c : Dcache) (hgen : c.gen = s.cache.gen) (hep : c.epoch = s.cache.epoch)
      (hact : c.active = s.cache.active) : TokenOk s c.encodeToken s.bumps s.begun := by
    intro hne
    have hz : c.active = 0 := by
      by_contra hpos
      exact hne (if_pos hpos)
    have hclock : c.Clock s.bumps := ⟨hgen.trans h.clock.gen, hep.trans h.clock.epoch⟩
    have h1 := h.active
    have h2 := h.bumps
    exact ⟨hclock.encodeToken hz, by omega, Nat.le_refl _, by omega⟩
  have hdet : DcOk (s.withCache (s.cache.detach (dir.key name))) := h.erase _
  unfold lookupBegin
  split
  · exact ⟨h, fun _ hc => by (cases hc), fun hne => absurd rfl hne⟩
  dsimp only
  split
  · next e he =>
      obtain ⟨hmem, hk⟩ := find_spec he
      split
      · refine ⟨h.shrink rfl rfl rfl ?_ ?_, fun child hc => ?_, fun hne => absurd rfl hne⟩
        · intro e' he'
          obtain rfl | he' := mem_cons.1 he'
          · exact hmem
          · exact mem_of_mem_eraseP he'
        · exact keys_pushHead hdet.keys (hk.symm ▸ keys_detach h.keys)
        · cases hc
          rw [← hk]
          exact hmem
      · exact ⟨hdet, fun _ hc => by (cases hc), htok _ rfl rfl rfl⟩
  · exact ⟨h, fun _ hc => by (cases hc), htok _ rfl rfl rfl⟩

/-- What an insertion adds. -/
lemma insert_spec (c : Dcache) (k : DKey) (child : ChildNode)
    (h : c.entries.Pairwise fun e e' => e.key ≠ e'.key) :
    ((c.insert k child).gen = c.gen ∧ (c.insert k child).epoch = c.epoch ∧
        (c.insert k child).active = c.active) ∧
      (∀ e ∈ (c.insert k child).entries, e = ⟨k, child⟩ ∨ e ∈ c.entries) ∧
      (c.insert k child).entries.Pairwise fun e e' => e.key ≠ e'.key := by
  unfold Dcache.insert
  cases hf : c.find k with
  | some e =>
    refine ⟨⟨rfl, rfl, rfl⟩, fun e he => ?_, ?_⟩
    · obtain rfl | he := mem_cons.1 he
      · exact .inl rfl
      · exact .inr (mem_of_mem_eraseP he)
    · exact keys_pushHead (h.sublist eraseP_sublist) (keys_detach h)
  | none =>
    have hfr := keys_of_find_none hf
    dsimp only
    split
    · refine ⟨⟨rfl, rfl, rfl⟩, fun e he => ?_, ?_⟩
      · obtain rfl | he := mem_cons.1 he
        · exact .inl rfl
        · exact .inr (dropLast_subset _ he)
      · exact keys_pushHead (h.sublist (dropLast_sublist _)) fun e he => hfr e (dropLast_subset _ he)
    · refine ⟨⟨rfl, rfl, rfl⟩, fun e he => ?_, keys_pushHead h hfr⟩
      obtain rfl | he := mem_cons.1 he
      · exact .inl rfl
      · exact .inr he

/-- **A validated insertion** is of what the name denotes. -/
lemma DcOk.insertValidated (h : DcOk s) {dir : DirNode} {name : FileName} {child : ChildNode}
    (ht : s.pc t = .found dir name token issued begun child) (htimely : s.begun < begun + 2 ^ 48) :
    DcOk (s.withCache (s.cache.insertValidated s.dead dir name child token)) := by
  unfold Dcache.insertValidated
  split
  · exact h
  split
  · exact h
  split
  · exact h
  split
  · exact h
  next hn _ _ hval =>
    simp only [not_or, not_not] at hn hval
    obtain ⟨hz, -, htoken, -⟩ := hval
    have hok := h.tasks t
    rw [ht] at hok
    obtain ⟨htok, hr⟩ := hok
    obtain ⟨hissue, hiss, hle, hcnt⟩ := htok hn.2
    -- no bump since the token was issued
    have h2 := h.bumps
    have hbumps : s.bumps = issued := by
      refine (eq_of_tokenAt ?_ (by omega) (by omega)).symm
      rw [← hissue, ← htoken, h.clock.encodeToken hz]
    have hns := hr hn.2 hbumps
    obtain ⟨⟨hgen, hep, hact⟩, hmem, hk⟩ := insert_spec s.cache (dir.key name) child h.keys
    refine ⟨⟨hgen.trans h.clock.gen, hep.trans h.clock.epoch⟩, hact.trans h.active,
      h.bumps, h.working, h.sweeping, hk, fun e he => ?_, fun u => (h.tasks u).congr rfl rfl rfl⟩
    obtain rfl | he := hmem e he
    · exact .inl hns
    · exact h.entries e he

/-- The name space changes under a mutation. -/
lemma DcOk.change (h : DcOk s) (ht : s.pc t = .changing target) (hk : target.Covers k) (object : Option Nat) :
    DcOk { s with ns := update s.ns k object } where
  clock := h.clock
  active := h.active
  bumps := h.bumps
  working := h.working
  sweeping := h.sweeping
  keys := h.keys
  entries e he := by
    by_cases hek : e.key = k
    · refine .inr ⟨t, ?_⟩
      rw [ht, hek]
      exact hk
    · obtain hns | hd := h.entries e he
      · exact .inl ((update_of_ne hek ..).trans hns)
      · exact .inr hd
  tasks u := by
    -- a valid token says that no mutation is in progress
    have hne : s.working ≠ [] := h.working_ne_nil (t := t) (by rw [ht]; rfl)
    have hok := h.tasks u
    cases hu : s.pc u with
    | found dir name token issued begun child =>
      rw [hu] at hok
      exact ⟨hok.1, fun htok heq => absurd (h.working_eq_nil hok.1 htok heq) hne⟩
    | missed dir name token issued begun =>
      rw [hu] at hok
      exact hok
    | _ => trivial

/-- `dcache_flush_mount` ends when no entry of the mount is left. -/
lemma flushMountOne_none (h : c.flushMountOne mp = none) : ∀ e ∈ c.entries, e.key.mount ≠ mp := by
  intro e he hmp
  unfold flushMountOne at h
  split at h
  · cases h
  · next hany =>
      simp only [any_eq_true, not_exists, not_and] at hany
      exact hany e he (by simp [ofMount, hmp])

lemma DcOk.flushMountOne (h : DcOk s) (hc : s.cache.flushMountOne mp = some c) : DcOk (s.withCache c) := by
  unfold Dcache.flushMountOne at hc
  split at hc
  · cases hc
    exact h.erase _
  · cases hc

lemma DcOk.flushOne (h : DcOk s) (hc : s.cache.flushOne = some c) : DcOk (s.withCache c) := by
  unfold Dcache.flushOne at hc
  split at hc
  · cases hc
  · next e es he =>
      cases hc
      exact h.shrink rfl rfl rfl (fun e' he' => he ▸ mem_cons_of_mem _ he') (pairwise_cons.1 (he ▸ h.keys)).2

/-! ## Mutations -/

variable [DecidableEq τ]

/-- The tasks at some points, when one task moves. -/
lemma mem_iff_update {q : DPc → Bool} {l l' : List τ}
    (h : ∀ u, u ∈ l ↔ q (f u) = true) (hs : t ∈ l' ↔ q pc = true)
    (hr : ∀ u, u ≠ t → (u ∈ l' ↔ u ∈ l)) (u : τ) : u ∈ l' ↔ q (update f t pc u) = true := by
  by_cases hu : u = t
  · rw [hu, update_self]
    exact hs
  · rw [update_of_ne hu, hr u hu]
    exact h u

lemma ok_update (h : ∀ u, (f u).Ok s) (pc : DPc) (hpc : pc.Ok s) (u : τ) : (update f t pc u).Ok s := by
  by_cases hu : u = t
  · rw [hu, update_self]
    exact hpc
  · rw [update_of_ne hu]
    exact h u

/-- An entry stays current when a task moves that does not answer for it. -/
lemma current_update {o : Option Nat} (pc : DPc) (h : o = some e.child.object ∨ ∃ u, (f u).Dirty e.key)
    (hdirty : (f t).Dirty e.key → pc.Dirty e.key) :
    o = some e.child.object ∨ ∃ u, (update f t pc u).Dirty e.key := by
  obtain hns | ⟨u, hu⟩ := h
  · exact .inl hns
  refine .inr ⟨u, ?_⟩
  by_cases hut : u = t
  · subst hut
    rw [update_self]
    exact hdirty hu
  · rw [update_of_ne hut]
    exact hu

/-- A task moves on without giving up a name it may have made stale. -/
lemma DcOk.goto (h : DcOk s) (hwks : pc.works = (s.pc t).works) (hsweeps : pc.sweeps = (s.pc t).sweeps)
    (hdirty : ∀ e ∈ s.cache.entries, (s.pc t).Dirty e.key → pc.Dirty e.key) (hok : pc.Ok s) :
    DcOk (s.goto t pc) where
  clock := h.clock
  active := h.active
  bumps := h.bumps
  working := ⟨h.working.1, mem_iff_update h.working.2 (hwks ▸ h.working.2 t) fun _ _ => .rfl⟩
  sweeping := ⟨h.sweeping.1, mem_iff_update h.sweeping.2 (hsweeps ▸ h.sweeping.2 t) fun _ _ => .rfl⟩
  keys := h.keys
  entries e he := current_update _ (h.entries e he) (hdirty e he)
  tasks u := (ok_update h.tasks pc hok u).congr rfl rfl rfl

lemma bumpGen_entries (c : Dcache) : c.bumpGen.1.entries = c.entries ∧ c.bumpGen.1.active = c.active := by
  unfold bumpGen
  dsimp only
  split <;> exact ⟨rfl, rfl⟩

lemma mutationBegin_eq (s : DSystem τ) (t : τ) (target : Target) : ∃ pc, s.mutationBegin t target = { s with
        cache := s.cache.enter.bumpGen.1, pc := update s.pc t pc, bumps := s.bumps + 1,
        begun := s.begun + 1, working := t :: s.working } ∧
      (pc = .beginFlush target ∨ pc = .changing target) := by
  unfold DSystem.mutationBegin
  generalize s.cache.enter.bumpGen = b
  obtain ⟨c, wrapped⟩ := b
  cases wrapped
  · exact ⟨.changing target, rfl, .inr rfl⟩
  · exact ⟨.beginFlush target, rfl, .inl rfl⟩

/-- **A mutation begins.** -/
lemma DcOk.mutationBegin (h : DcOk s) (ht : s.pc t = .idle)
    (hlt : s.working.length + 1 + s.sweeping.length < 2 ^ 32) : DcOk (s.mutationBegin t target) := by
  obtain ⟨hent, hact⟩ := bumpGen_entries s.cache.enter
  obtain ⟨pc, he, hpc⟩ := mutationBegin_eq s t target
  have hwks : pc.works = true := by rcases hpc with rfl | rfl <;> rfl
  have hsweeps : pc.sweeps = false := by rcases hpc with rfl | rfl <;> rfl
  have hok : pc.Ok s := by rcases hpc with rfl | rfl <;> trivial
  have hnot : t ∉ s.working := fun hmem => by
    have := (h.working.2 t).1 hmem
    rw [ht] at this
    cases this
  rw [he]
  refine ⟨Dcache.Clock.bumpGen (c := s.cache.enter) ⟨h.clock.gen, h.clock.epoch⟩, ?_, ?_,
    ⟨nodup_cons.2 ⟨hnot, h.working.1⟩, ?_⟩, ⟨h.sweeping.1, ?_⟩, ?_, ?_, ?_⟩
  · have hmod : s.cache.enter.active = (s.cache.active + 1) % 2 ^ 32 := rfl
    change s.cache.enter.bumpGen.1.active = s.working.length + 1 + s.sweeping.length
    rw [hact, hmod, h.active]
    omega
  · have := h.bumps
    change s.bumps + 1 + (s.working.length + 1) = 2 * (s.begun + 1)
    omega
  · exact mem_iff_update h.working.2 (by simp [hwks]) fun u hu => by simp [hu]
  · refine mem_iff_update h.sweeping.2 ?_ fun _ _ => .rfl
    rw [hsweeps, h.sweeping.2 t, ht]
    rfl
  · exact hent.symm ▸ h.keys
  · intro e he
    refine current_update _ (h.entries e (hent ▸ he)) fun hd => ?_
    rw [ht] at hd
    exact absurd hd id
  · exact fun u => (ok_update h.tasks pc hok u).bump (Nat.le_refl 1) rfl rfl

lemma leave_active (h : c.active = n + 1) : c.leave.active = n := by
  unfold leave
  rw [if_pos (by omega)]
  change c.active - 1 = n
  omega

lemma leave_frame (c : Dcache) :
    c.leave.entries = c.entries ∧ c.leave.gen = c.gen ∧ c.leave.epoch = c.epoch := by
  unfold leave
  split <;> exact ⟨rfl, rfl, rfl⟩

lemma lastBump_eq (s : DSystem τ) (t : τ) : s.lastBump t = { s with
        cache := s.cache.bumpGen.1, pc := update s.pc t .endFlush, bumps := s.bumps + 1,
        working := s.working.erase t, sweeping := t :: s.sweeping } ∨
      s.lastBump t = { s with
        cache := s.cache.bumpGen.1.leave, pc := update s.pc t .idle, bumps := s.bumps + 1,
        working := s.working.erase t } := by
  unfold DSystem.lastBump
  generalize s.cache.bumpGen = b
  obtain ⟨c, wrapped⟩ := b
  cases wrapped
  · exact .inr rfl
  · exact .inl rfl

/-- **The last bump of a mutation** after which no entry is stale because of it. -/
lemma DcOk.lastBump (h : DcOk s) (ht : (s.pc t).works = true)
    (hclean : ∀ e ∈ s.cache.entries, ¬(s.pc t).Dirty e.key) : DcOk (s.lastBump t) := by
  obtain ⟨hent, hact⟩ := bumpGen_entries s.cache
  have hmem : t ∈ s.working := (h.working.2 t).2 ht
  have hlen : (s.working.erase t).length + 1 = s.working.length := by
    rw [length_erase_of_mem hmem]
    have := length_pos_of_mem hmem
    omega
  have hbumps := h.bumps
  have hactive := h.active
  have hnot : ¬t ∈ s.working.erase t := h.working.1.not_mem_erase
  have hr (u : τ) (hu : u ≠ t) : u ∈ s.working.erase t ↔ u ∈ s.working := mem_erase_of_ne hu
  have hnd := h.working.1.erase t
  have hnsweep : t ∉ s.sweeping := fun hmem => by
    have := (h.sweeping.2 t).1 hmem
    revert ht this
    cases s.pc t <;> exact fun h1 h2 => by cases h1 <;> cases h2
  have hcur (pc : DPc) (e : DEntry) (he : e ∈ s.cache.entries) :=
    current_update (f := s.pc) (t := t) pc (h.entries e he) fun hd => absurd hd (hclean e he)
  obtain he | he := lastBump_eq s t
  · rw [he]
    refine ⟨h.clock.bumpGen, ?_, ?_, ⟨hnd, ?_⟩, ⟨nodup_cons.2 ⟨hnsweep, h.sweeping.1⟩, ?_⟩,
      hent.symm ▸ h.keys, fun e he => hcur _ e (hent ▸ he), fun u => ?_⟩
    · change s.cache.bumpGen.1.active = (s.working.erase t).length + (s.sweeping.length + 1)
      omega
    · change s.bumps + 1 + (s.working.erase t).length = 2 * s.begun
      omega
    · exact mem_iff_update h.working.2 (by simpa [works] using hnot) hr
    · exact mem_iff_update h.sweeping.2 (by simp [sweeps]) fun u hu => by simp [hu]
    · exact (ok_update h.tasks .endFlush trivial u).bump (zero_le 1) rfl rfl
  · obtain ⟨hent', hgen, hep⟩ := leave_frame s.cache.bumpGen.1
    rw [he]
    refine ⟨⟨hgen.trans h.clock.bumpGen.gen, hep.trans h.clock.bumpGen.epoch⟩, ?_, ?_,
      ⟨hnd, ?_⟩, ⟨h.sweeping.1, ?_⟩, hent'.symm ▸ hent.symm ▸ h.keys,
      fun e he => hcur _ e (hent ▸ hent' ▸ he), fun u => ?_⟩
    · exact leave_active (n := (s.working.erase t).length + s.sweeping.length) (by omega)
    · change s.bumps + 1 + (s.working.erase t).length = 2 * s.begun
      omega
    · exact mem_iff_update h.working.2 (by simpa [works] using hnot) hr
    · exact mem_iff_update h.sweeping.2 (by simpa [sweeps] using hnsweep) fun _ _ => .rfl
    · exact (ok_update h.tasks .idle trivial u).bump (zero_le 1) rfl rfl

/-- The mutation is counted down after its flush. -/
lemma DcOk.lastLeave (h : DcOk s) (ht : s.pc t = .leaving) : DcOk (s.lastLeave t) := by
  obtain ⟨hent, hgen, hep⟩ := leave_frame s.cache
  have hmem : t ∈ s.sweeping := (h.sweeping.2 t).2 (by rw [ht]; rfl)
  have hlen : (s.sweeping.erase t).length + 1 = s.sweeping.length := by
    rw [length_erase_of_mem hmem]
    have := length_pos_of_mem hmem
    omega
  have hact := h.active
  have he : s.lastLeave t = { s with
      cache := s.cache.leave, pc := update s.pc t .idle,
      sweeping := s.sweeping.erase t } := rfl
  rw [he]
  refine ⟨⟨hgen.trans h.clock.gen, hep.trans h.clock.epoch⟩, ?_, h.bumps, ⟨h.working.1, ?_⟩,
    ⟨h.sweeping.1.erase t, ?_⟩, hent.symm ▸ h.keys, fun e he => ?_, fun u => ?_⟩
  · exact leave_active (n := s.working.length + (s.sweeping.erase t).length) (by omega)
  · refine mem_iff_update h.working.2 ?_ fun _ _ => .rfl
    rw [h.working.2 t, ht]
    rfl
  · exact mem_iff_update h.sweeping.2 (by simpa [sweeps] using h.sweeping.1.not_mem_erase)
      fun u hu => mem_erase_of_ne hu
  · refine current_update _ (h.entries e (hent ▸ he)) fun hd => ?_
    rw [ht] at hd
    exact absurd hd id
  · exact (ok_update h.tasks .idle trivial u).congr rfl rfl rfl

/-! ## One step -/

/-- A token is used before `2 ^ 48` mutations have begun since its issue. -/
def DSystem.Timely (s : DSystem τ) (e : DEvent τ) : Prop :=
  ∀ t dir name token issued begun child, e = .insert t →
    s.pc t = .found dir name token issued begun child → s.begun < begun + 2 ^ 48

/-- There are never `2 ^ 32` mutations at the same time. -/
def DSystem.Counted (s : DSystem τ) (e : DEvent τ) : Prop :=
  ∀ t target, e = .mutationBegin t target → s.working.length + 1 + s.sweeping.length < 2 ^ 32

/-- **The next section of a call.** -/
lemma DcOk.advance (h : DcOk s) (hs : s.advance t = some s') : DcOk s' := by
  unfold DSystem.advance at hs
  cases hpc : s.pc t with
  | flushOld old new =>
    simp only [hpc, Option.some.injEq] at hs
    subst hs
    split
    · next c hc => exact h.flushMountOne hc
    next hc =>
      have hn := flushMountOne_none hc
      split
      · next heq =>
          refine h.goto (by rw [hpc]; rfl) (by rw [hpc]; rfl) (fun e he hd => ?_) trivial
          rw [hpc, heq] at hd
          exact absurd (or_self_iff.1 hd) (hn e he)
      · refine h.goto (by rw [hpc]; rfl) (by rw [hpc]; rfl) (fun e he hd => ?_) trivial
        rw [hpc] at hd
        exact hd.resolve_left (hn e he)
  | flushNew old new =>
    simp only [hpc, Option.some.injEq] at hs
    subst hs
    split
    · next c hc => exact h.flushMountOne hc
    · next hc =>
        refine h.goto (by rw [hpc]; rfl) (by rw [hpc]; rfl) (fun e he hd => ?_) trivial
        rw [hpc] at hd
        exact absurd hd (flushMountOne_none hc e he)
  | closing old new =>
    simp only [hpc, Option.some.injEq] at hs
    subst hs
    exact h.lastBump (by rw [hpc]; rfl) fun e _ hd => by rw [hpc] at hd; exact hd
  | beginFlush target | endFlush =>
    simp only [hpc, Option.some.injEq] at hs
    subst hs
    split
    · next c hc => exact h.flushOne hc
    · exact h.goto (by rw [hpc]; rfl) (by rw [hpc]; rfl) (fun e _ hd => by rwa [hpc] at hd) trivial
  | leaving =>
    simp only [hpc, Option.some.injEq] at hs
    subst hs
    exact h.lastLeave hpc
  | _ => simp [hpc] at hs

/-- **One step** keeps the invariant. -/
lemma DcOk.step (h : DcOk s) {e : DEvent τ} (hcnt : s.Counted e) (htimely : s.Timely e)
    (hst : DSystem.Step s e s') : DcOk s' := by
  cases hst with
  | @hit t dir name c child token ht he =>
    have hs := lookupBegin_spec h dir name
    rw [he] at hs
    exact hs.1
  | @miss t dir name c token ht he =>
    have hs := lookupBegin_spec h dir name
    rw [he] at hs
    exact hs.1.goto (by change _ = (s.pc _).works; rw [ht]; rfl) (by change _ = (s.pc _).sweeps; rw [ht]; rfl)
      (fun e _ hd => by change (s.pc _).Dirty _ at hd; rw [ht] at hd; exact hd) hs.2.2
  | @readFound t dir name token issued begun child ht hns =>
    have hok := h.tasks t
    rw [ht] at hok
    exact h.goto (by rw [ht]; rfl) (by rw [ht]; rfl) (fun e _ hd => by rw [ht] at hd; exact hd)
      ⟨hok, fun _ _ => hns⟩
  | readNone ht hns =>
    exact h.goto (by rw [ht]; rfl) (by rw [ht]; rfl) (fun e _ hd => by rw [ht] at hd; exact hd) trivial
  | insert ht =>
    have hins := h.insertValidated ht (htimely _ _ _ _ _ _ _ rfl ht)
    exact hins.goto (by change _ = (s.pc _).works; rw [ht]; rfl) (by change _ = (s.pc _).sweeps; rw [ht]; rfl)
      (fun e _ hd => by change (s.pc _).Dirty _ at hd; rw [ht] at hd; exact hd) trivial
  | mutationBegin ht => exact h.mutationBegin ht (hcnt _ _ rfl)
  | change ht hk => exact h.change ht hk _
  | endName ht =>
    refine DcOk.lastBump (h.erase _) (by change (s.pc _).works = true; rw [ht]; rfl) fun e he hd => ?_
    change (s.pc _).Dirty _ at hd
    rw [ht] at hd
    exact keys_detach h.keys e he hd
  | endRename ht =>
    exact h.goto (by rw [ht]; rfl) (by rw [ht]; rfl) (fun e _ hd => by rwa [ht] at hd) trivial
  | advance ha => exact h.advance ha
  | invalidate => exact h.erase _
  | flushMount hc => exact h.flushMountOne hc
  | mark => exact ⟨h.clock, h.active, h.bumps, h.working, h.sweeping, h.keys, h.entries, h.tasks⟩

end OS01.Fs
