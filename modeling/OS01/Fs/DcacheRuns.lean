import OS01.Fs.DcacheCoherence

/-!
# The dentry cache over whole runs

When no mutation is in progress, every entry agrees with the name space and so does every hit,
provided there are never `2 ^ 32` mutations at the same time. With that many the counter of active
mutations is back at zero, and a looker can insert what it read before a rename while the rename is
about to end.
-/

namespace OS01.Fs

open Nat Function DSystem Lib Dcache DPc

variable {τ : Type*}

/-- The state that `dcache_init` leaves, with all tasks idle. -/
structure DSystem.Start (s : DSystem τ) : Prop where
  cache : s.cache = { entries := [], gen := 1, epoch := 0, active := 0 }
  pc : ∀ t, s.pc t = .idle
  bumps : s.bumps = 0
  begun : s.begun = 0
  working : s.working = []
  sweeping : s.sweeping = []

/-- No mutation is active. -/
def DSystem.Quiet (s : DSystem τ) : Prop :=
  ∀ t, (s.pc t).works = false ∧ (s.pc t).sweeps = false

/-- All entries agree with the name space, and hits return what names denote. -/
structure DSystem.Coherent (s : DSystem τ) : Prop where
  entries : ∀ e ∈ s.cache.entries, s.ns e.key = some e.child.object
  hits : ∀ dir name child, (s.cache.lookupBegin s.dead dir name).2.1 = some child →
    s.ns (dir.key name) = some child.object

lemma DSystem.Start.ok {s : DSystem τ} (h : s.Start) : DcOk s where
  clock := ⟨by rw [h.cache, h.bumps]; rfl, by rw [h.cache, h.bumps]; rfl⟩
  active := by rw [h.cache, h.working, h.sweeping]; rfl
  bumps := by rw [h.bumps, h.working, h.begun]; rfl
  working := by simp [h.working, h.pc, works]
  sweeping := by simp [h.sweeping, h.pc, sweeps]
  keys := by rw [h.cache]; exact .nil
  entries := by simp [h.cache]
  tasks t := by rw [h.pc]; trivial

variable [DecidableEq τ]

/-- **The dentry cache is coherent** whenever no mutation is active, in every run of any number of
lookers and of fewer than `2 ^ 32` mutations at a time. -/
theorem dcache_coherent {s₀ s : DSystem τ} {es : List (DEvent τ)} (hstart : s₀.Start)
    (hrun : Run (guarded DSystem.Step fun s e => s.Counted e ∧ s.Timely e) s₀ es s)
    (hquiet : s.Quiet) : s.Coherent := by
  have hok : DcOk s := hrun.invariant (fun _ _ _ hs hst => hs.step hst.1.1 hst.1.2 hst.2) hstart.ok
  have hen : ∀ e ∈ s.cache.entries, s.ns e.key = some e.child.object := by
    intro e he
    refine (hok.entries e he).resolve_right ?_
    rintro ⟨t, hd⟩
    have hwks := works_of_dirty hd
    rw [(hquiet t).1] at hwks
    cases hwks
  exact ⟨hen, fun dir name child hhit =>
    hen _ ((lookupBegin_spec hok dir name).2.1 child hhit)⟩

/-! ## A run -/

/-- A mount, a directory of it, and a name. -/
def homeMount : Mount := { id := 0 }
/-- Its root directory. -/
def homeDir : DirNode := { node := 0, mount := homeMount, ino := 2 }
/-- The name `a`. -/
def nameA : FileName := ⟨[97], by decide⟩
/-- A node for the object 7, found in the directory. -/
def nodeA : ChildNode := { node := 1, object := 7, mount := homeMount, parent := 0 }

/-- `a` denotes the object 7, and all tasks are idle. -/
def freshDcache : DSystem Nat where
  cache := { entries := [], gen := 1, epoch := 0, active := 0 }
  ns := fun k => if k = homeDir.key nameA then some 7 else none
  dead := fun _ => false
  pc := fun _ => .idle
  bumps := 0
  begun := 0
  working := []
  sweeping := []

lemma freshDcache_start : freshDcache.Start := ⟨rfl, fun _ => rfl, rfl, rfl, rfl, rfl⟩

/-- One task looks the name up and caches it, and another one unlinks it. -/
def lookupUnlink : List (DEvent Nat) :=
  [.lookup 0 homeDir nameA, .readDir 0 (some nodeA), .insert 0, .mutationBegin 1 (.name (homeDir.key nameA)),
    .change 1 (homeDir.key nameA) none, .mutationEnd 1]

variable {e : DEvent Nat} {s : DSystem Nat} {n t : Nat}

/-- Only an insertion has to be in time. -/
lemma timely (hi : ∀ t, e ≠ .insert t) : s.Timely e := fun t _ _ _ _ _ _ he => absurd he (hi t)

/-- Without `insert` and `mutationBegin` the conditions say nothing. -/
lemma unguarded (hb : ∀ t target, e ≠ .mutationBegin t target)
    (hi : ∀ t, e ≠ .insert t) : s.Counted e ∧ s.Timely e :=
  ⟨fun t target he => absurd he (hb t target), timely hi⟩

/-- The theorem for a run with an insertion and a mutation. -/
theorem dcache_coherent_lookupUnlink : ∃ s, freshDcache.Start ∧
      Run (guarded DSystem.Step fun s e => s.Counted e ∧ s.Timely e) freshDcache lookupUnlink s ∧
      s.Quiet ∧ s.Coherent ∧ s.cache.gen = 3 ∧ s.cache.entries = [] := by
  have hrun : ∃ s, Run (guarded DSystem.Step fun s e => s.Counted e ∧ s.Timely e)
      freshDcache lookupUnlink s ∧ s.Quiet ∧ s.cache.gen = 3 ∧ s.cache.entries = [] := by
    refine ⟨_, .cons ⟨unguarded (by simp) (by simp), .miss rfl rfl⟩
      (.cons ⟨unguarded (by simp) (by simp), .readFound rfl rfl⟩
        (.cons ⟨⟨by simp [DSystem.Counted], ?_⟩, .insert rfl⟩
          (.cons ⟨⟨?_, timely (by simp)⟩, .mutationBegin rfl⟩
            (.cons ⟨unguarded (by simp) (by simp), .change rfl rfl⟩
              (.single ⟨unguarded (by simp) (by simp), .endName rfl⟩))))), fun t => ?_, ?_, ?_⟩
    · rintro t dir name token issued begun child he hpc
      cases he
      cases hpc
      decide
    · rintro t target -
      decide
    · obtain _ | _ | t := t <;> exact ⟨rfl, rfl⟩
    · decide
    · decide
  obtain ⟨s, hrun, hquiet, hen⟩ := hrun
  exact ⟨s, freshDcache_start, hrun, hquiet, dcache_coherent freshDcache_start hrun hquiet, hen⟩

/-! ## A run with too many mutations -/

/-- The first `n` tasks are at the end of a rename, and all others are idle. -/
def crowd (n t : Nat) : DPc := if t < n then .closing homeMount homeMount else .idle

lemma update_crowd (ht : t ≠ n) (pc : DPc) : update (crowd n) n pc t = crowd (n + 1) t := by
  have hiff : t < n ↔ t < n + 1 := by omega
  simp [crowd, update_of_ne ht, hiff]

lemma crowd_succ (n : Nat) : update (crowd n) n (.closing homeMount homeMount) = crowd (n + 1) := by
  funext t
  obtain rfl | ht := eq_or_ne t n
  · simp [crowd]
  · exact update_crowd ht _

lemma crowd_pred (n : Nat) : update (crowd (n + 1)) n .idle = crowd n := by
  funext t
  obtain rfl | ht := eq_or_ne t n
  · simp [crowd]
  · rw [update_of_ne ht, ← update_crowd ht .idle, update_of_ne ht]

lemma bumpGen_of_lt {c : Dcache} (h : c.gen + 1 < 2 ^ 48) :
    c.bumpGen = ({ c with gen := c.gen + 1 }, false) := by
  unfold bumpGen
  rw [mod_eq_of_lt (by omega : c.gen + 1 < 2 ^ 64)]
  refine if_neg ?_
  rw [mod_eq_of_lt h]
  exact succ_ne_zero _

/-- One more rename begins. -/
lemma begins {gen active : Nat} (hi : s.pc t = .idle)
    (hcac : s.cache = { entries := [], gen, epoch := 0, active }) (hgen : gen + 1 < 2 ^ 48) :
    ∃ s', guarded Step Timely s (.mutationBegin t (.rename homeMount homeMount)) s' ∧
      s'.cache = { entries := [], gen := gen + 1, epoch := 0, active := (active + 1) % 2 ^ 32 } ∧
      s'.ns = s.ns ∧ s'.dead = s.dead ∧ s'.pc = update s.pc t (.changing (.rename homeMount homeMount)) := by
  have hb : s.cache.enter.bumpGen =
      ({ entries := [], gen := gen + 1, epoch := 0, active := (active + 1) % 2 ^ 32 }, false) := by
    rw [hcac]
    exact bumpGen_of_lt hgen
  refine ⟨_, ⟨timely (by simp), .mutationBegin hi⟩, ?_⟩
  unfold mutationBegin
  rw [hb]
  exact ⟨rfl, rfl, rfl, rfl⟩

/-- It flushes an empty cache. -/
lemma closes (hc : s.pc t = .changing (.rename homeMount homeMount)) (he : s.cache.entries = []) :
    Run (guarded Step Timely) s [.mutationEnd t, .advance t] (s.goto t (.closing homeMount homeMount)) := by
  have hs : s.goto t (.closing homeMount homeMount) =
      (s.goto t (.flushOld homeMount homeMount)).goto t (.closing homeMount homeMount) := by
    simp [goto]
  have hadv : (s.goto t (.flushOld homeMount homeMount)).advance t =
      some (s.goto t (.closing homeMount homeMount)) := by
    simp [advance, goto, flushMountOne, he]
  exact .cons ⟨timely (by simp), .endRename hc⟩ (.single ⟨timely (by simp), .advance hadv⟩)

/-- Any number of mutations below `2 ^ 32` is begun. -/
lemma gather (hn : n < 2 ^ 32) : ∃ es s, Run (guarded Step Timely) freshDcache es s ∧
      s.cache = { entries := [], gen := n + 1, epoch := 0, active := n } ∧
      s.ns = freshDcache.ns ∧ s.dead = freshDcache.dead ∧ s.pc = crowd n := by
  induction n with
  | zero => exact ⟨[], freshDcache, .nil _, rfl, rfl, rfl, rfl⟩
  | succ n ih =>
    obtain ⟨es, s, hrun, hcac, hns, hd, hpc⟩ := ih (by omega)
    have hi : s.pc n = .idle := by rw [hpc, crowd, if_neg (Nat.lt_irrefl n)]
    obtain ⟨s', hs, hcac', hns', hd', hpc'⟩ := begins hi hcac (by omega)
    rw [mod_eq_of_lt hn] at hcac'
    refine ⟨_, _, hrun.append (.cons hs (closes (by rw [hpc', update_self]) (by rw [hcac']))), hcac', hns'.trans hns,
      hd'.trans hd, ?_⟩
    rw [goto, hpc', hpc, update_idem, crowd_succ]

/-- With one more the counter is at zero, and a looker gets its token and has it accepted inside the rename. -/
lemma squeeze (hn : n + 1 = 2 ^ 32)
    (hcac : s.cache = { entries := [], gen := n + 1, epoch := 0, active := n })
    (hns : s.ns = freshDcache.ns) (hd : s.dead = freshDcache.dead) (hpc : s.pc = crowd n) :
    ∃ es s', Run (guarded Step Timely) s es s' ∧
      s'.cache = { entries := [⟨homeDir.key nameA, nodeA⟩], gen := n + 2, epoch := 0, active := 0 } ∧
      s'.ns (homeDir.key nameA) = none ∧ s'.pc = crowd (n + 1) := by
  have hi (t : Nat) (ht : n ≤ t) : s.pc t = .idle := by
    rw [hpc, crowd, if_neg (by omega)]
  obtain ⟨s1, hbegin, hcac1, hns1, hd1, hpc1⟩ := begins (hi n (Nat.le_refl n)) hcac (by omega)
  -- the counter wraps
  rw [show (n + 1) % 2 ^ 32 = 0 by omega] at hcac1
  have hne : n + 1 ≠ n := succ_ne_self n
  -- a looker misses and gets a token
  have htok : s1.cache.encodeToken = n + 2 := by
    unfold encodeToken
    rw [hcac1, if_neg (by simp), zero_shiftLeft, zero_mod, zero_or,
      mod_eq_of_lt (by change n + 2 < 2 ^ 48; omega)]
    exact if_neg (succ_ne_zero _)
  have hlookup : s1.cache.lookupBegin s1.dead homeDir nameA = (s1.cache, none, n + 2) := by
    rw [← htok, hcac1]
    rfl
  -- what it read is accepted after the rename has changed the name and flushed the mount
  have hins : s1.cache.insertValidated s1.dead homeDir nameA nodeA (n + 2) =
      { entries := [⟨homeDir.key nameA, nodeA⟩], gen := n + 2, epoch := 0, active := 0 } := by
    unfold insertValidated
    rw [htok, hd1, hd, hcac1, if_neg (by simp [nameA]), if_neg (by decide), if_neg (by decide),
      if_neg (by simp [freshDcache])]
    rfl
  let s2 := (s1.withCache s1.cache).goto (n + 1) (.missed homeDir nameA (n + 2) s1.bumps s1.begun)
  let s3 := s2.goto (n + 1) (.found homeDir nameA (n + 2) s1.bumps s1.begun nodeA)
  let s4 : DSystem Nat := { s3 with ns := update s3.ns (homeDir.key nameA) none }
  let s5 := s4.goto n (.closing homeMount homeMount)
  have hpc4 : s4.pc n = .changing (.rename homeMount homeMount) := by
    simp [s4, s3, s2, goto, withCache, hpc1]
  have hpc5 : s5.pc (n + 1) = .found homeDir nameA (n + 2) s1.bumps s1.begun nodeA := by
    simp [s5, s4, s3, goto]
  refine ⟨_, _, .cons hbegin (.cons (t := s2) ⟨timely (by simp), .miss ?_ hlookup⟩
    (.cons (t := s3) ⟨timely (by simp), .readFound (update_self ..) ?_⟩
    (.cons (t := s4) ⟨timely (by simp), .change hpc4 (.inl rfl)⟩
    ((closes hpc4 (by change s1.cache.entries = []; rw [hcac1])).append
    (.single ⟨?_, .insert hpc5⟩))))), hins, ?_, ?_⟩
  · rw [hpc1, update_of_ne hne]
    exact hi _ (le_succ n)
  · change s1.ns (homeDir.key nameA) = some 7
    rw [hns1, hns]
    rfl
  · rintro t dir name token issued begun child ⟨⟩ hfnd
    rw [hpc5] at hfnd
    cases hfnd
    exact Nat.lt_add_of_pos_right (by decide)
  · exact update_self (homeDir.key nameA) none s3.ns
  · have hc : crowd (n + 1) (n + 1) = .idle := if_neg (Nat.lt_irrefl _)
    simp only [s4, s3, s2, goto, withCache, hpc1, hpc, update_idem, update_comm hne, crowd_succ]
    rw [← hc, update_eq_self]

/-- They end one after the other; the counter stays at zero. -/
lemma disperse {es : List DEntry} (hpc : s.pc = crowd n) (he : s.cache.entries = es) (hact : s.cache.active = 0)
    (hgen : s.cache.gen + n < 2 ^ 48) : ∃ fs s', Run (guarded DSystem.Step DSystem.Timely) s fs s' ∧
      s'.cache.entries = es ∧ s'.ns = s.ns ∧ s'.pc = crowd 0 := by
  induction n generalizing s with
  | zero => exact ⟨[], s, .nil _, he, rfl, hpc⟩
  | succ n ih =>
    have hl : s.lastBump n = { s with
          cache := { s.cache with gen := s.cache.gen + 1 }, pc := update s.pc n .idle,
          bumps := s.bumps + 1, working := s.working.erase n } := by
      unfold lastBump
      rw [bumpGen_of_lt (by omega)]
      simp [leave, hact, withCache, goto]
    have hadv : s.advance n = some (s.lastBump n) := by
      rw [advance, hpc, crowd, if_pos (lt_succ_self n)]
    obtain ⟨fs, s', hrun, hent, hns, hpc'⟩ := ih (s := s.lastBump n) (by rw [hl, hpc]; exact crowd_pred n)
      (by rw [hl]; exact he) (by rw [hl]; exact hact) (by rw [hl]; change s.cache.gen + 1 + n < 2 ^ 48; omega)
    rw [show (s.lastBump n).ns = s.ns by rw [hl]] at hns
    exact ⟨_, s', .cons ⟨timely (by simp), .advance hadv⟩ hrun, hent, hns, hpc'⟩

/-- **The counter of active mutations has 32 bits.** With `2 ^ 32` mutations at the same time a name
that a rename has moved away stays in the cache. -/
theorem dcache_coherent_crowd :
    ∃ es s, Run (guarded DSystem.Step DSystem.Timely) freshDcache es s ∧ s.Quiet ∧ ¬s.Coherent := by
  have hn : 2 ^ 32 - 1 + 1 = 2 ^ 32 := rfl
  obtain ⟨es1, s1, hrun1, hcac1, hns1, hd1, hpc1⟩ := gather (sub_lt (by decide) Nat.one_pos)
  obtain ⟨es2, s2, hrun2, hcac2, hns2, hpc2⟩ := squeeze hn hcac1 hns1 hd1 hpc1
  obtain ⟨es3, s3, hrun3, hent3, hns3, hpc3⟩ :=
    disperse hpc2 (by rw [hcac2]) (by rw [hcac2]) (by rw [hcac2]; decide)
  refine ⟨_, s3, hrun1.append (hrun2.append hrun3), fun t => ?_, fun h => ?_⟩
  · rw [hpc3]
    exact ⟨rfl, rfl⟩
  · have hstale := h.entries ⟨homeDir.key nameA, nodeA⟩ (by rw [hent3]; exact List.mem_singleton_self _)
    rw [hns3, hns2] at hstale
    cases hstale

end OS01.Fs
