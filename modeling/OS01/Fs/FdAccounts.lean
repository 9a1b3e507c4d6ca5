import OS01.Fs.Fd

/-!
# Reference counts of open files

In every run the reference count of an open file is the number of slots that hold it plus the number
of references held outside the tables, an open file is freed once, when that number reaches zero,
and the counters of a pipe are the numbers of its open ends. Two conditions come with it: no file
gets `2 ^ 32` references, and no read end of a pipe is freed while `O_APPEND` is set on it, because
`file_free` takes a file with other flags than `O_RDONLY` for a write end.

The calls are made of four moves: a reference is taken, put back, moved into a slot and out of one
(`FdOk.get`, `FdOk.put`, `FdOk.install`, `FdOk.remove`).
-/

namespace OS01.Fs

open FdState Function Lib Option File Finset

/-! ## Counting -/

namespace FdState

variable (s : FdState)

/-- All slots of the tables made so far. -/
def places : Finset (Nat × Nat) := range s.tables ×ˢ range NOFILE

/-- The number of slots that hold a file. -/
def slots (f : Nat) : Nat := countOn s.places (fun o => decide (o = some f)) s.slot

/-- The number of references to a file. -/
def refs (f : Nat) : Nat := s.slots f + s.held f

end FdState

/-- The file is the read end (or the write end) of a pipe. -/
def isEnd (p : Nat) (reads : Bool) (o : Option File) : Bool :=
  o.any fun x => decide (x.pipe = some p) && (decide (x.flags.accmode = 0) == reads)

/-- The number of open read ends (or write ends) of a pipe. -/
def FdState.ends (s : FdState) (p : Nat) (reads : Bool) : Nat :=
  countOn (range s.files) (isEnd p reads) s.file

/-! ## The invariant -/

/-- The accounts of one file, by the number of its references, how often it was freed, and whether it
was ever made. -/
def FileOk (refs frees : Nat) (made : Bool) : Option File → Prop
  | some x => x.refcount = refs ∧ 0 < refs ∧ refs < 2 ^ 32 ∧ frees = 0 ∧ made = true
  | none => refs = 0 ∧ frees = made.toNat

/-- The accounts of one pipe, by the numbers of its open ends. -/
def PipeEndsOk (reads writes frees : Nat) (made : Bool) : Option PipeEnds → Prop
  | some e => e.readers = reads ∧ e.writers = writes ∧ 0 < reads + writes ∧ frees = 0 ∧ made = true
  | none => reads = 0 ∧ writes = 0 ∧ frees = made.toNat

/-- The accounts of all files and pipes. -/
structure FdAccounts (s : FdState) : Prop where
  files : ∀ f, FileOk (s.refs f) (s.fileFrees f) (decide (f < s.files)) (s.file f)
  pipes : ∀ p, PipeEndsOk (s.ends p true) (s.ends p false) (s.pipeFrees p) (decide (p < s.pipes))
    (s.pipe p)

/-- The invariant: the accounts, only slots of live tables hold files, and the read end of a pipe has
no other flag than `O_APPEND`. -/
structure FdOk (s : FdState) : Prop extends FdAccounts s where
  fresh : ∀ t, s.tables ≤ t → s.table t = none
  range : ∀ t i f, s.slot (t, i) = some f → (s.table t).isSome ∧ i < NOFILE
  plain : ∀ f x p, s.file f = some x → x.pipe = some p → x.flags.accmode = 0 → x.flags.other = 0

/-- The file is the read end of a pipe with `O_APPEND` set. -/
def FdState.AppendEnd (s : FdState) (f : Nat) : Prop :=
  ∃ x p, s.file f = some x ∧ x.pipe = some p ∧ x.flags.accmode = 0 ∧ x.flags.append = true

variable {s s' : FdState} {f g t i p : Nat} {x : File}

/-! ## Counts in updated states -/

lemma slots_update (o : Option Nat) (ht : t < s.tables) (hi : i < NOFILE) :
    countOn s.places (fun o => decide (o = some g)) (update s.slot (t, i) o) +
        (if s.slot (t, i) = some g then 1 else 0) = s.slots g + if o = some g then 1 else 0 := by
  have hmem : (t, i) ∈ s.places := by simp [places, ht, hi]
  have h := countOn_update (p := fun o : Option Nat => decide (o = some g)) (g := s.slot) hmem o
  have hb (o : Option Nat) : (decide (o = some g)).toNat = if o = some g then 1 else 0 := by
    by_cases ho : o = some g <;> simp [ho]
  rw [hb, hb] at h
  exact h

/-- A reference moves into a free slot. -/
lemma refs_install (ht : t < s.tables) (hi : i < NOFILE) (hs : s.slot (t, i) = none)
    (hhl : 0 < s.held f) : (s.install t i f).refs g = s.refs g := by
  have hsl := slots_update (g := g) (some f) ht hi
  rw [hs, if_neg (by simp : ¬none = some g)] at hsl
  change countOn s.places _ (update s.slot (t, i) (some f)) +
    update s.held f (s.held f - 1) g = s.slots g + s.held g
  by_cases hg : g = f
  · subst hg
    rw [if_pos rfl] at hsl
    rw [update_self]
    omega
  · rw [if_neg (fun h => hg (some.inj h).symm)] at hsl
    rw [update_of_ne hg]
    omega

/-- A reference moves out of a slot. -/
lemma refs_remove (ht : t < s.tables) (hi : i < NOFILE) (hs : s.slot (t, i) = some f) :
    (s.remove t i f).refs g = s.refs g := by
  have hsl := slots_update (g := g) none ht hi
  rw [hs, if_neg (by simp : ¬none = some g)] at hsl
  change countOn s.places _ (update s.slot (t, i) none) +
    update s.held f (s.held f + 1) g = s.slots g + s.held g
  by_cases hg : g = f
  · subst hg
    rw [if_pos rfl] at hsl
    rw [update_self]
    omega
  · rw [if_neg (fun h => hg (some.inj h).symm)] at hsl
    rw [update_of_ne hg]
    omega

lemma refs_fileGet (hf : s.file f = some x) : (s.fileGet f).refs g = s.refs g + if g = f then 1 else 0 := by
  unfold fileGet
  rw [hf]
  change s.slots g + update s.held f (s.held f + 1) g = s.slots g + s.held g + _
  by_cases hg : g = f
  · subst hg
    rw [update_self, if_pos rfl]
    omega
  · rw [update_of_ne hg, if_neg hg]
    omega

/-- The part of an open file that the counts of pipe ends depend on. -/
def File.role (x : File) : Option Nat × Nat × Nat := (x.pipe, x.flags.accmode, x.flags.other)

lemma isEnd_congr {o o' : Option File} {reads : Bool} (h : o'.map role = o.map role) :
    isEnd p reads o' = isEnd p reads o := by
  have hany (o : Option File) : isEnd p reads o = (o.map role).any fun r =>
      decide (r.1 = some p) && (decide (r.2.1 = 0) == reads) := by
    cases o <;> rfl
  rw [hany, hany, h]

lemma ends_congr (hfls : s'.files = s.files)
    (hr : ∀ g, (s'.file g).map role = (s.file g).map role) (reads : Bool) :
    s'.ends p reads = s.ends p reads := by
  unfold ends
  rw [hfls]
  exact countOn_congr fun j _ => isEnd_congr (hr j)

/-! ## The four moves -/

/-- The accounts of one file change. -/
lemma FdAccounts.file_frame (h : FdAccounts s)
    (hf : FileOk (s'.refs f) (s'.fileFrees f) (decide (f < s'.files)) (s'.file f))
    (hr : ∀ g, g ≠ f → s'.refs g = s.refs g ∧ s'.fileFrees g = s.fileFrees g ∧
      s'.files = s.files ∧ s'.file g = s.file g) (g : Nat) :
    FileOk (s'.refs g) (s'.fileFrees g) (decide (g < s'.files)) (s'.file g) := by
  by_cases hg : g = f
  · exact hg ▸ hf
  · obtain ⟨h1, h2, h3, h4⟩ := hr g hg
    rw [h1, h2, h3, h4]
    exact h.files g

/-- Pipes do not see reference counts. -/
lemma FdAccounts.pipe_frame (h : FdAccounts s) (hfls : s'.files = s.files)
    (hp : s'.pipe = s.pipe) (hpipes : s'.pipes = s.pipes) (hfrs : s'.pipeFrees = s.pipeFrees)
    (hr : ∀ g, (s'.file g).map role = (s.file g).map role) (p : Nat) :
    PipeEndsOk (s'.ends p true) (s'.ends p false) (s'.pipeFrees p) (decide (p < s'.pipes)) (s'.pipe p) := by
  rw [ends_congr hfls hr, ends_congr hfls hr, hp, hpipes, hfrs]
  exact h.pipes p

/-- The flags of read ends do not depend on reference counts. -/
lemma FdOk.plain_of_role (h : FdOk s) (hrl : ∀ g, (s'.file g).map role = (s.file g).map role) :
    ∀ f x p, s'.file f = some x → x.pipe = some p → x.flags.accmode = 0 → x.flags.other = 0 := by
  intro f y p hy hp ha
  have hr := hrl f
  rw [hy] at hr
  cases hx : s.file f with
  | none => rw [hx] at hr; cases hr
  | some z =>
    rw [hx] at hr
    simp only [map_some, role, some.injEq, Prod.mk.injEq] at hr
    rw [hr.2.2]
    exact h.plain f z p hx (hr.1 ▸ hp) (hr.2.1 ▸ ha)

/-- One open file changes in its reference count only. -/
lemma role_update {n : Nat} (hf : s.file f = some x) (g : Nat) :
    (update s.file f (some { x with refcount := n }) g).map role = (s.file g).map role := by
  by_cases hg : g = f
  · rw [hg, update_self, hf]
    rfl
  · rw [update_of_ne hg]

namespace FdOk

variable (h : FdOk s)
include h

lemma lt_tables (ht : (s.table t).isSome) : t < s.tables := by
  by_contra hlt
  rw [h.fresh t (by omega)] at ht
  cases ht

/-- A live file, with what its accounts say. -/
lemma live (hf : s.file f = some x) :
    x.refcount = s.refs f ∧ 0 < s.refs f ∧ s.refs f < 2 ^ 32 ∧ s.fileFrees f = 0 ∧ f < s.files := by
  have hok := h.files f
  rw [hf] at hok
  simpa [FileOk] using hok

/-- A file that is referred to is open. -/
lemma open_of_refs (hr : 0 < s.refs f) : ∃ x, s.file f = some x := by
  cases hf : s.file f with
  | some x => exact ⟨x, rfl⟩
  | none =>
    have hok := h.files f
    rw [hf] at hok
    have := hok.1
    omega

/-- A file changes in its reference count, and its references outside the tables with it. -/
lemma recount {n k : Nat} (hf : s.file f = some x) (hn : n = s.slots f + k)
    (hpos : 0 < n) (hlt : n < 2 ^ 32) : FdOk { s with
      file := update s.file f (some { x with refcount := n })
      held := update s.held f k } where
  files := by
    obtain ⟨-, -, -, hfrs, hm⟩ := h.live hf
    refine h.file_frame (f := f) ?_ fun g hg => ⟨?_, rfl, rfl, update_of_ne hg ..⟩
    · have hr : s.slots f + update s.held f k f = n := by
        rw [update_self, hn]
      dsimp only
      rw [update_self]
      exact ⟨hr.symm, hr.symm ▸ hpos, hr.symm ▸ hlt, hfrs, decide_eq_true hm⟩
    · change s.slots g + update s.held f k g = _
      rw [update_of_ne hg]
      rfl
  pipes := h.pipe_frame rfl rfl rfl rfl (role_update hf)
  fresh := h.fresh
  range := h.range
  plain := h.plain_of_role (role_update hf)

/-- **Taking a reference.** -/
lemma get (hr : s.refs f + 1 < 2 ^ 32) : FdOk (s.fileGet f) := by
  unfold fileGet
  split
  · exact h
  · next x hx =>
      obtain ⟨hc, hpos, -⟩ := h.live hx
      rw [hc, Nat.mod_eq_of_lt hr]
      exact h.recount hx (by rw [refs, Nat.add_assoc]) (by omega) hr

/-- **Moving a reference into a slot.** -/
lemma install (ht : (s.table t).isSome) (hi : i < NOFILE)
    (hs : s.slot (t, i) = none) (hhl : 0 < s.held f) : FdOk (s.install t i f) where
  files g := by
    rw [refs_install (h.lt_tables ht) hi hs hhl]
    exact h.files g
  pipes := h.pipes
  fresh := h.fresh
  range t' i' g hg := by
    by_cases hk : (t', i') = (t, i)
    · cases hk
      exact ⟨ht, hi⟩
    · exact h.range t' i' g (by simpa [FdState.install, update_of_ne hk] using hg)
  plain := h.plain

section

variable (hs : s.slot (t, i) = some f)
include hs

lemma slots_of_slot : 0 < s.slots f := by
  obtain ⟨ht, hi⟩ := h.range t i f hs
  have hlt := h.lt_tables ht
  exact countOn_pos (by simp [places, hlt, hi] : (t, i) ∈ s.places) (by simp [hs])

/-- A file in a slot is open. -/
lemma open_of_slot : ∃ x, s.file f = some x :=
  h.open_of_refs (Nat.add_pos_left (h.slots_of_slot hs) _)

/-- **Moving a reference out of a slot.** -/
lemma remove : FdOk (s.remove t i f) where
  files g := by
    obtain ⟨ht, hi⟩ := h.range t i f hs
    rw [refs_remove (h.lt_tables ht) hi hs]
    exact h.files g
  pipes := h.pipes
  fresh := h.fresh
  range t' i' g hg := by
    by_cases hk : (t', i') = (t, i)
    · cases hk
      simp [FdState.remove] at hg
    · exact h.range t' i' g (by simpa [FdState.remove, update_of_ne hk] using hg)
  plain := h.plain

end

end FdOk

/-! ### Freeing a file -/

/-- The ends of the pipes when a file goes. -/
lemma ends_erase (hf : f < s.files) (hfls : s'.files = s.files)
    (hfl : s'.file = update s.file f none) (reads : Bool) :
    s'.ends p reads + (isEnd p reads (s.file f)).toNat = s.ends p reads := by
  unfold ends
  rw [hfls, hfl]
  exact countOn_update (p := isEnd p reads) (g := s.file) (mem_range.2 hf) none

/-- The pipe branch of `file_free` touches pipes only. -/
lemma closeEnd_eq (s : FdState) (flags : OpenFlags) (p : Nat) :
    ∃ pipe frees, s.closeEnd flags p = { s with pipe := pipe, pipeFrees := frees } := by
  unfold closeEnd
  split
  · exact ⟨s.pipe, s.pipeFrees, rfl⟩
  · dsimp only
    split
    · exact ⟨_, _, rfl⟩
    · exact ⟨_, s.pipeFrees, rfl⟩

lemma fileFree_eq (hf : s.file f = some x) : ∃ pipe frees, s.fileFree f = { s with
      pipe := pipe, pipeFrees := frees
      file := update s.file f none
      held := update s.held f 0
      fileFrees := update s.fileFrees f (s.fileFrees f + 1) } := by
  unfold fileFree
  rw [hf]
  cases hp : x.pipe with
  | none => exact ⟨s.pipe, s.pipeFrees, by simp [hp]⟩
  | some p =>
    obtain ⟨pipe, frees, he⟩ := closeEnd_eq s x.flags p
    exact ⟨pipe, frees, by simp [hp, he]⟩

/-- Other pipes than the file's own are left alone. -/
lemma closeEnd_other (s : FdState) (flags : OpenFlags) {q : Nat} (hq : q ≠ p) :
    (s.closeEnd flags p).pipe q = s.pipe q ∧ (s.closeEnd flags p).pipeFrees q = s.pipeFrees q := by
  unfold closeEnd
  split
  · exact ⟨rfl, rfl⟩
  · dsimp only
    split
    · exact ⟨update_of_ne hq .., update_of_ne hq ..⟩
    · exact ⟨update_of_ne hq .., rfl⟩

variable {flags : OpenFlags} {reads writes : Nat}

/-- The counters after an end is closed count the ends that are left. -/
lemma PipeEndsOk.close {e : PipeEnds} {reads' writes' frees : Nat}
    (h : PipeEndsOk reads writes frees true (some e))
    (hrds : reads' + (if flags = O_RDONLY then 1 else 0) = reads)
    (hwrs : writes' + (if flags = O_RDONLY then 0 else 1) = writes) :
    (FdState.PipeEnds.close e flags).readers = reads' ∧
      (FdState.PipeEnds.close e flags).writers = writes' := by
  obtain ⟨hr, hw, -⟩ := h
  unfold FdState.PipeEnds.close
  split
  · next hro =>
      rw [if_pos hro] at hrds hwrs
      dsimp only
      omega
  · next hro =>
      rw [if_neg hro] at hrds hwrs
      dsimp only
      omega

/-- The file's own pipe. -/
lemma closeEnd_own (h : PipeEndsOk (s.ends p true) (s.ends p false) (s.pipeFrees p) (decide (p < s.pipes))
      (s.pipe p)) (hrds : reads + (if flags = O_RDONLY then 1 else 0) = s.ends p true)
    (hwrs : writes + (if flags = O_RDONLY then 0 else 1) = s.ends p false) :
    PipeEndsOk reads writes ((s.closeEnd flags p).pipeFrees p) (decide (p < s.pipes))
      ((s.closeEnd flags p).pipe p) := by
  unfold closeEnd
  cases he : s.pipe p with
  | none =>
    rw [he] at h
    obtain ⟨h1, h2, -⟩ := h
    split at hrds <;> simp_all
  | some e =>
    rw [he] at h
    have hfrs : s.pipeFrees p = 0 := h.2.2.2.1
    have hm : decide (p < s.pipes) = true := h.2.2.2.2
    rw [hm] at h ⊢
    obtain ⟨hr, hw⟩ := h.close hrds hwrs
    dsimp only
    split
    · next hz =>
        have hr0 : reads = 0 := by omega
        have hw0 : writes = 0 := by omega
        simp [PipeEndsOk, pipeFree, hr0, hw0, hfrs]
    · next hz =>
        have hpos : 0 < reads + writes := by omega
        simp [PipeEndsOk, hr, hw, hpos, hfrs]

variable (h : FdOk s)
include h

/-- A file that is a pipe's read end has the flag `file_free` tests for. -/
lemma FdOk.flags_iff (hf : s.file f = some x) (hp : x.pipe = some p)
    (hk : ¬s.AppendEnd f) : x.flags = O_RDONLY ↔ x.flags.accmode = 0 := by
  constructor
  · intro hro
    rw [hro]
    rfl
  intro ha
  have hoth := h.plain f x p hf hp ha
  have happ : x.flags.append = false := by
    by_contra happ
    exact hk ⟨x, p, hf, hp, ha, by simpa using happ⟩
  rw [show x.flags = ⟨x.flags.accmode, x.flags.append, x.flags.other⟩ from rfl, ha, happ, hoth]
  rfl

/-- **Freeing a file** whose last reference is outside the tables. -/
lemma FdOk.free (hf : s.file f = some x) (hsl : s.slots f = 0)
    (hk : ¬s.AppendEnd f) : FdOk (s.fileFree f) := by
  obtain ⟨-, -, -, hfrs, hm⟩ := h.live hf
  obtain ⟨pipe, frees, he⟩ := fileFree_eq hf
  have hpp : (s.fileFree f).pipe = (x.pipe.elim s (s.closeEnd x.flags)).pipe ∧
      (s.fileFree f).pipeFrees = (x.pipe.elim s (s.closeEnd x.flags)).pipeFrees := by
    unfold fileFree
    rw [hf]
    exact ⟨rfl, rfl⟩
  have hen (q : Nat) (reads : Bool) :
      (s.fileFree f).ends q reads + (isEnd q reads (some x)).toNat = s.ends q reads := by
    rw [← hf]
    exact ends_erase hm (by rw [he]) (by rw [he]) reads
  refine ⟨⟨?_, fun q => ?_⟩, ?_, ?_, ?_⟩
  · refine h.file_frame (f := f) ?_ fun g hg => ?_
    · rw [he]
      change FileOk (s.slots f + update s.held f 0 f) (update s.fileFrees f _ f)
        (decide (f < s.files)) (update s.file f none f)
      simp [FileOk, hsl, hfrs, hm]
    · rw [he]
      refine ⟨?_, update_of_ne hg .., rfl, update_of_ne hg ..⟩
      change s.slots g + update s.held f 0 g = _
      rw [update_of_ne hg]
      rfl
  · have hr := hen q true
    have hw := hen q false
    rw [hpp.1, hpp.2, show (s.fileFree f).pipes = s.pipes by rw [he]]
    cases hp : x.pipe with
    | none =>
      rw [show isEnd q true (some x) = false by simp [isEnd, hp]] at hr
      rw [show isEnd q false (some x) = false by simp [isEnd, hp]] at hw
      rw [show (s.fileFree f).ends q true = s.ends q true from hr,
        show (s.fileFree f).ends q false = s.ends q false from hw]
      exact h.pipes q
    | some p =>
      by_cases hq : q = p
      · subst hq
        have hiff := h.flags_iff hf hp hk
        refine closeEnd_own (h.pipes q) ?_ ?_
        · rw [← hr]
          by_cases hro : x.flags.accmode = 0 <;> simp [isEnd, hp, hiff, hro]
        · rw [← hw]
          by_cases hro : x.flags.accmode = 0 <;> simp [isEnd, hp, hiff, hro]
      have hpq : ¬p = q := fun h => hq h.symm
      obtain ⟨h1, h2⟩ := closeEnd_other s x.flags hq
      rw [show isEnd q true (some x) = false by simp [isEnd, hp, hpq]] at hr
      rw [show isEnd q false (some x) = false by simp [isEnd, hp, hpq]] at hw
      rw [show (s.fileFree f).ends q true = s.ends q true from hr,
        show (s.fileFree f).ends q false = s.ends q false from hw]
      dsimp only [Option.elim]
      rw [h1, h2]
      exact h.pipes q
  · rw [he]
    exact h.fresh
  · rw [he]
    exact h.range
  · rw [he]
    intro g y p hy hp ha
    by_cases hg : g = f
    · subst hg
      simp at hy
    · exact h.plain g y p (by simpa [update_of_ne hg] using hy) hp ha

/-- The count after a reference is given up. -/
lemma FdOk.pred_refcount (hf : s.file f = some x) : (x.refcount + (2 ^ 32 - 1)) % 2 ^ 32 = s.refs f - 1 := by
  obtain ⟨hc, hpos, hlt, -⟩ := h.live hf
  omega

/-- **Putting a reference back.** -/
lemma FdOk.put (hhl : 0 < s.held f) (hk : s.AppendEnd f → 1 < s.refs f) : FdOk (s.filePut f) := by
  unfold filePut
  split
  · exact h
  next x hx =>
    obtain ⟨hc, hpos, hlt, -⟩ := h.live hx
    have hr : s.refs f = s.slots f + s.held f := rfl
    dsimp only
    split
    · next hone =>
        refine h.free hx (by omega) fun happ => ?_
        have := hk happ
        omega
    · next hone => exact h.recount hx (by omega) (by omega) (by omega)

/-- Putting a reference back where there are others. -/
lemma FdOk.refs_put (hhl : 0 < s.held f) (hmore : 1 < s.refs f) : (s.filePut f).refs f = s.refs f - 1 := by
  obtain ⟨x, hx⟩ := h.open_of_refs (by omega : 0 < s.refs f)
  have hne : ¬ s.refs f - 1 = 0 := by omega
  unfold filePut
  simp only [hx]
  rw [h.pred_refcount hx, if_neg hne]
  change s.slots f + update s.held f (s.held f - 1) f = s.slots f + s.held f - 1
  rw [update_self]
  omega

end OS01.Fs
