import OS01.Fs.FdAccounts

/-!
# The descriptor calls keep the accounts

Each call of the descriptor code as a sequence of the four moves.
-/

namespace OS01.Fs

open Nat List FdState Function Lib Bool Option

variable {s s' : FdState} {f g t i p rf wf : Nat} {x y : File}

/-! ## What the moves leave alone -/

lemma fileGet_eq (hx : s.file f = some x) : s.fileGet f = { s with
      file := update s.file f (some { x with refcount := (x.refcount + 1) % 2 ^ 32 })
      held := update s.held f (s.held f + 1) } := by
  unfold fileGet
  rw [hx]

/-- `file_put` frees the file or changes its count. -/
lemma filePut_cases (hx : s.file f = some x) : s.filePut f = s.fileFree f ∨ ∃ n k, s.filePut f = { s with
      file := update s.file f (some { x with refcount := n })
      held := update s.held f k } := by
  unfold filePut
  rw [hx]
  dsimp only
  split
  · exact .inl rfl
  · exact .inr ⟨_, _, rfl⟩

/-- Nothing else changes. -/
lemma filePut_frame (s : FdState) (f : Nat) : (s.filePut f).slot = s.slot ∧ (s.filePut f).table = s.table ∧
      (s.filePut f).tables = s.tables ∧
      (∀ g, g ≠ f → (s.filePut f).held g = s.held g ∧ (s.filePut f).file g = s.file g) ∧
      ∀ y, (s.filePut f).file f = some y → ∃ x, s.file f = some x ∧ x.pipe = y.pipe ∧ x.flags = y.flags := by
  cases hx : s.file f with
  | none =>
    have hs : s.filePut f = s := by
      unfold filePut
      rw [hx]
    rw [hs]
    exact ⟨rfl, rfl, rfl, fun _ _ => ⟨rfl, rfl⟩, fun y hy => by rw [hx] at hy; cases hy⟩
  | some x =>
    obtain he | ⟨n, k, he⟩ := filePut_cases hx
    · obtain ⟨pipe, frees, he'⟩ := fileFree_eq hx
      rw [he, he']
      refine ⟨rfl, rfl, rfl, fun g hg => ⟨update_of_ne hg .., update_of_ne hg ..⟩, fun y hy => ?_⟩
      simp at hy
    · rw [he]
      refine ⟨rfl, rfl, rfl, fun g hg => ⟨update_of_ne hg .., update_of_ne hg ..⟩, fun y hy => ?_⟩
      simp only [update_self, some.injEq] at hy
      exact ⟨x, rfl, by rw [← hy], by rw [← hy]⟩

/-- No file comes to life, and flags stay. -/
lemma filePut_file (hy : (s.filePut f).file g = some y) :
    ∃ x, s.file g = some x ∧ x.pipe = y.pipe ∧ x.flags = y.flags := by
  obtain ⟨-, -, -, hne, hs⟩ := filePut_frame s f
  by_cases hg : g = f
  · subst hg
    exact hs y hy
  · rw [(hne g hg).2] at hy
    exact ⟨y, hy, rfl, rfl⟩

lemma refs_filePut (hg : g ≠ f) : (s.filePut f).refs g = s.refs g := by
  obtain ⟨hs, -, ht, hne, -⟩ := filePut_frame s f
  unfold refs slots places
  rw [hs, ht, (hne g hg).1]

lemma closeSlot_slot (s : FdState) (t i : Nat) : (s.closeSlot t i).slot = update s.slot (t, i) none := by
  unfold closeSlot
  split
  · next hs => exact (update_eq_self_iff.2 hs.symm).symm
  · next f hs => exact (filePut_frame (s.remove t i f) f).1

lemma closeSlot_file (hy : (s.closeSlot t i).file g = some y) :
    ∃ x, s.file g = some x ∧ x.pipe = y.pipe ∧ x.flags = y.flags := by
  unfold closeSlot at hy
  split at hy
  · exact ⟨y, hy, rfl, rfl⟩
  · next f hs => exact filePut_file (s := s.remove t i f) hy

/-- A read end with `O_APPEND` was one before. -/
lemma appendEnd_of_file (hf : ∀ y, s'.file g = some y →
    ∃ x, s.file g = some x ∧ x.pipe = y.pipe ∧ x.flags = y.flags) (h : s'.AppendEnd g) : s.AppendEnd g := by
  obtain ⟨y, p, hy, hp, ha, happ⟩ := h
  obtain ⟨x, hx, hpp, hflg⟩ := hf y hy
  exact ⟨x, p, hx, hpp ▸ hp, hflg ▸ ha, hflg ▸ happ⟩

lemma appendEnd_closeSlot (h : (s.closeSlot t i).AppendEnd g) : s.AppendEnd g :=
  appendEnd_of_file (fun _ => closeSlot_file) h

/-! ## Closing -/

lemma FdOk.closeSlot (h : FdOk s) (hk : ∀ f, s.slot (t, i) = some f → s.AppendEnd f → 1 < s.refs f) :
    FdOk (s.closeSlot t i) := by
  unfold FdState.closeSlot
  cases hs : s.slot (t, i) with
  | none => exact h
  | some f =>
    obtain ⟨ht, hi⟩ := h.range t i f hs
    refine (h.remove hs).put (by simp [FdState.remove]) fun happ => ?_
    rw [refs_remove (h.lt_tables ht) hi hs]
    exact hk f hs happ

/-- What closing a slot leaves of the references to a file. -/
lemma FdOk.refs_closeSlot (h : FdOk s) (hmore : s.slot (t, i) = some g → 1 < s.refs g) :
    (s.closeSlot t i).refs g + (if s.slot (t, i) = some g then 1 else 0) = s.refs g := by
  unfold FdState.closeSlot
  cases hs : s.slot (t, i) with
  | none => simp
  | some f =>
    obtain ⟨ht, hi⟩ := h.range t i f hs
    have hrem : (s.remove t i f).refs g = s.refs g := refs_remove (h.lt_tables ht) hi hs
    by_cases hg : g = f
    · subst hg
      have hone := hmore hs
      rw [if_pos rfl, (h.remove hs).refs_put (by simp [FdState.remove]) (hrem ▸ hone), hrem]
      omega
    · rw [if_neg fun hf => hg (some.inj hf).symm, refs_filePut hg, hrem, Nat.add_zero]

/-- How many of these slots of a table hold a file. -/
def FdState.copies (s : FdState) (t f : Nat) (l : List Nat) : Nat := l.countP fun i => decide (s.slot (t, i) = some f)

variable {l : List Nat} {k : Nat × Nat} {limit minFd soft t' : Nat}

lemma copies_cons : s.copies t f (i :: l) = s.copies t f l + if s.slot (t, i) = some f then 1 else 0 := by
  simp [FdState.copies, countP_cons]

/-- Another slot has no part in it. -/
lemma copies_congr (hs : ∀ j ∈ l, s'.slot (t, j) = s.slot (t, j)) : s'.copies t f l = s.copies t f l :=
  countP_congr fun j hj => by rw [hs j hj]

/-- The loop of `files_free`. -/
lemma FdOk.closeAll (h : FdOk s) (hnd : l.Nodup) (hk : ∀ f, s.AppendEnd f → s.copies t f l < s.refs f) :
    FdOk (l.foldl (fun s i => s.closeSlot t i) s) := by
  induction l generalizing s with
  | nil => exact h
  | cons i l ih =>
    have hmore (f : Nat) (happ : s.AppendEnd f) (hs : s.slot (t, i) = some f) : 1 < s.refs f := by
      have hf := hk f happ
      rw [copies_cons, if_pos hs] at hf
      omega
    refine ih (h.closeSlot fun f hs happ => hmore f happ hs) hnd.of_cons fun f happ => ?_
    have happ' := appendEnd_closeSlot happ
    have hf := hk f happ'
    have hrefs := h.refs_closeSlot (hmore f happ')
    have hsame : (s.closeSlot t i).copies t f l = s.copies t f l := copies_congr fun j hj => by
      rw [closeSlot_slot, update_of_ne]
      rintro ⟨⟩
      exact (nodup_cons.1 hnd).1 hj
    rw [copies_cons] at hf
    change (s.closeSlot t i).copies t f l < (s.closeSlot t i).refs f
    omega

lemma closeAll_slot : (l.foldl (fun s i => s.closeSlot t i) s).slot k =
      if k.1 = t ∧ k.2 ∈ l then none else s.slot k := by
  induction l generalizing s with
  | nil => simp
  | cons i l ih =>
    rw [foldl_cons, ih, closeSlot_slot]
    by_cases hk : k = (t, i)
    · subst hk
      simp
    · rw [update_of_ne hk]
      have hne : k.1 = t → k.2 ≠ i := fun ht hi => hk (Prod.ext ht hi)
      by_cases ht : k.1 = t <;> simp [ht, hne]

lemma FdOk.filesFree (h : FdOk s) (hk : ∀ f, s.AppendEnd f → s.copies t f (List.range NOFILE) < s.refs f) :
    FdOk (s.filesFree t) := by
  have hall := h.closeAll nodup_range hk
  have htab : (s.filesFree t).table =
      update ((List.range NOFILE).foldl (fun s i => s.closeSlot t i) s).table t none := rfl
  refine ⟨⟨hall.files, hall.pipes⟩, fun t' ht' => ?_, fun t' i' g hg => ?_, hall.plain⟩
  · rw [htab]
    by_cases htt : t' = t
    · rw [htt, update_self]
    · rw [update_of_ne htt]
      exact hall.fresh t' ht'
  obtain ⟨hs, hi⟩ := hall.range t' i' g hg
  have htt : t' ≠ t := by
    rintro rfl
    change (foldl _ s _).slot (t', i') = some g at hg
    rw [closeAll_slot, if_pos ⟨rfl, mem_range.2 hi⟩] at hg
    cases hg
  rw [htab, update_of_ne htt]
  exact ⟨hs, hi⟩

/-- The count of a live table changes. -/
lemma FdOk.retable (h : FdOk s) (n : Nat) (ht : (s.table t).isSome) :
    FdOk { s with table := update s.table t (some n) } := by
  refine ⟨⟨h.files, h.pipes⟩, fun t' ht' => ?_, fun t' i' g hg => ?_, h.plain⟩
  · have hlt := h.lt_tables ht
    have htt : t' ≠ t := by
      rintro rfl
      exact absurd ht' (by simpa using hlt)
    change update s.table t (some n) t' = none
    rw [update_of_ne htt]
    exact h.fresh t' ht'
  obtain ⟨hs, hi⟩ := h.range t' i' g hg
  refine ⟨?_, hi⟩
  change (update s.table t (some n) t').isSome
  by_cases htt : t' = t
  · rw [htt, update_self]
    rfl
  · rw [update_of_ne htt]
    exact hs

/-! ## Installing -/

/-- The lowest free slot of a table in a range. -/
def LowestFree (slot : Nat × Nat → Option Nat) (t lo hi i : Nat) : Prop :=
  lo ≤ i ∧ i < hi ∧ slot (t, i) = none ∧ ∀ j, lo ≤ j → j < i → slot (t, j) ≠ none

lemma lowestFree_spec {lo hi : Nat} (h : s.lowestFree t lo hi = some i) : LowestFree s.slot t lo hi i := by
  obtain ⟨hf, pre, post, hl, hpre⟩ := find?_eq_some_iff_append.1 h
  have hmem : i ∈ range' lo (hi - lo) := by
    rw [hl]
    simp
  obtain ⟨hlo, hhi⟩ := mem_range'_1.1 hmem
  refine ⟨hlo, by omega, by simpa using hf, fun j hj hji hn => ?_⟩
  -- the range is increasing, so what is below `i` comes before it
  have hj' : j ∈ pre ++ i :: post := hl ▸ mem_range'_1.2 ⟨hj, by omega⟩
  have hsrt : (pre ++ i :: post).Pairwise (· < ·) := hl ▸ pairwise_lt_range'
  obtain hin | hin := mem_append.1 hj'
  · have := hpre j hin
    simp [hn] at this
  · obtain rfl | hin := mem_cons.1 hin
    · omega
    · have := (pairwise_cons.1 (pairwise_append.1 hsrt).2.1).1 j hin
      omega

lemma FdOk.fdAllocLimit (h : FdOk s) (ht : (s.table t).isSome)
    (hhl : 0 < s.held f) : FdOk (s.fdAllocLimit t f minFd limit).1 := by
  unfold FdState.fdAllocLimit
  cases hi : s.lowestFree t minFd (min limit NOFILE) with
  | none => exact h
  | some i =>
    obtain ⟨-, hlt, hf, -⟩ := lowestFree_spec hi
    exact h.install ht (by omega) hf hhl

/-- A new reference to an open file in a free slot. -/
lemma refs_getInstall (hx : s.file f = some x) (ht : t < s.tables) (hi : i < NOFILE)
    (hs : s.slot (t, i) = none) :
    ((s.fileGet f).install t i f).refs g = s.refs g + if g = f then 1 else 0 := by
  rw [← refs_fileGet hx, fileGet_eq hx]
  exact refs_install ht hi hs (by simp)

section

variable (h : FdOk s)
include h

lemma FdOk.getInstall (hx : s.file f = some x) (ht : (s.table t).isSome)
    (hi : i < NOFILE) (hs : s.slot (t, i) = none) (hr : s.refs f + 1 < 2 ^ 32) :
    FdOk ((s.fileGet f).install t i f) := by
  have hget := h.get hr
  rw [fileGet_eq hx] at hget ⊢
  exact hget.install ht hi hs (by simp)

lemma FdOk.fdDupInstall {oldfd : Nat} (ht : (s.table t).isSome) (hlim : limit ≤ NOFILE)
    (hr : ∀ f, s.slot (t, oldfd) = some f → (s.lowestFree t minFd limit).isSome → s.refs f + 1 < 2 ^ 32) :
    FdOk (s.fdDupInstall t oldfd minFd limit).1 := by
  unfold FdState.fdDupInstall
  cases hs : s.slot (t, oldfd) with
  | none => exact h
  | some f =>
    cases hi : s.lowestFree t minFd limit with
    | none => exact h
    | some i =>
      obtain ⟨-, hlt, hf, -⟩ := lowestFree_spec hi
      obtain ⟨x, hx⟩ := h.open_of_slot hs
      exact h.getInstall hx ht (by omega) hf (hr f hs (hi ▸ rfl))

/-- Replacing a slot by what it holds changes nothing. -/
lemma FdOk.replace_self (hs : s.slot (t, i) = some f) :
    (((s.fileGet f).remove t i f).install t i f).filePut f = s := by
  obtain ⟨x, hx⟩ := h.open_of_slot hs
  obtain ⟨hc, hpos, hlt, -⟩ := h.live hx
  have hb : ((x.refcount + 1) % 2 ^ 32 + (2 ^ 32 - 1)) % 2 ^ 32 = x.refcount := by omega
  have hne : ¬x.refcount = 0 := by omega
  rw [fileGet_eq hx]
  unfold FdState.filePut FdState.install FdState.remove
  simp only [update_self, update_idem, hb, if_neg hne]
  rw [show s.held f + 1 + 1 - 1 - 1 = s.held f by omega, update_eq_self,
    ← hs, update_eq_self, show some { x with refcount := x.refcount } = s.file f from hx.symm, update_eq_self]

/-- Replacing what a slot holds by an open file. -/
lemma FdOk.replace {old : Nat} (hx : s.file f = some x) (ht : (s.table t).isSome)
    (hi : i < NOFILE) (hs : s.slot (t, i) = some old) (hr : old ≠ f → s.refs f + 1 < 2 ^ 32)
    (hk : old ≠ f → s.AppendEnd old → 1 < s.refs old) :
    FdOk ((((s.fileGet f).remove t i old).install t i f).filePut old) := by
  by_cases hold : old = f
  · subst hold
    rw [h.replace_self hs]
    exact h
  have hfo : ¬f = old := fun h => hold h.symm
  have hlt := h.lt_tables ht
  have hsl : (s.fileGet f).slot = s.slot := by rw [fileGet_eq hx]
  have htb : (s.fileGet f).tables = s.tables := by rw [fileGet_eq hx]
  have htab : (s.fileGet f).table = s.table := by rw [fileGet_eq hx]
  have hfl : (s.fileGet f).file old = s.file old := by
    rw [fileGet_eq hx]
    exact update_of_ne hold ..
  have hhl : 0 < (s.fileGet f).held f := by
    rw [fileGet_eq hx]
    simp
  have hh' : 0 < ((s.fileGet f).remove t i old).held f := by
    simpa [FdState.remove, update_of_ne hfo] using hhl
  have hfr : ((s.fileGet f).remove t i old).slot (t, i) = none := update_self ..
  have hin := ((h.get (hr hold)).remove (hsl.symm ▸ hs)).install (htab.symm ▸ ht) hi hfr hh'
  refine hin.put ?_ fun happ => ?_
  · simp [FdState.install, FdState.remove, update_of_ne hold]
  · rw [refs_install (htb.symm ▸ hlt) hi hfr hh', refs_remove (htb.symm ▸ hlt) hi (hsl.symm ▸ hs), refs_fileGet hx,
      if_neg hold]
    exact hk hold (appendEnd_of_file (fun y hy => ⟨y, hfl ▸ hy, rfl, rfl⟩) happ)

lemma FdOk.fdDup2 {oldfd newfd : Int} (ht : (s.table t).isSome)
    (hr : ∀ f, inRange oldfd → inRange newfd → newfd < soft → s.slot (t, oldfd.toNat) = some f →
      s.slot (t, newfd.toNat) ≠ some f → s.refs f + 1 < 2 ^ 32)
    (hk : ∀ f, inRange oldfd → inRange newfd → newfd < soft → s.slot (t, newfd.toNat) = some f →
      s.slot (t, oldfd.toNat) ≠ none → s.slot (t, oldfd.toNat) ≠ some f → s.AppendEnd f → 1 < s.refs f) :
    FdOk (s.fdDup2 t oldfd newfd soft).1 := by
  unfold FdState.fdDup2
  split
  · exact h
  next hrng =>
    obtain ⟨hold, hnew⟩ : inRange oldfd = true ∧ inRange newfd = true := by simpa using hrng
    split
    · exact h
    split
    · exact h
    next hsoft =>
      cases hs : s.slot (t, oldfd.toNat) with
      | none => exact h
      | some f =>
        obtain ⟨x, hx⟩ := h.open_of_slot hs
        have hlt : newfd.toNat < NOFILE := by
          simp only [inRange, and_eq_true, decide_eq_true_eq] at hnew
          omega
        have hsl : (s.fileGet f).slot = s.slot := by rw [fileGet_eq hx]
        have hfit := hr f hold hnew (not_le.1 hsoft) hs
        cases htgt : s.slot (t, newfd.toNat) with
        | none =>
          simp only [hsl, htgt]
          exact h.getInstall hx ht hlt htgt (hfit (by rw [htgt]; nofun))
        | some old =>
          simp only [hsl, htgt]
          refine h.replace hx ht hlt htgt (fun hne => hfit ?_) fun hne => hk old hold hnew (not_le.1 hsoft) htgt ?_ ?_
          · rw [htgt]
            exact fun heq => hne (some.inj heq)
          · rw [hs]
            nofun
          · rw [hs]
            exact fun heq => hne (some.inj heq).symm

/-! ## Tables -/

lemma slots_tableAlloc (f : Nat) : s.tableAlloc.slots f = s.slots f := by
  have hle : s.places ⊆ s.tableAlloc.places := by
    refine Finset.product_subset_product ?_ (Finset.Subset.refl _)
    exact Finset.range_mono (le_succ _)
  refine (congrArg Finset.card (Finset.Subset.antisymm (fun k hk => ?_) fun k hk => ?_))
  · obtain ⟨hk, heq⟩ := Finset.mem_filter.1 hk
    obtain ⟨ht, hi⟩ := h.range k.1 k.2 f (of_decide_eq_true heq)
    exact Finset.mem_filter.2 ⟨by simp [places, h.lt_tables ht, hi], heq⟩
  · obtain ⟨hk, heq⟩ := Finset.mem_filter.1 hk
    exact Finset.mem_filter.2 ⟨hle hk, heq⟩

lemma FdOk.tableAlloc : FdOk s.tableAlloc where
  files f := by
    rw [refs, slots_tableAlloc h]
    exact h.files f
  pipes := h.pipes
  fresh t ht := by
    have hne : t ≠ s.tables := by
      rintro rfl
      exact absurd ht (not_succ_le_self _)
    exact (update_of_ne hne ..).trans (h.fresh t (le_of_succ_le ht))
  range t i f hs := by
    obtain ⟨ht, hi⟩ := h.range t i f hs
    have hne : t ≠ s.tables := (h.lt_tables ht).ne
    refine ⟨?_, hi⟩
    rw [show s.tableAlloc.table t = s.table t from update_of_ne hne ..]
    exact ht
  plain := h.plain

end

/-- The copying loop has so far only filled slots below, so the next one is free. -/
lemma dupSlot_slot (hk : k ≠ (t', i)) : (dupSlot t t' s i).slot k = s.slot k := by
  unfold dupSlot
  split
  · rfl
  · next f hs =>
      have hsl : (s.fileGet f).slot = s.slot := by
        unfold fileGet
        split <;> rfl
      exact (update_of_ne hk ..).trans (congrFun hsl k)

lemma dupSlot_table (s : FdState) (t t' i : Nat) :
    (dupSlot t t' s i).table = s.table ∧ (dupSlot t t' s i).tables = s.tables := by
  unfold dupSlot fileGet
  split
  · exact ⟨rfl, rfl⟩
  · split <;> exact ⟨rfl, rfl⟩

/-- The slots that the loop still has to fill stay free. -/
lemma dupSlot_rest (hnd : (i :: l).Nodup) (hl : ∀ j ∈ i :: l, j < NOFILE ∧ s.slot (t', j) = none) :
    ∀ j ∈ l, j < NOFILE ∧ (dupSlot t t' s i).slot (t', j) = none := by
  intro j hj
  obtain ⟨hlt, hs⟩ := hl j (mem_cons_of_mem _ hj)
  refine ⟨hlt, (dupSlot_slot fun heq => (nodup_cons.1 hnd).1 ?_).trans hs⟩
  cases heq
  exact hj

lemma FdOk.dupSlot (h : FdOk s) (ht : (s.table t').isSome) (hi : i < NOFILE) (hs : s.slot (t', i) = none)
    (hr : ∀ f, s.slot (t, i) = some f → s.refs f + 1 < 2 ^ 32) : FdOk (FdState.dupSlot t t' s i) ∧
      ∀ g, (FdState.dupSlot t t' s i).refs g = s.refs g + if s.slot (t, i) = some g then 1 else 0 := by
  unfold FdState.dupSlot
  cases hf : s.slot (t, i) with
  | none => exact ⟨h, fun g => by simp⟩
  | some f =>
    obtain ⟨x, hx⟩ := h.open_of_slot hf
    refine ⟨h.getInstall hx ht hi hs (hr f hf), fun g => ?_⟩
    rw [refs_getInstall hx (h.lt_tables ht) hi hs]
    simp [eq_comm]

/-- The loop of `files_dup`. -/
lemma FdOk.dupAll (h : FdOk s) (ht : (s.table t').isSome) (htt : t ≠ t')
    (hnd : l.Nodup) (hl : ∀ i ∈ l, i < NOFILE ∧ s.slot (t', i) = none)
    (hr : ∀ f, s.refs f + s.copies t f l < 2 ^ 32) : FdOk (l.foldl (FdState.dupSlot t t') s) := by
  induction l generalizing s with
  | nil => exact h
  | cons i l ih =>
    obtain ⟨hi, hs⟩ := hl i mem_cons_self
    obtain ⟨hok, hrefs⟩ := h.dupSlot (t := t) ht hi hs fun f hf => by
      have := hr f
      rw [copies_cons, if_pos hf] at this
      omega
    have htab := (dupSlot_table s t t' i).1
    refine ih hok (htab.symm ▸ ht) hnd.of_cons (dupSlot_rest hnd hl) fun f => ?_
    have hf := hr f
    have hsame : (FdState.dupSlot t t' s i).copies t f l = s.copies t f l := copies_congr fun j _ =>
      dupSlot_slot fun heq => htt (congrArg Prod.fst heq)
    rw [copies_cons] at hf
    rw [hrefs, hsame]
    omega

lemma FdOk.filesDup (h : FdOk s) (ht : (s.table t).isSome) {ok : Bool}
    (hr : ∀ f, ok = true → s.refs f + s.copies t f (List.range NOFILE) < 2 ^ 32) : FdOk (s.filesDup t ok) := by
  cases ok with
  | false => exact h
  | true =>
    refine h.tableAlloc.dupAll ?_ (h.lt_tables ht).ne nodup_range (fun i hi => ⟨mem_range.1 hi, ?_⟩) fun f => ?_
    · rw [show s.tableAlloc.table s.tables = some 1 from update_self ..]
      rfl
    · -- the new table is empty
      by_contra hne
      obtain ⟨f, hf⟩ := ne_none_iff_exists'.1 hne
      have := h.lt_tables (h.range _ _ _ hf).1
      omega
    · rw [refs, slots_tableAlloc h]
      exact hr f rfl

/-! ## Flags -/

/-- `O_APPEND` has no part in the accounts. -/
lemma FdOk.setFl (h : FdOk s) {fd : Int} {append : Bool} : FdOk (s.setFl t fd append).1 := by
  unfold FdState.setFl
  split
  · exact h
  split
  · exact h
  next f hs =>
    split
    · exact h
    next x hx =>
      have hr (g : Nat) : (update s.file f
            (some { x with flags := { x.flags with append := append } }) g).map File.role =
            (s.file g).map File.role := by
        by_cases hg : g = f
        · rw [hg, update_self, hx]
          rfl
        · rw [update_of_ne hg]
      refine ⟨⟨h.file_frame (f := f) ?_ fun g hg =>
        ⟨rfl, rfl, rfl, update_of_ne hg ..⟩, h.pipe_frame rfl rfl rfl rfl hr⟩,
        h.fresh, h.range, h.plain_of_role hr⟩
      have hok := h.files f
      rw [hx] at hok
      dsimp only
      rw [update_self]
      exact hok

/-! ## Making files and pipes -/

lemma decide_lt_succ {a n : Nat} (h : a ≠ n) : decide (a < n + 1) = decide (a < n) :=
  decide_eq_decide.2 (by omega)

lemma FdOk.file_fresh (h : FdOk s) (hf : s.files ≤ f) : s.file f = none := by
  cases hx : s.file f with
  | none => rfl
  | some x =>
    have := (h.live hx).2.2.2.2
    omega

lemma FdOk.refs_fresh (h : FdOk s) (hf : s.files ≤ f) : s.refs f = 0 ∧ s.fileFrees f = 0 := by
  have hok := h.files f
  rw [h.file_fresh hf, decide_eq_false (by omega)] at hok
  exact hok

lemma FdOk.pipe_fresh (h : FdOk s) (hp : s.pipes ≤ p) :
    s.pipe p = none ∧ s.ends p true = 0 ∧ s.ends p false = 0 ∧ s.pipeFrees p = 0 := by
  have hok := h.pipes p
  rw [decide_eq_false (by omega)] at hok
  cases he : s.pipe p with
  | none =>
    rw [he] at hok
    exact ⟨rfl, hok⟩
  | some e =>
    rw [he] at hok
    exact absurd hok.2.2.2.2 false_ne_true

/-- A new file enters the accounts of the files. -/
lemma fileAlloc_files (h : ∀ f, FileOk (s.refs f) (s.fileFrees f) (decide (f < s.files)) (s.file f))
    (flags : OpenFlags) (pipe : Option Nat) (f : Nat) :
    FileOk ((s.fileAlloc flags pipe).refs f) ((s.fileAlloc flags pipe).fileFrees f)
      (decide (f < (s.fileAlloc flags pipe).files)) ((s.fileAlloc flags pipe).file f) := by
  change FileOk (s.slots f + update s.held s.files 1 f) (s.fileFrees f)
    (decide (f < s.files + 1)) (update s.file s.files _ f)
  have hok := h f
  by_cases hf : f = s.files
  · subst hf
    rw [decide_eq_false (Nat.lt_irrefl _)] at hok
    cases hx : s.file s.files with
    | some x =>
      rw [hx] at hok
      exact absurd hok.2.2.2.2 false_ne_true
    | none =>
      rw [hx] at hok
      obtain ⟨hr, hfrs⟩ := hok
      have hsl : s.slots s.files = 0 := Nat.eq_zero_of_add_eq_zero_right hr
      simp [FileOk, hsl, hfrs]
  · rw [update_of_ne hf, update_of_ne hf, decide_lt_succ hf]
    exact hok

lemma ends_fileAlloc (flags : OpenFlags) (pipe : Option Nat) (reads : Bool) :
    (s.fileAlloc flags pipe).ends p reads =
      s.ends p reads + (isEnd p reads (some { refcount := 1, flags, pipe })).toNat := by
  change countOn (Finset.range (s.files + 1)) (isEnd p reads) (update s.file s.files _) = _
  rw [countOn_range_succ, update_self]
  congr 1
  refine countOn_congr fun f hf => ?_
  rw [update_of_ne (Finset.mem_range.1 hf).ne]

lemma fileAlloc_plain (h : ∀ f x p, s.file f = some x → x.pipe = some p → x.flags.accmode = 0 →
    x.flags.other = 0) {flags : OpenFlags} {pipe : Option Nat}
    (hnew : ∀ p, pipe = some p → flags.accmode = 0 → flags.other = 0) :
    ∀ f x p, (s.fileAlloc flags pipe).file f = some x → x.pipe = some p → x.flags.accmode = 0 →
      x.flags.other = 0 := by
  intro f x p hx hp ha
  by_cases hf : f = s.files
  · subst hf
    simp only [fileAlloc, update_self, some.injEq] at hx
    subst hx
    exact hnew p hp ha
  · exact h f x p ((update_of_ne hf ..).symm.trans hx) hp ha

/-- A new file of another type. -/
lemma FdOk.openFile (h : FdOk s) (flags : OpenFlags) : FdOk (s.fileAlloc flags none) where
  files := fileAlloc_files h.files flags none
  pipes p := by
    rw [ends_fileAlloc, ends_fileAlloc]
    exact h.pipes p
  fresh := h.fresh
  range := h.range
  plain := fileAlloc_plain h.plain fun p hp => by cases hp

/-- The two ends of a new pipe. -/
def FdState.pipePair (s : FdState) : FdState :=
  (s.pipeAlloc.fileAlloc O_RDONLY (some s.pipes)).fileAlloc O_WRONLY (some s.pipes)

variable (h : FdOk s)
include h

lemma FdOk.pipePair : FdOk s.pipePair where
  files := fileAlloc_files (fileAlloc_files (s := s.pipeAlloc) h.files _ _) _ _
  pipes p := by
    unfold FdState.pipePair
    rw [ends_fileAlloc, ends_fileAlloc, ends_fileAlloc, ends_fileAlloc]
    change PipeEndsOk (s.ends p true + _ + _) (s.ends p false + _ + _) (s.pipeFrees p)
      (decide (p < s.pipes + 1)) (update s.pipe s.pipes (some { readers := 1, writers := 1 }) p)
    by_cases hp : p = s.pipes
    · obtain ⟨-, hr, hw, hfrs⟩ := h.pipe_fresh hp.ge
      rw [hr, hw, hfrs, hp]
      simp [PipeEndsOk, isEnd, O_RDONLY, O_WRONLY]
    · have hps : ¬s.pipes = p := fun h => hp h.symm
      rw [update_of_ne hp, decide_lt_succ hp]
      simpa [isEnd, hps] using h.pipes p
  fresh := h.fresh
  range := h.range
  plain := fileAlloc_plain (fileAlloc_plain (s := s.pipeAlloc) h.plain fun _ _ _ => rfl) fun _ _ _ => rfl

/-- A pipe that goes again before its ends were made. -/
lemma FdOk.pipe_undone (hf : s'.file = s.file)
    (hfls : ∀ f, FileOk (s'.refs f) (s'.fileFrees f) (decide (f < s'.files)) (s'.file f))
    (he : ∀ p reads, s'.ends p reads = s.ends p reads)
    (hpp : s'.pipe = s.pipe) (hpipes : s'.pipes = s.pipes + 1)
    (hfrs : s'.pipeFrees = update s.pipeFrees s.pipes 1)
    (htab : s'.table = s.table) (ht : s'.tables = s.tables) (hs : s'.slot = s.slot) : FdOk s' := by
  refine ⟨⟨hfls, fun p => ?_⟩, ?_, ?_, ?_⟩
  · rw [he, he, hpp, hpipes, hfrs]
    by_cases hp : p = s.pipes
    · obtain ⟨hn, hr, hw, -⟩ := h.pipe_fresh hp.ge
      rw [hn, hr, hw, hp]
      simp [PipeEndsOk]
    · rw [update_of_ne hp, decide_lt_succ hp]
      exact h.pipes p
  · rw [htab, ht]
    exact h.fresh
  · rw [htab, hs]
    exact h.range
  · rw [hf]
    exact h.plain

/-- `do_pipe` without memory for the read end. -/
lemma FdOk.noReader : FdOk (s.pipeAlloc.pipeFree s.pipes) := by
  obtain ⟨hn, -, -, hfrs⟩ := h.pipe_fresh (le_refl _)
  refine h.pipe_undone rfl h.files (fun _ _ => rfl) ?_ rfl ?_ rfl rfl rfl
  · change update (update s.pipe s.pipes _) s.pipes none = s.pipe
    rw [update_idem, ← hn, update_eq_self]
  · change update s.pipeFrees s.pipes (s.pipeFrees s.pipes + 1) = _
    rw [hfrs]

/-- `do_pipe` without memory for the write end. -/
lemma FdOk.noWriter :
    FdOk (((s.pipeAlloc.fileAlloc O_RDONLY (some s.pipes)).fileFree s.files).pipeFree s.pipes) := by
  obtain ⟨hn, -, -, hpfrees⟩ := h.pipe_fresh le_rfl
  obtain ⟨hr, hfrs⟩ := h.refs_fresh le_rfl
  have hfl := h.file_fresh le_rfl
  have hhl : s.held s.files = 0 := Nat.eq_zero_of_add_eq_zero_left hr
  -- the whole detour in one update
  have he : ((s.pipeAlloc.fileAlloc O_RDONLY (some s.pipes)).fileFree s.files).pipeFree s.pipes = { s with
        files := s.files + 1
        pipes := s.pipes + 1
        fileFrees := update s.fileFrees s.files 1
        pipeFrees := update s.pipeFrees s.pipes 1 } := by
    have hro : FdState.PipeEnds.close ⟨1, 1⟩ O_RDONLY = ⟨0, 1⟩ := by decide
    have hb : update s.held s.files 0 = s.held := by
      rw [← hhl, update_eq_self]
    have hb' : update s.file s.files none = s.file := by
      rw [← hfl, update_eq_self]
    have hb'' : update s.pipe s.pipes none = s.pipe := by
      rw [← hn, update_eq_self]
    simp [pipeFree, fileFree, fileAlloc, pipeAlloc, closeEnd, hro, hfrs, hpfrees, hb, hb', hb'']
  rw [he]
  refine h.pipe_undone rfl (fun f => ?_) (fun p reads => ?_) rfl rfl rfl rfl rfl rfl
  · change FileOk (s.refs f) (update s.fileFrees s.files 1 f) (decide (f < s.files + 1)) (s.file f)
    by_cases hf : f = s.files
    · rw [hf, hfl, hr]
      simp [FileOk]
    · rw [update_of_ne hf, decide_lt_succ hf]
      exact h.files f
  · change countOn (Finset.range (s.files + 1)) (isEnd p reads) s.file = _
    rw [countOn_range_succ, hfl]
    rfl

/-- Closing a slot whose file is not a read end with `O_APPEND`. -/
lemma FdOk.closeInstalled (hs : s.slot (t, i) = some f) (hf : ¬s.AppendEnd f) : FdOk (s.closeSlot t i) := by
  refine h.closeSlot fun g hg happ => ?_
  rw [hs] at hg
  cases hg
  exact absurd happ hf

/-- The two ends get slots or go again. -/
lemma FdOk.pipeInstall {copy : Bool} (ht : (s.table t).isSome)
    (hne : wf ≠ rf) (hrheld : 0 < s.held rf) (hwheld : 0 < s.held wf) (hrf : ¬s.AppendEnd rf)
    (hwf : ¬s.AppendEnd wf) : FdOk (s.pipeInstall t rf wf soft copy).1 := by
  unfold FdState.pipeInstall FdState.fdAllocLimit
  dsimp only
  cases hi : s.lowestFree t 0 (min (min soft NOFILE) NOFILE) with
  | none =>
    have hput := h.put hrheld fun happ => absurd happ hrf
    obtain ⟨-, -, -, hoth, -⟩ := filePut_frame s rf
    simp only [hi]
    refine hput.put ((hoth wf hne).1 ▸ hwheld) fun happ => absurd ?_ hwf
    exact appendEnd_of_file (fun y hy => filePut_file hy) happ
  | some i =>
    obtain ⟨-, hlt, hf, -⟩ := lowestFree_spec hi
    have hi' : i < NOFILE := by omega
    have hin := h.install ht hi' hf hrheld
    have hhl : 0 < (s.install t i rf).held wf := by
      simpa [FdState.install, update_of_ne hne] using hwheld
    have hrslot : (s.install t i rf).slot (t, i) = some rf := update_self ..
    have hclose (s : FdState) (j : Nat) (hj : j < NOFILE) : s.fdClose t (j : Int) = s.closeSlot t j := by
      simp [fdClose, inRange, hj]
    cases hj : (s.install t i rf).lowestFree t 0 (min (min soft NOFILE) NOFILE) with
    | none =>
      have hneg : (-EMFILE : Int) < 0 := by decide
      simp only [hclose _ _ hi']
      have hcl := hin.closeInstalled hrslot hrf
      have hput := filePut_frame ((s.install t i rf).remove t i rf) rf
      have he : (s.install t i rf).closeSlot t i = ((s.install t i rf).remove t i rf).filePut rf := by
        unfold FdState.closeSlot
        rw [hrslot]
      refine hcl.put ?_ fun happ => absurd ?_ hwf
      · rw [he, (hput.2.2.2.1 wf hne).1]
        simpa [FdState.remove, update_of_ne hne] using hhl
      · exact appendEnd_closeSlot (s := s.install t i rf) happ
    | some j =>
      obtain ⟨-, hjlt, hjfree, -⟩ := lowestFree_spec hj
      have hj' : j < NOFILE := by omega
      have hb := hin.install ht hj' hjfree hhl
      have hij : (t, i) ≠ (t, j) := by
        intro heq
        rw [← heq, hrslot] at hjfree
        cases hjfree
      cases copy with
      | true => exact hb
      | false =>
        simp only [hclose _ _ hi', hclose _ _ hj']
        have hrslot' : ((s.install t i rf).install t j wf).slot (t, i) = some rf :=
          (update_of_ne hij ..).trans hrslot
        have hcl := hb.closeInstalled hrslot' hrf
        refine hcl.closeInstalled (f := wf) ?_ fun happ => absurd ?_ hwf
        · rw [closeSlot_slot, update_of_ne hij.symm]
          exact update_self ..
        · exact appendEnd_closeSlot (s := (s.install t i rf).install t j wf) happ

lemma FdOk.doPipe {env : FdState.PipeEnv} (ht : (s.table t).isSome) : FdOk (s.doPipe t soft env).1 := by
  unfold FdState.doPipe
  split
  · exact h
  dsimp only
  split
  · exact h.noReader
  split
  · exact h.noWriter
  have hp := h.pipePair
  have hr : s.pipePair.file s.files = some ⟨1, O_RDONLY, some s.pipes⟩ := by
    simp [FdState.pipePair, fileAlloc, pipeAlloc]
  have hw : s.pipePair.file (s.files + 1) = some ⟨1, O_WRONLY, some s.pipes⟩ := by
    simp [FdState.pipePair, fileAlloc, pipeAlloc]
  refine hp.pipeInstall ht (succ_ne_self _) ?_ ?_ ?_ ?_
  · simp [FdState.pipePair, fileAlloc, pipeAlloc]
  · simp [FdState.pipePair, fileAlloc, pipeAlloc]
  · rintro ⟨x, p, hx, -, -, happ⟩
    rw [hr] at hx
    cases hx
    cases happ
  · rintro ⟨x, p, hx, -, -, happ⟩
    rw [hw] at hx
    cases hx
    cases happ

end OS01.Fs
