import Mathlib.Algebra.Group.Nat.Defs
import Mathlib.Data.List.Basic

/-!
# The damage list of the terminal renderer

`add_damage_span` grows a listed rectangle until the span it holds fits no other one. Nothing
absorbed is taken off the list and only the rectangle touched last is skipped, so the second of two
merges leaves the first rectangle to be merged again: the loop ends exactly when at most one merge
is made, and then nothing that was listed is lost.
-/

namespace OS01.Terminal

open Option List

/-- `term_damage_rect_t`. -/
structure Rect where
  (x y w h : ℕ)

/-- `term_damage_t`; `rects` are the first `count` entries. -/
structure Damage where
  full : Bool
  rects : List Rect

/-- The end `a + n` of an interval, at `uint32_t`. -/
def stop (a n : ℕ) : ℕ :=
  (a + n) % 2 ^ 32

/-- `try_merge_into`: what becomes of `r` and of the current span, if the two merge. -/
def tryMergeInto (r cur : Rect) : Option Rect :=
  if r.y = cur.y ∧ r.h = cur.h ∧ cur.x ≤ stop r.x r.w ∧ r.x ≤ stop cur.x cur.w then
    let nl := min r.x cur.x
    some { r with x := nl, w := max (stop r.x r.w) (stop cur.x cur.w) - nl }
  else if r.x = cur.x ∧ r.w = cur.w ∧ cur.y ≤ stop r.y r.h ∧ r.y ≤ stop cur.y cur.h then
    let nt := min r.y cur.y
    some { r with y := nt, h := max (stop r.y r.h) (stop cur.y cur.h) - nt }
  else none

/-- One pass of the inner loop: the first rectangle other than `touched` that takes the span. -/
def mergePass (rects : List Rect) (cur : Rect) (touched : Option ℕ) : Option (ℕ × Rect) :=
  rects.zipIdx.findSome? fun (r, i) =>
    if touched = some i then none else (tryMergeInto r cur).map (i, ·)

/-- The outer loop within `fuel` passes; the flag is `absorbed`. -/
def mergeLoop : ℕ → List Rect → Rect → Option ℕ → Bool → Option (List Rect × Bool)
  | 0, _, _, _, _ => none
  | fuel + 1, rects, cur, touched, absorbed =>
    match mergePass rects cur touched with
    | none => some (rects, absorbed)
    | some (i, r) => mergeLoop fuel (rects.set i r) r (some i) true

/-- `TERM_DAMAGE_MAX_RECTS`. -/
def maxRects : ℕ := 64

/-- `add_damage_span`; `none` when the loop is still running after `fuel` passes. -/
def addDamageSpan (fuel : ℕ) (d : Damage) (s : Rect) : Option Damage :=
  if s.w = 0 ∨ s.h = 0 ∨ d.full then some d
  else (mergeLoop fuel d.rects s none false).map fun (rects, absorbed) =>
    if absorbed then ⟨false, rects⟩
    else if maxRects ≤ rects.length then ⟨true, []⟩
    else ⟨false, rects ++ [s]⟩

variable {r c s u : Rect} {rects : List Rect} {d d' : Damage} {n i : ℕ} {t : Option ℕ}

/-! ## When the loop ends -/

/-- What was merged into `r` can be merged with the result once more. -/
lemma tryMergeInto_again (h : tryMergeInto r c = some u) : (tryMergeInto c u).isSome := by
  unfold tryMergeInto at h
  split_ifs at h with hx hy
  · cases h
    rw [tryMergeInto, if_pos]
    · rfl
    · simp only [stop] at *
      omega
  cases h
  unfold tryMergeInto
  split_ifs with h1 h2
  · rfl
  · rfl
  · simp only [stop] at *
    omega

lemma mergePass_some (h : mergePass rects c t = some (i, u)) :
    ∃ r, rects[i]? = some r ∧ t ≠ some i ∧ tryMergeInto r c = some u := by
  obtain ⟨⟨r, j⟩, hm, hf⟩ := exists_of_findSome?_eq_some h
  simp only [ite_none_left_eq_some, map_eq_some_iff] at hf
  obtain ⟨ht, v, hv, rfl, rfl⟩ := hf
  exact ⟨r, mem_zipIdx_iff_getElem?.1 hm, ht, hv⟩

/-- Once a rectangle has been touched and another takes the span, every later pass finds the
rectangle touched before. -/
lemma mergeLoop_none {b : Bool} (hi : rects[i]? = some c)
    (h : (mergePass rects c (some i)).isSome) : mergeLoop n rects c (some i) b = none := by
  induction n generalizing rects c i b with
  | zero => rfl
  | succ n ih =>
    obtain ⟨⟨j, u⟩, hu⟩ := isSome_iff_exists.1 h
    obtain ⟨r, hr, hij, hm⟩ := mergePass_some hu
    rw [mergeLoop, hu]
    have hji : j ≠ i := fun h => hij (congrArg some h.symm)
    refine ih (by grind) (findSome?_isSome_iff.2 ⟨(c, i), ?_, ?_⟩)
    · rw [mem_zipIdx_iff_getElem?, getElem?_set_ne hji, hi]
    · simpa [hji] using tryMergeInto_again hm

/-- After its first merge the span fits no other rectangle. -/
def Settles (rects : List Rect) (s : Rect) : Prop :=
  ∀ i u, mergePass rects s none = some (i, u) → mergePass (rects.set i u) u (some i) = none

lemma mergeLoop_some {x : List Rect × Bool} (h : mergeLoop n rects s none false = some x) :
    mergePass rects s none = none ∧ x = (rects, false) ∨ ∃ i u, mergePass rects s none = some (i, u) ∧
        mergePass (rects.set i u) u (some i) = none ∧ x = (rects.set i u, true) := by
  obtain _ | n := n
  · cases h
  rw [mergeLoop] at h
  rcases hp : mergePass rects s none with _ | ⟨i, u⟩
  · rw [hp] at h
    exact .inl ⟨rfl, (some.inj h).symm⟩
  rw [hp] at h
  change mergeLoop n (rects.set i u) u (some i) true = some x at h
  obtain ⟨r, hr, -, -⟩ := mergePass_some hp
  cases hq : mergePass (rects.set i u) u (some i) with
  | none =>
    obtain _ | n := n
    · cases h
    rw [mergeLoop, hq] at h
    exact .inr ⟨i, u, rfl, hq, (some.inj h).symm⟩
  | some _ =>
    rw [mergeLoop_none (by grind) (by rw [hq]; rfl)] at h
    cases h

lemma mergeLoop_isSome : (∃ n x, mergeLoop n rects s none false = some x) ↔ Settles rects s := by
  constructor
  · rintro ⟨n, x, h⟩ i u hp
    obtain ⟨h', -⟩ | ⟨j, v, h', hq, -⟩ := mergeLoop_some h
    · cases h'.symm.trans hp
    · obtain ⟨rfl, rfl⟩ := Prod.mk.inj (some.inj (h'.symm.trans hp))
      exact hq
  · intro h
    refine ⟨2, ?_⟩
    rcases hp : mergePass rects s none with _ | ⟨i, u⟩
    · exact ⟨_, by rw [mergeLoop, hp]⟩
    · exact ⟨_, by rw [mergeLoop, hp]; simp only [mergeLoop, h i u hp]; rfl⟩

/-! ## What the list covers -/

/-- The rectangle covers the pixel. -/
def Rect.Has (r : Rect) (p : ℕ × ℕ) : Prop :=
  (r.x ≤ p.1 ∧ p.1 < r.x + r.w) ∧ r.y ≤ p.2 ∧ p.2 < r.y + r.h

/-- Neither end of the rectangle wraps. -/
def Rect.Fits (r : Rect) : Prop :=
  r.x + r.w < 2 ^ 32 ∧ r.y + r.h < 2 ^ 32

/-- The pixel will be drawn again. -/
def Damage.Has (d : Damage) (p : ℕ × ℕ) : Prop :=
  d.full ∨ ∃ r ∈ d.rects, r.Has p

lemma tryMergeInto_fits (h : tryMergeInto r c = some u) (hr : r.Fits) (hc : c.Fits) :
    u.Fits ∧ ∀ p, r.Has p ∨ c.Has p → u.Has p := by
  have he {a n : ℕ} (h : a + n < 2 ^ 32) : stop a n = a + n := Nat.mod_eq_of_lt h
  rw [tryMergeInto, he hr.1, he hc.1, he hr.2, he hc.2] at h
  obtain ⟨hr, hr'⟩ := hr
  obtain ⟨hc, hc'⟩ := hc
  split_ifs at h
  all_goals
    cases h
    simp only [Rect.Fits, Rect.Has]
    exact ⟨by omega, fun p hp => by omega⟩

/-- The lists that calls, the sorting of the list, `term_render_clear` and
`term_render_ack_damage` lead to, as long as no span wraps. -/
inductive Reached : Damage → Prop
  | clear : Reached ⟨true, []⟩
  | ack : Reached ⟨false, []⟩
  | sort {d : Damage} {rects : List Rect} :
      Reached d → d.rects.Perm rects → Reached ⟨d.full, rects⟩
  | add {d d' : Damage} {s : Rect} {n : ℕ} :
      Reached d → s.Fits → addDamageSpan n d s = some d' → Reached d'

lemma addDamageSpan_has (hd : ∀ r ∈ d.rects, r.Fits) (hs : s.Fits) (h : addDamageSpan n d s = some d') :
    (∀ r ∈ d'.rects, r.Fits) ∧ ∀ p, d.Has p ∨ s.Has p → d'.Has p := by
  unfold addDamageSpan at h
  split_ifs at h with h0
  · cases h
    refine ⟨hd, fun p hp => hp.elim id fun hp => ?_⟩
    obtain hw | hh | hf := h0
    · simp [Rect.Has] at hp
      omega
    · simp [Rect.Has] at hp
      omega
    · exact .inl hf
  obtain ⟨x, hx, rfl⟩ := map_eq_some_iff.1 h
  obtain ⟨-, rfl⟩ | ⟨i, u, hp, -, rfl⟩ := mergeLoop_some hx
  · by_cases hl : maxRects ≤ d.rects.length
    · simp [hl, Damage.Has]
    · simp [Damage.Has]
      grind
  obtain ⟨r, hr, -, hm⟩ := mergePass_some hp
  obtain ⟨hu, hc⟩ := tryMergeInto_fits hm (hd r (mem_of_getElem? hr)) hs
  have hi : u ∈ d.rects.set i u := mem_iff_getElem?.2 ⟨i, by grind⟩
  refine ⟨fun v hv => ?_, fun p hp => ?_⟩
  · obtain hv | rfl := mem_or_eq_of_mem_set hv
    · exact hd v hv
    · exact hu
  obtain (hf | ⟨v, hv, hp⟩) | hp := hp
  · exact absurd (.inr (.inr hf)) h0
  · obtain ⟨j, hj⟩ := mem_iff_getElem?.1 hv
    by_cases hij : i = j
    · exact .inr ⟨u, hi, hc p (.inl (by grind))⟩
    · exact .inr ⟨v, mem_iff_getElem?.2 ⟨j, by grind⟩, hp⟩
  · exact .inr ⟨u, hi, hc p (.inr hp)⟩

lemma Reached.fits (h : Reached d) : ∀ r ∈ d.rects, r.Fits := by
  induction h with
  | clear | ack => simp
  | sort _ hp ih => exact fun r hr => ih r (hp.mem_iff.2 hr)
  | add _ hs h ih => exact (addDamageSpan_has ih hs h).1

/-- **Adding a span** to a list that calls led to: the loop ends exactly if the span is empty, everything is to be drawn
again, or the span fits no other rectangle after its first merge; and then nothing that was listed is lost. -/
theorem addDamageSpan_covers (hd : Reached d) (s : Rect) :
    ((∃ n d', addDamageSpan n d s = some d') ↔ s.w = 0 ∨ s.h = 0 ∨ d.full ∨ Settles d.rects s) ∧
      (s.Fits → ∀ n d', addDamageSpan n d s = some d' → ∀ p, d.Has p ∨ s.Has p → d'.Has p) := by
  refine ⟨?_, fun hs n d' h => (addDamageSpan_has hd.fits hs h).2⟩
  unfold addDamageSpan
  split_ifs with h
  · grind
  · simp only [map_eq_some_iff]
    rw [← mergeLoop_isSome]
    grind

/-- Two cells of a row. -/
def twoCells : Damage := ⟨false, [⟨0, 0, 8, 16⟩, ⟨16, 0, 8, 16⟩]⟩

lemma twoCells_reached : Reached twoCells :=
  .add (n := 1) (s := ⟨16, 0, 8, 16⟩) (.add (n := 1) (s := ⟨0, 0, 8, 16⟩) .ack ⟨by simp, by simp⟩ rfl)
    ⟨by simp, by simp⟩ rfl

/-- The theorem where the cell after the second one is added, which takes it. -/
theorem addDamageSpan_covers_next : Settles twoCells.rects ⟨24, 0, 8, 16⟩ ∧
    ∀ p, twoCells.Has p ∨ Rect.Has ⟨24, 0, 8, 16⟩ p → Damage.Has ⟨false, [⟨0, 0, 8, 16⟩, ⟨16, 0, 16, 16⟩]⟩ p := by
  have h := addDamageSpan_covers twoCells_reached ⟨24, 0, 8, 16⟩
  have hadd : addDamageSpan 2 twoCells ⟨24, 0, 8, 16⟩ = some ⟨false, [⟨0, 0, 8, 16⟩, ⟨16, 0, 16, 16⟩]⟩ := rfl
  exact ⟨by simpa [twoCells] using h.1.1 ⟨2, _, hadd⟩, h.2 ⟨by simp, by simp⟩ 2 _ hadd⟩

/-- Two cells of a row and then the one between them: the two rectangles take turns. -/
theorem addDamageSpan_between : Reached twoCells ∧ ∀ n, addDamageSpan n twoCells ⟨8, 0, 8, 16⟩ = none := by
  refine ⟨twoCells_reached, ?_⟩
  rintro (_ | n)
  · rfl
  · exact congrArg (Option.map _) (mergeLoop_none rfl rfl)

end OS01.Terminal
