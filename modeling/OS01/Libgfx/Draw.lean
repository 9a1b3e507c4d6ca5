import Mathlib.Tactic.Linarith

/-!
# Clipped drawing

`libgfx/line.c`: the primitives that paint into the buffer of a view. A call is modelled by the stores that it makes,
as a list of indices into the buffer, since all of them store its colour.

A primitive should store exactly to the pixels that are in its shape, in the clip and in the view. The rectangle
helper cuts every right and bottom edge off at 2³¹ - 1 and every width and height too, counted from the left or upper
edge, so that pixels far from there are lost (`InReach`). The pixel primitive does not compare with the left and
upper edge of the view, and casts the right and lower ones to 32 bits. The outline computes its edges in 32 bits, and
an edge that is out of range comes back somewhere else. `drawing_exact_iff` says for each primitive when its stores
are the right ones.
-/

namespace OS01.Libgfx

open List Int32 Int

/-- A rectangle, in exact coordinates: its left upper corner and its size. -/
structure Box where
  (x y w h : Int)
  deriving DecidableEq, Repr

/-- A pixel is in a rectangle. -/
def Box.Mem (b : Box) (p : Int × Int) : Prop :=
  (b.x ≤ p.1 ∧ p.1 < b.x + b.w) ∧ b.y ≤ p.2 ∧ p.2 < b.y + b.h

/-- `struct gfx_handle`, as far as drawing reads it. -/
structure GfxHandle where
  width : UInt32
  height : UInt32
  clipX : Int32
  clipY : Int32
  clipW : UInt32
  clipH : UInt32
  deriving DecidableEq, Repr

/-! ## The code -/

/-- `gfx_set_clip`. -/
def gfxSetClip (g : GfxHandle) (x y : Int32) (w h : UInt32) : GfxHandle :=
  { g with clipX := x, clipY := y, clipW := w, clipH := h }

/-- 2³¹ - 1, where the helper cuts off. -/
def EDGE_MAX : Int := 0x7fffffff

/-- The end of an edge or a length, cut off. -/
def clampMax (n : Int) : Int := if n > EDGE_MAX then EDGE_MAX else n

/-- `intersect_rect`: the overlap, or nothing. -/
def intersectRect (r v : Box) : Option Box :=
  if r.w = 0 ∨ r.h = 0 ∨ v.w = 0 ∨ v.h = 0 then none
  else
    let ax := if r.x > v.x then r.x else v.x
    let ay := if r.y > v.y then r.y else v.y
    let rb := clampMax (r.x + r.w)
    let vb := clampMax (v.x + v.w)
    let bb := if rb < vb then rb else vb
    let rbt := clampMax (r.y + r.h)
    let vbt := clampMax (v.y + v.h)
    let bbt := if rbt < vbt then rbt else vbt
    let iw := bb - ax
    let ih := bbt - ay
    if iw ≤ 0 ∨ ih ≤ 0 then none else some ⟨ax, ay, clampMax iw, clampMax ih⟩

namespace GfxHandle

variable (g : GfxHandle)

/-- The clip. -/
def clip : Box := ⟨g.clipX.toInt, g.clipY.toInt, g.clipW.toNat, g.clipH.toNat⟩

/-- The view. -/
def view : Box := ⟨0, 0, g.width.toNat, g.height.toNat⟩

/-- An index into the buffer, computed in `size_t`. -/
def index (x y : Int) : Nat := ((y * g.width.toNat + x) % 2 ^ 64).toNat

/-- `gfx__pixel_impl`. -/
def pixel (x y : Int32) : List Nat :=
  if g.clipW = 0 ∨ g.clipH = 0 then []
  else if x < g.clipX ∨ y < g.clipY then []
  else if g.width = 0 ∨ g.height = 0 then []
  else
    let xb := g.clipX.toInt + g.clipW.toNat
    let yb := g.clipY.toInt + g.clipH.toNat
    if x > ofInt (g.width.toNat - 1) then []
    else if y > ofInt (g.height.toNat - 1) then []
    else if x.toInt ≥ xb then []
    else if y.toInt ≥ yb then []
    else [g.index x.toInt y.toInt]

/-- A request cut to the clip and then to the view. -/
def clipped (r : Box) : Option Box :=
  match intersectRect r g.clip with
  | none => none
  | some c => intersectRect c g.view

/-- `gfx__hline_impl`. -/
def hline (x y : Int32) (w : UInt32) : List Nat :=
  if w = 0 then []
  else
    match g.clipped ⟨x.toInt, y.toInt, w.toNat, 1⟩ with
    | none => []
    | some c => (List.range c.w.toNat).map fun (i : Nat) => g.index (c.x + i) c.y

/-- `gfx__vline_impl`. -/
def vline (x y : Int32) (h : UInt32) : List Nat :=
  if h = 0 then []
  else
    match g.clipped ⟨x.toInt, y.toInt, 1, h.toNat⟩ with
    | none => []
    | some c => (List.range c.h.toNat).map fun (i : Nat) => g.index c.x (c.y + i)

/-- `gfx__rect_impl`. -/
def rect (x y : Int32) (w h : UInt32) : List Nat :=
  if w = 0 ∨ h = 0 then []
  else
    g.hline x y w ++
      (if h > 1 then g.hline x (y + (h - 1).toInt32) w else []) ++
      if h > 2 then
        g.vline x (y + 1) (h - 2) ++ if w > 1 then g.vline (x + (w - 1).toInt32) (y + 1) (h - 2) else []
      else []

/-- `gfx__fill_rect_impl`. -/
def fillRect (x y : Int32) (w h : UInt32) : List Nat :=
  if w = 0 ∨ h = 0 then []
  else
    match g.clipped ⟨x.toInt, y.toInt, w.toNat, h.toNat⟩ with
    | none => []
    | some c =>
      (List.range c.h.toNat).flatMap fun (row : Nat) =>
        (List.range c.w.toNat).map fun (col : Nat) => g.index (c.x + col) (c.y + row)

/-! ## The specification -/

/-- A pixel is in the clip and in the view. -/
def Visible (p : Int × Int) : Prop := g.clip.Mem p ∧ g.view.Mem p

/-- The stores are to the visible pixels of the shape, and nowhere else. -/
def Exact (stores : List Nat) (shape : Int × Int → Prop) : Prop :=
  ∀ i, i ∈ stores ↔ ∃ p, (shape p ∧ g.Visible p) ∧ (i : Int) = p.2 * g.width.toNat + p.1

end GfxHandle

/-- The outline of a rectangle. -/
def Box.Outline (b : Box) (p : Int × Int) : Prop :=
  b.Mem p ∧ (p.1 = b.x ∨ p.1 = b.x + b.w - 1 ∨ p.2 = b.y ∨ p.2 = b.y + b.h - 1)

/-! ## Where the code is exact -/

namespace GfxHandle

variable (g : GfxHandle)

/-- The pixels of a request that the cut-offs of the rectangle helper leave. -/
def InReach (r : Box) (p : Int × Int) : Prop :=
  p.1 < EDGE_MAX + min 0 (max r.x g.clip.x) ∧ p.2 < EDGE_MAX + min 0 (max r.y g.clip.y)

/-- Every visible pixel of a request is in reach. -/
def AllInReach (r : Box) : Prop := ∀ p, r.Mem p → g.Visible p → g.InReach r p

/-- An edge `e` of an outline that is drawn as `e'`, its coordinates in 32 bits. Where they are the same all of it
must be in reach; where they are not, there must be nothing to see of either. -/
def EdgeOk (e e' : Box) : Prop :=
  if e' = e then g.AllInReach e
  else (∀ p, e.Mem p → ¬ g.Visible p) ∧ ∀ p, e'.Mem p → g.Visible p → ¬ g.InReach e' p

/-- A width or height as the pixel primitive compares with it: one above 2³¹ becomes negative. -/
def edge (n : UInt32) : Int := if n.toNat ≤ 2 ^ 31 then n.toNat else n.toNat - 2 ^ 32

/-- A pixel of the clip that is also in the view is in one of at most 2³¹ columns and rows; one that is to the left of
the view or above it is beyond its right or lower edge. -/
def PixelOk (x y : Int32) : Prop :=
  g.clip.Mem (x.toInt, y.toInt) → g.width ≠ 0 → g.height ≠ 0 →
    (g.view.Mem (x.toInt, y.toInt) → g.width.toNat ≤ 2 ^ 31 ∧ g.height.toNat ≤ 2 ^ 31) ∧
      (x.toInt < 0 ∨ y.toInt < 0 → edge g.width ≤ x.toInt ∨ edge g.height ≤ y.toInt)

end GfxHandle

/-- The edges of an outline, each with the place where it is drawn. -/
def outlineEdges (x y : Int32) (w h : UInt32) : List (Box × Box) :=
  let X := x.toInt
  let Y := y.toInt
  let W : Int := w.toNat
  let H : Int := h.toNat
  if w = 0 ∨ h = 0 then []
  else
    [(⟨X, Y, W, 1⟩, ⟨X, Y, W, 1⟩)] ++
      (if h > 1 then [(⟨X, Y + H - 1, W, 1⟩, ⟨X, (y + (h - 1).toInt32).toInt, W, 1⟩)] else []) ++
      if h > 2 then
        [(⟨X, Y + 1, 1, H - 2⟩, ⟨X, (y + 1).toInt, 1, H - 2⟩)] ++
          if w > 1 then
            [(⟨X + W - 1, Y + 1, 1, H - 2⟩, ⟨(x + (w - 1).toInt32).toInt, (y + 1).toInt, 1, H - 2⟩)]
          else []
      else []

/-! ## The rectangle helper -/

lemma clampMax_eq (n : Int) : clampMax n = min n EDGE_MAX := by
  unfold clampMax
  split_ifs <;> omega

/-- How much two intervals overlap, with the cut-off of their ends. -/
def overlap (rx rw vx vw : Int) : Int := min (min (rx + rw) EDGE_MAX) (min (vx + vw) EDGE_MAX) - max rx vx

/-- One axis of the helper: the part of both intervals that the cut-offs leave. -/
lemma overlap_iff (rx rw vx vw c : Int) : max rx vx ≤ c ∧ c < max rx vx + min (overlap rx rw vx vw) EDGE_MAX ↔
      (rx ≤ c ∧ c < rx + rw) ∧ (vx ≤ c ∧ c < vx + vw) ∧ c < EDGE_MAX + min 0 (max rx vx) := by
  unfold overlap
  omega

lemma intersectRect_eq (r v : Box) : intersectRect r v = if r.w = 0 ∨ r.h = 0 ∨ v.w = 0 ∨ v.h = 0 then none
      else if overlap r.x r.w v.x v.w ≤ 0 ∨ overlap r.y r.h v.y v.h ≤ 0 then none
      else some ⟨max r.x v.x, max r.y v.y, min (overlap r.x r.w v.x v.w) EDGE_MAX,
        min (overlap r.y r.h v.y v.h) EDGE_MAX⟩ := by
  have hmax : ∀ a b : Int, (if a > b then a else b) = max a b := fun a b => by split_ifs <;> omega
  have hmin : ∀ a b : Int, (if a < b then a else b) = min a b := fun a b => by split_ifs <;> omega
  simp only [intersectRect, clampMax_eq, hmax, hmin]
  rfl

/-- The overlap that the helper finds: up to where it cuts off. -/
lemma mem_intersectRect (r v : Box) (p : Int × Int) : (∃ b, intersectRect r v = some b ∧ b.Mem p) ↔
      r.Mem p ∧ v.Mem p ∧ p.1 < EDGE_MAX + min 0 (max r.x v.x) ∧ p.2 < EDGE_MAX + min 0 (max r.y v.y) := by
  have hx := overlap_iff r.x r.w v.x v.w p.1
  have hy := overlap_iff r.y r.h v.y v.h p.2
  rw [intersectRect_eq]
  constructor
  · rintro ⟨b, hb, hmem⟩
    split_ifs at hb
    cases hb
    obtain ⟨hrx, hvx, hreachx⟩ := hx.1 hmem.1
    obtain ⟨hry, hvy, hreachy⟩ := hy.1 hmem.2
    exact ⟨⟨hrx, hry⟩, ⟨hvx, hvy⟩, hreachx, hreachy⟩
  · rintro ⟨⟨hrx, hry⟩, ⟨hvx, hvy⟩, hreachx, hreachy⟩
    have hxm := hx.2 ⟨hrx, hvx, hreachx⟩
    have hym := hy.2 ⟨hry, hvy, hreachy⟩
    rw [if_neg (by omega), if_neg (by omega)]
    exact ⟨_, rfl, hxm, hym⟩

lemma intersectRect_size {r v b : Box} (h : intersectRect r v = some b) :
    (0 < b.w ∧ b.w ≤ r.w) ∧ 0 < b.h ∧ b.h ≤ r.h := by
  have hM : (0 : Int) < EDGE_MAX := by decide
  rw [intersectRect_eq] at h
  split_ifs at h with _ hs
  cases h
  unfold overlap at hs ⊢
  dsimp only
  omega

namespace GfxHandle

variable (g : GfxHandle)

/-- What a request paints. -/
def Painted (r : Box) (p : Int × Int) : Prop := r.Mem p ∧ g.Visible p ∧ g.InReach r p

/-- A request cut to the clip and to the view. -/
lemma mem_clipped (r : Box) (p : Int × Int) : (∃ b, g.clipped r = some b ∧ b.Mem p) ↔ g.Painted r p := by
  have hcl := mem_intersectRect r g.clip p
  unfold clipped Painted Visible InReach
  cases hc : intersectRect r g.clip with
  | none =>
    rw [hc] at hcl
    constructor
    · rintro ⟨b, hb, -⟩
      cases hb
    · rintro ⟨hmem, ⟨hclipped, -⟩, hrch⟩
      obtain ⟨b, hb, -⟩ := hcl.2 ⟨hmem, hclipped, hrch⟩
      cases hb
  | some c =>
    rw [hc] at hcl
    have hcm : c.Mem p ↔ r.Mem p ∧ g.clip.Mem p ∧ p.1 < EDGE_MAX + min 0 (max r.x g.clip.x) ∧
        p.2 < EDGE_MAX + min 0 (max r.y g.clip.y) := by
      rw [← hcl]
      simp
    rw [mem_intersectRect, hcm]
    -- The cut-offs of the second call are weaker than those of the first.
    have hz : g.view.x = 0 ∧ g.view.y = 0 := ⟨rfl, rfl⟩
    constructor
    · rintro ⟨⟨hr, hclipped, hrch⟩, hv, -⟩
      exact ⟨hr, ⟨hclipped, hv⟩, hrch⟩
    · rintro ⟨hr, ⟨hclipped, hv⟩, hrch⟩
      refine ⟨⟨hr, hclipped, hrch⟩, hv, ?_⟩
      omega

/-! ## Stores -/

variable {p : Int × Int} {P shape : Int × Int → Prop} {stores : List Nat} {r c : Box} {x y : Int32}

/-- The place of a pixel of the view in the buffer. -/
lemma index_eq (h : g.view.Mem p) : (g.index p.1 p.2 : Int) = p.2 * g.width.toNat + p.1 := by
  obtain ⟨⟨hx0, hx⟩, hy0, hy⟩ := h
  simp only [view, zero_add] at hx0 hx hy0 hy
  have hw : (g.width.toNat : Int) < 2 ^ 32 := by exact_mod_cast g.width.toNat_lt
  have hh : (g.height.toNat : Int) < 2 ^ 32 := by exact_mod_cast g.height.toNat_lt
  have hnonneg : 0 ≤ p.2 * g.width.toNat + p.1 := by positivity
  have hlt : p.2 * g.width.toNat + p.1 < 2 ^ 64 := by nlinarith
  rw [index, emod_eq_of_lt hnonneg hlt]
  exact toNat_of_nonneg hnonneg

/-- Different pixels of the view have different places. -/
lemma index_inj {q : Int × Int} (hp : g.view.Mem p) (hq : g.view.Mem q)
    (h : p.2 * (g.width.toNat : Int) + p.1 = q.2 * g.width.toNat + q.1) : p = q := by
  obtain ⟨⟨hx0, hx⟩, -⟩ := hp
  obtain ⟨⟨hx0', hx'⟩, -⟩ := hq
  simp only [view, zero_add] at hx0 hx hx0' hx'
  have hrow : p.2 = q.2 := by
    have hdiv : ∀ a b : Int, 0 ≤ b → b < g.width.toNat → (a * g.width.toNat + b) / g.width.toNat = a := by
      intro a b hb hlt
      rw [add_comm, add_mul_ediv_right _ _ (by omega), ediv_eq_zero_of_lt hb hlt, zero_add]
    rw [← hdiv p.2 p.1 hx0 hx, h, hdiv q.2 q.1 hx0' hx']
  rw [hrow] at h
  exact Prod.ext (by omega) hrow

/-- Stores to what is painted are exact if what is painted is the shape. -/
lemma exact_iff (h : g.Exact stores P) : g.Exact stores shape ↔ ∀ p, g.Visible p → (P p ↔ shape p) := by
  constructor
  · intro hex p hp
    have hpl : ((g.index p.1 p.2 : Nat) : Int) = p.2 * g.width.toNat + p.1 := g.index_eq hp.2
    have hiff := (h (g.index p.1 p.2)).symm.trans (hex (g.index p.1 p.2))
    constructor
    · intro hP
      obtain ⟨q, ⟨hq, hvis⟩, heq⟩ := hiff.1 ⟨p, ⟨hP, hp⟩, hpl⟩
      rwa [g.index_inj hp.2 hvis.2 (hpl.symm.trans heq)]
    · intro hsh
      obtain ⟨q, ⟨hq, hvis⟩, heq⟩ := hiff.2 ⟨p, ⟨hsh, hp⟩, hpl⟩
      rwa [g.index_inj hp.2 hvis.2 (hpl.symm.trans heq)]
  · intro hiff i
    rw [h i]
    constructor
    · rintro ⟨p, ⟨hP, hp⟩, heq⟩
      exact ⟨p, ⟨(hiff p hp).1 hP, hp⟩, heq⟩
    · rintro ⟨p, ⟨hsh, hp⟩, heq⟩
      exact ⟨p, ⟨(hiff p hp).2 hsh, hp⟩, heq⟩

lemma exact_nil (h : ∀ p, ¬ P p) : g.Exact [] P := by
  intro i
  constructor
  · intro hi
    cases hi
  · rintro ⟨p, ⟨hP, -⟩, -⟩
    exact absurd hP (h p)

lemma Exact.append {g : GfxHandle} {s₁ s₂ : List Nat} {P₁ P₂ : Int × Int → Prop} (h₁ : g.Exact s₁ P₁)
    (h₂ : g.Exact s₂ P₂) : g.Exact (s₁ ++ s₂) fun p => P₁ p ∨ P₂ p := by
  intro i
  rw [mem_append, h₁ i, h₂ i]
  constructor
  · rintro (⟨p, ⟨hP, hp⟩, heq⟩ | ⟨p, ⟨hP, hp⟩, heq⟩)
    · exact ⟨p, ⟨.inl hP, hp⟩, heq⟩
    · exact ⟨p, ⟨.inr hP, hp⟩, heq⟩
  · rintro ⟨p, ⟨hP | hP, hp⟩, heq⟩
    · exact .inl ⟨p, ⟨hP, hp⟩, heq⟩
    · exact .inr ⟨p, ⟨hP, hp⟩, heq⟩

/-- A loop that stores to all pixels of the rectangle that is left of a request. -/
lemma exact_clipped (r : Box) {stores : Box → List Nat}
    (hsto : ∀ c, g.clipped r = some c → ∀ i, i ∈ stores c ↔ ∃ p, c.Mem p ∧ i = g.index p.1 p.2) :
    g.Exact (match g.clipped r with | none => [] | some c => stores c) (g.Painted r) := by
  have hmem := g.mem_clipped r
  cases hc : g.clipped r with
  | none =>
    rw [hc] at hmem
    refine g.exact_nil ?_
    intro p hp
    obtain ⟨b, hb, -⟩ := (hmem p).2 hp
    cases hb
  | some c =>
    have hpnt : ∀ p, c.Mem p ↔ g.Painted r p := by
      intro p
      rw [← hmem p, hc]
      simp
    intro i
    rw [hsto c hc i]
    constructor
    · rintro ⟨p, hp, rfl⟩
      have hP := (hpnt p).1 hp
      exact ⟨p, ⟨hP, hP.2.1⟩, g.index_eq hP.2.1.2⟩
    · rintro ⟨p, ⟨hP, hvis⟩, heq⟩
      refine ⟨p, (hpnt p).2 hP, ?_⟩
      rw [← g.index_eq hvis.2] at heq
      exact_mod_cast heq

/-- The span operations store nothing for an extent of zero, and such a request has no pixel. -/
lemma exact_unless_empty {empty : Prop} [Decidable empty]
    (hemp : empty → ∀ p, ¬ r.Mem p) (h : g.Exact stores (g.Painted r)) :
    g.Exact (if empty then [] else stores) (g.Painted r) := by
  split_ifs with hz
  · exact g.exact_nil fun p hp => hemp hz p hp.1
  · exact h

lemma not_mem_of_width_zero (hw : r.w = 0) (p : Int × Int) : ¬ r.Mem p := by
  rintro ⟨⟨h1, h2⟩, -⟩
  omega

lemma not_mem_of_height_zero (hh : r.h = 0) (p : Int × Int) : ¬ r.Mem p := by
  rintro ⟨-, h1, h2⟩
  omega

lemma exact_fillRect (x y : Int32) (w h : UInt32) :
    g.Exact (g.fillRect x y w h) (g.Painted ⟨x.toInt, y.toInt, w.toNat, h.toNat⟩) := by
  refine g.exact_unless_empty ?_ (g.exact_clipped _ fun c _ i => ?_)
  · rintro (rfl | rfl)
    · exact not_mem_of_width_zero rfl
    · exact not_mem_of_height_zero rfl
  simp only [mem_flatMap, mem_range, mem_map]
  constructor
  · rintro ⟨row, hrow, col, hcol, rfl⟩
    exact ⟨(c.x + col, c.y + row), ⟨⟨by dsimp only; omega, by dsimp only; omega⟩, by dsimp only; omega,
      by dsimp only; omega⟩, rfl⟩
  · rintro ⟨p, ⟨hx, hy⟩, rfl⟩
    refine ⟨(p.2 - c.y).toNat, by omega, (p.1 - c.x).toNat, by omega, ?_⟩
    congr 1 <;> omega

/-- What is left of a request is not empty. -/
lemma clipped_size (h : g.clipped r = some c) : (0 < c.w ∧ c.w ≤ r.w) ∧ 0 < c.h ∧ c.h ≤ r.h := by
  unfold clipped at h
  cases hb : intersectRect r g.clip with
  | none => simp [hb] at h
  | some b =>
    rw [hb] at h
    obtain ⟨hw, hh⟩ := intersectRect_size hb
    obtain ⟨hw', hh'⟩ := intersectRect_size h
    exact ⟨⟨hw'.1, hw'.2.trans hw.2⟩, hh'.1, hh'.2.trans hh.2⟩

/-- A horizontal line is a rectangle one pixel high. -/
lemma exact_hline (x y : Int32) (w : UInt32) :
    g.Exact (g.hline x y w) (g.Painted ⟨x.toInt, y.toInt, w.toNat, 1⟩) := by
  have hfill := g.exact_fillRect x y w 1
  rw [show ((UInt32.toNat 1 : Nat) : Int) = 1 from rfl] at hfill
  convert hfill using 1
  refine if_congr (or_iff_left (by decide)).symm rfl ?_
  change _ = match g.clipped ⟨x.toInt, y.toInt, w.toNat, 1⟩ with | none => _ | some c => _
  cases hc : g.clipped ⟨x.toInt, y.toInt, w.toNat, 1⟩ with
  | none => rfl
  | some c =>
    obtain ⟨-, hpos, hle⟩ := g.clipped_size hc
    simp [le_antisymm hle hpos]

/-- A vertical line is a rectangle one pixel wide. -/
lemma exact_vline (x y : Int32) (h : UInt32) :
    g.Exact (g.vline x y h) (g.Painted ⟨x.toInt, y.toInt, 1, h.toNat⟩) := by
  have hfill := g.exact_fillRect x y 1 h
  rw [show ((UInt32.toNat 1 : Nat) : Int) = 1 from rfl] at hfill
  convert hfill using 1
  refine if_congr (or_iff_right (by decide)).symm rfl ?_
  change _ = match g.clipped ⟨x.toInt, y.toInt, 1, h.toNat⟩ with | none => _ | some c => _
  cases hc : g.clipped ⟨x.toInt, y.toInt, 1, h.toNat⟩ with
  | none => rfl
  | some c =>
    obtain ⟨⟨hpos, hle⟩, -⟩ := g.clipped_size hc
    simp [le_antisymm hle hpos, map_eq_flatMap]

/-- A request is painted exactly if all that is to be seen of it is in reach. -/
lemma painted_iff (r : Box) : (∀ p, g.Visible p → (g.Painted r p ↔ r.Mem p)) ↔ g.AllInReach r := by
  constructor
  · intro h p hp hvis
    exact ((h p hvis).2 hp).2.2
  · intro h p hvis
    exact ⟨fun hp => hp.1, fun hp => ⟨hp, hvis, h p hp hvis⟩⟩

/-! ## The pixel -/

/-- A pixel is in the clip, as the pixel primitive checks it. -/
lemma mem_clip_iff (x y : Int32) : g.clip.Mem (x.toInt, y.toInt) ↔
      (¬ (g.clipW = 0 ∨ g.clipH = 0) ∧ ¬ (x < g.clipX ∨ y < g.clipY)) ∧
        ¬ x.toInt ≥ g.clipX.toInt + g.clipW.toNat ∧ ¬ y.toInt ≥ g.clipY.toInt + g.clipH.toNat := by
  have hx : x < g.clipX ↔ x.toInt < g.clipX.toInt := lt_iff_toInt_lt
  have hy : y < g.clipY ↔ y.toInt < g.clipY.toInt := lt_iff_toInt_lt
  have hw : g.clipW = 0 ↔ g.clipW.toNat = 0 := by rw [← UInt32.toNat_inj]; rfl
  have hh : g.clipH = 0 ↔ g.clipH.toNat = 0 := by rw [← UInt32.toNat_inj]; rfl
  rw [hx, hy, hw, hh]
  simp only [Box.Mem, clip]
  omega

/-- The comparisons of the pixel primitive with the view. -/
def PassesView (x y : Int32) : Prop :=
  (g.width ≠ 0 ∧ g.height ≠ 0) ∧ x ≤ ofInt (g.width.toNat - 1) ∧ y ≤ ofInt (g.height.toNat - 1)

lemma pixel_drawn (hc : g.clip.Mem (x.toInt, y.toInt)) (hv : g.PassesView x y) :
    g.pixel x y = [g.index x.toInt y.toInt] := by
  obtain ⟨⟨h1, h2⟩, h3, h4⟩ := (g.mem_clip_iff x y).1 hc
  obtain ⟨hs, hx, hy⟩ := hv
  unfold pixel
  rw [if_neg h1, if_neg h2, if_neg (by tauto), if_neg (Int32.not_lt.2 hx), if_neg (Int32.not_lt.2 hy), if_neg h3,
    if_neg h4]

lemma pixel_dropped (h : ¬ (g.clip.Mem (x.toInt, y.toInt) ∧ g.PassesView x y)) : g.pixel x y = [] := by
  rw [mem_clip_iff] at h
  unfold pixel
  dsimp only
  split_ifs with h1 h2 h3 h4 h5 h6 h7
  all_goals try rfl
  refine absurd ⟨⟨⟨h1, h2⟩, h6, h7⟩, by tauto, Int32.not_lt.1 h4, Int32.not_lt.1 h5⟩ h

lemma le_ofInt_iff {n : UInt32} (hn : n ≠ 0) (x : Int32) : x ≤ ofInt (n.toNat - 1) ↔ x.toInt < edge n := by
  have hpos : n.toNat ≠ 0 := fun h => hn (UInt32.toNat_inj.1 h)
  have hlt : n.toNat < 2 ^ 32 := n.toNat_lt
  rw [le_iff_toInt_le, toInt_ofInt, Int.bmod, edge, show Int32.size = 2 ^ 32 from rfl]
  split_ifs <;> omega

/-- The condition says that the comparisons of the pixel primitive with the view are right. -/
lemma pixelOk_iff (x y : Int32) : g.PixelOk x y ↔ (g.clip.Mem (x.toInt, y.toInt) → g.width ≠ 0 → g.height ≠ 0 →
    (x ≤ ofInt (g.width.toNat - 1) ∧ y ≤ ofInt (g.height.toNat - 1) ↔ g.view.Mem (x.toInt, y.toInt))) := by
  refine forall_congr' fun hc => forall_congr' fun hw => forall_congr' fun hh => ?_
  rw [le_ofInt_iff hw, le_ofInt_iff hh]
  have hx := x.toInt_lt
  have hy := y.toInt_lt
  have hwlt : g.width.toNat < 2 ^ 32 := g.width.toNat_lt
  have hhlt : g.height.toNat < 2 ^ 32 := g.height.toNat_lt
  simp only [Box.Mem, view, edge]
  split_ifs <;> omega

/-- The pixel primitive is exact if its comparisons with the view are right. -/
lemma exact_pixel_iff (x y : Int32) : g.Exact (g.pixel x y) (· = (x.toInt, y.toInt)) ↔ g.PixelOk x y := by
  rw [pixelOk_iff]
  by_cases hdrawn : g.clip.Mem (x.toInt, y.toInt) ∧ g.PassesView x y
  · obtain ⟨hc, hv⟩ := hdrawn
    rw [g.pixel_drawn hc hv]
    obtain ⟨hs, hp⟩ := hv
    constructor
    · intro h _ _ _
      obtain ⟨p, ⟨rfl, hvis⟩, -⟩ := (h (g.index x.toInt y.toInt)).1 (mem_singleton_self _)
      exact iff_of_true hp hvis.2
    intro h
    have hmem := (h hc hs.1 hs.2).1 hp
    intro i
    have hpl := g.index_eq hmem
    constructor
    · intro hi
      rw [mem_singleton] at hi
      subst hi
      exact ⟨_, ⟨rfl, hc, hmem⟩, hpl⟩
    · rintro ⟨p, ⟨rfl, -⟩, hi⟩
      rw [mem_singleton]
      exact_mod_cast hi.trans hpl.symm
  · rw [g.pixel_dropped hdrawn]
    have hnil : g.Exact [] fun _ => False := g.exact_nil fun _ h => h
    rw [g.exact_iff hnil]
    constructor
    · intro h hc hw hh
      refine iff_of_false (fun hp => hdrawn ⟨hc, ⟨hw, hh⟩, hp⟩) fun hmem => ?_
      exact (h _ ⟨hc, hmem⟩).2 rfl
    rintro h p hvis
    refine ⟨False.elim, ?_⟩
    rintro rfl
    have hs : g.width ≠ 0 ∧ g.height ≠ 0 := by
      obtain ⟨⟨hx0, hx⟩, hy0, hy⟩ := hvis.2
      constructor
      · intro hw
        simp [view, hw] at hx0 hx
        omega
      · intro hh
        simp [view, hh] at hy0 hy
        omega
    exact hdrawn ⟨hvis.1, hs, (h hvis.1 hs.1 hs.2).2 hvis.2⟩

/-! ## The outline -/

lemma exact_ite {c : Prop} [Decidable c] (h : c → g.Exact stores P) :
    g.Exact (if c then stores else []) fun p => c ∧ P p := by
  by_cases hc : c
  · simpa [hc] using h hc
  · rw [if_neg hc]
    exact g.exact_nil fun p hp => hc hp.1

/-- The outline paints the places of its edges. -/
lemma exact_rect (x y : Int32) (w h : UInt32) :
    g.Exact (g.rect x y w h) fun p => ∃ e ∈ outlineEdges x y w h, g.Painted e.2 p := by
  unfold rect outlineEdges
  by_cases hz : w = 0 ∨ h = 0
  · rw [if_pos hz, if_pos hz]
    exact g.exact_nil (by simp)
  rw [if_neg hz, if_neg hz]
  have hsides (hh : h > 2) : ((h - 2).toNat : Int) = h.toNat - 2 := by
    rw [UInt32.toNat_sub_of_le _ _ (UInt32.le_of_lt hh)]
    have := UInt32.lt_iff_toNat_lt.1 hh
    exact_mod_cast ofNat_sub (Nat.le_of_lt this)
  have htop := g.exact_hline x y w
  have hbot := g.exact_ite (c := h > 1) fun _ => g.exact_hline x (y + (h - 1).toInt32) w
  have hl := fun hh : h > 2 => hsides hh ▸ g.exact_vline x (y + 1) (h - 2)
  have hrt := fun hh : h > 2 =>
    hsides hh ▸ g.exact_ite (c := w > 1) fun _ => g.exact_vline (x + (w - 1).toInt32) (y + 1) (h - 2)
  have hall := (htop.append hbot).append (g.exact_ite fun hh => (hl hh).append (hrt hh))
  convert hall using 2 with p
  by_cases h1 : h > 1 <;> by_cases h2 : h > 2 <;> by_cases h3 : w > 1 <;> simp [h1, h2, or_assoc]

/-- The outline is exact if each of its edges is: no place of an edge that went around is on the outline. -/
lemma edges_iff {edges : List (Box × Box)} (hsh : ∀ p, shape p ↔ ∃ e ∈ edges, e.1.Mem p)
    (hdj : ∀ p, ∀ e ∈ edges, ∀ f ∈ edges, e.1.Mem p → f.1.Mem p → e = f)
    (haround : ∀ p, ∀ e ∈ edges, e.2 ≠ e.1 → e.2.Mem p → ¬ shape p) :
    (∀ p, g.Visible p → ((∃ e ∈ edges, g.Painted e.2 p) ↔ shape p)) ↔ ∀ e ∈ edges, g.EdgeOk e.1 e.2 := by
  -- A pixel of the outline that is painted is painted by its own edge, in its own place.
  have hown {p e f} (he : e ∈ edges) (hf : f ∈ edges) (hep : e.1.Mem p) (hfp : g.Painted f.2 p) :
      f = e ∧ e.2 = e.1 := by
    have hp : shape p := (hsh p).2 ⟨e, he, hep⟩
    have hpl : f.2 = f.1 := by
      by_contra hne
      exact haround p f hf hne hfp.1 hp
    have hfe : f = e := hdj p f hf e he (hpl ▸ hfp.1) hep
    exact ⟨hfe, hfe ▸ hpl⟩
  constructor
  · intro h e he
    have hpnt {p} (hp : e.1.Mem p) (hvis : g.Visible p) : e.2 = e.1 ∧ g.Painted e.2 p := by
      obtain ⟨f, hf, hfp⟩ := (h p hvis).2 ((hsh p).2 ⟨e, he, hp⟩)
      obtain ⟨rfl, hpl⟩ := hown he hf hp hfp
      exact ⟨hpl, hfp⟩
    unfold EdgeOk
    split_ifs with hpl
    · intro p hp hvis
      exact hpl ▸ (hpnt hp hvis).2.2.2
    · refine ⟨fun p hp hvis => hpl (hpnt hp hvis).1, fun p hp hvis hrch => ?_⟩
      exact haround p e he hpl hp ((h p hvis).1 ⟨e, he, hp, hvis, hrch⟩)
  · intro h p hvis
    rw [hsh p]
    constructor
    · rintro ⟨e, he, hp, -, hrch⟩
      have hok := h e he
      unfold EdgeOk at hok
      split_ifs at hok with hpl
      · exact ⟨e, he, hpl ▸ hp⟩
      · exact absurd hrch (hok.2 p hp hvis)
    rintro ⟨e, he, hp⟩
    have hok := h e he
    unfold EdgeOk at hok
    split_ifs at hok with hpl
    · exact ⟨e, he, hpl.symm ▸ ⟨hp, hvis, hok p hp hvis⟩⟩
    · exact absurd hvis (hok.1 p hp)

end GfxHandle

/-- Addition in 32 bits goes around at most once. -/
lemma toInt_add_toInt32 (a : Int32) (n : UInt32) :
    (a + n.toInt32).toInt = a.toInt + n.toNat ∨ (a + n.toInt32).toInt = a.toInt + n.toNat - 4294967296 := by
  have hn : n.toInt32.toInt = (n.toNat : Int).bmod (2 ^ 32) := BitVec.toInt_eq_toNat_bmod _
  have hlt : (n.toNat : Int) < 4294967296 := by exact_mod_cast n.toNat_lt
  have hge := a.le_toInt
  have hle := a.toInt_lt
  rw [toInt_add, hn, add_bmod_bmod]
  simp only [bmod]
  omega

variable {h w : UInt32} {x y : Int32}

/-- The edges with their places, in exact arithmetic. -/
lemma mem_outlineEdges {e : Box × Box} : e ∈ outlineEdges x y w h ↔ (0 < w.toNat ∧ 0 < h.toNat) ∧
        (e = (⟨x.toInt, y.toInt, w.toNat, 1⟩, ⟨x.toInt, y.toInt, w.toNat, 1⟩) ∨
          (1 < h.toNat ∧ e = (⟨x.toInt, y.toInt + h.toNat - 1, w.toNat, 1⟩,
            ⟨x.toInt, (y + (h - 1).toInt32).toInt, w.toNat, 1⟩)) ∨
          (2 < h.toNat ∧ e = (⟨x.toInt, y.toInt + 1, 1, h.toNat - 2⟩, ⟨x.toInt, (y + 1).toInt, 1, h.toNat - 2⟩)) ∨
          (2 < h.toNat ∧ 1 < w.toNat) ∧ e = (⟨x.toInt + w.toNat - 1, y.toInt + 1, 1, h.toNat - 2⟩,
            ⟨(x + (w - 1).toInt32).toInt, (y + 1).toInt, 1, h.toNat - 2⟩)) := by
  have hz (n : UInt32) : 0 < n.toNat ↔ n ≠ 0 := by
    rw [Nat.pos_iff_ne_zero, not_iff_not, ← UInt32.toNat_inj]
    rfl
  have hone (n : UInt32) : 1 < n.toNat ↔ n > 1 := (@UInt32.lt_iff_toNat_lt 1 n).symm
  have htwo (n : UInt32) : 2 < n.toNat ↔ n > 2 := (@UInt32.lt_iff_toNat_lt 2 n).symm
  rw [hz, hz, hone, hone, htwo]
  unfold outlineEdges
  by_cases hemp : w = 0 ∨ h = 0
  · rw [if_pos hemp]
    exact ⟨fun he => absurd he not_mem_nil, fun he => absurd hemp (not_or.2 he.1)⟩
  · rw [if_neg hemp, and_iff_right (not_or.1 hemp)]
    simp [and_or_left, and_assoc]

/-- The edges make up the outline. -/
lemma outline_iff (x y : Int32) (w h : UInt32) (p : Int × Int) :
    Box.Outline ⟨x.toInt, y.toInt, w.toNat, h.toNat⟩ p ↔ ∃ e ∈ outlineEdges x y w h, e.1.Mem p := by
  simp only [mem_outlineEdges, Box.Outline, Box.Mem]
  constructor
  · rintro ⟨hbox, hs⟩
    have hpos : 0 < w.toNat ∧ 0 < h.toNat := by omega
    by_cases htop : p.2 = y.toInt
    · refine ⟨_, ⟨hpos, .inl rfl⟩, ?_⟩
      dsimp only
      omega
    by_cases hbot : p.2 = y.toInt + h.toNat - 1
    · refine ⟨_, ⟨hpos, .inr (.inl ⟨by omega, rfl⟩)⟩, ?_⟩
      dsimp only
      omega
    by_cases hl : p.1 = x.toInt
    · refine ⟨_, ⟨hpos, .inr (.inr (.inl ⟨by omega, rfl⟩))⟩, ?_⟩
      dsimp only
      omega
    · refine ⟨_, ⟨hpos, .inr (.inr (.inr ⟨by omega, rfl⟩))⟩, ?_⟩
      dsimp only
      omega
  · rintro ⟨e, ⟨hpos, rfl | ⟨hh, rfl⟩ | ⟨hh, rfl⟩ | ⟨hh, rfl⟩⟩, hp⟩ <;> dsimp only at hp <;> omega

/-- Two edges do not overlap. -/
lemma edges_disjoint (p : Int × Int) :
    ∀ e ∈ outlineEdges x y w h, ∀ f ∈ outlineEdges x y w h, e.1.Mem p → f.1.Mem p → e = f := by
  intro e he f hf hep hfp
  rw [mem_outlineEdges] at he hf
  obtain ⟨hpos, he⟩ := he
  obtain ⟨-, hf⟩ := hf
  unfold Box.Mem at hep hfp
  rcases he with rfl | ⟨hh, rfl⟩ | ⟨hh, rfl⟩ | ⟨hh, rfl⟩ <;>
    rcases hf with rfl | ⟨hh', rfl⟩ | ⟨hh', rfl⟩ | ⟨hh', rfl⟩ <;>
    first
    | rfl
    | exfalso
      dsimp only at hep hfp
      omega

/-- An edge that went around does not come back to the rectangle. -/
lemma edges_around (p : Int × Int) :
    ∀ e ∈ outlineEdges x y w h, e.2 ≠ e.1 → e.2.Mem p → ¬ Box.Outline ⟨x.toInt, y.toInt, w.toNat, h.toNat⟩ p := by
  rintro e he hne hmem ⟨hbox, -⟩
  have hw : w.toNat < 4294967296 := w.toNat_lt
  have hh : h.toNat < 4294967296 := h.toNat_lt
  have hd := toInt_add_toInt32 y 1
  have hone : (1 : UInt32).toInt32 = 1 := rfl
  have hone' : (1 : UInt32).toNat = 1 := rfl
  rw [hone] at hd
  have hsub {n : UInt32} (hn : 1 < n.toNat) : (n - 1).toNat = n.toNat - 1 :=
    UInt32.toNat_sub_of_le _ _ (UInt32.le_iff_toNat_le.2 (by omega))
  rw [mem_outlineEdges] at he
  unfold Box.Mem at hmem hbox
  obtain ⟨hpos, rfl | ⟨hlt, rfl⟩ | ⟨hlt, rfl⟩ | ⟨hlt, rfl⟩⟩ := he
  · exact hne rfl
  · have hbot := toInt_add_toInt32 y (h - 1)
    rw [hsub hlt] at hbot
    simp only [ne_eq, Box.mk.injEq, true_and, and_true] at hne hmem hbox
    omega
  · simp only [ne_eq, Box.mk.injEq, true_and, and_true] at hne hmem hbox
    omega
  · have hrt := toInt_add_toInt32 x (w - 1)
    rw [hsub hlt.2] at hrt
    simp only [ne_eq, Box.mk.injEq, and_true] at hne hmem hbox
    omega

/-! ## The result -/

/-- The drawing primitives store to the visible pixels of their shapes and nowhere else exactly if: a pixel
in a view is in one of its first 2³¹ columns and rows, and one to the left or above is beyond another edge; all that is to be seen of a line or a filled rectangle is in reach; the
edges of an outline are, and those that go around are out of sight. -/
theorem drawing_exact_iff (g : GfxHandle) (x y : Int32) (w h : UInt32) :
    (g.Exact (g.pixel x y) (· = (x.toInt, y.toInt)) ↔ g.PixelOk x y) ∧
      (g.Exact (g.hline x y w) (Box.Mem ⟨x.toInt, y.toInt, w.toNat, 1⟩) ↔
        g.AllInReach ⟨x.toInt, y.toInt, w.toNat, 1⟩) ∧
      (g.Exact (g.vline x y h) (Box.Mem ⟨x.toInt, y.toInt, 1, h.toNat⟩) ↔
        g.AllInReach ⟨x.toInt, y.toInt, 1, h.toNat⟩) ∧
      (g.Exact (g.rect x y w h) (Box.Outline ⟨x.toInt, y.toInt, w.toNat, h.toNat⟩) ↔
        ∀ e ∈ outlineEdges x y w h, g.EdgeOk e.1 e.2) ∧
      (g.Exact (g.fillRect x y w h) (Box.Mem ⟨x.toInt, y.toInt, w.toNat, h.toNat⟩) ↔
        g.AllInReach ⟨x.toInt, y.toInt, w.toNat, h.toNat⟩) := by
  refine ⟨g.exact_pixel_iff x y, ?_, ?_, ?_, ?_⟩
  · rw [g.exact_iff (g.exact_hline x y w), g.painted_iff]
  · rw [g.exact_iff (g.exact_vline x y h), g.painted_iff]
  · rw [g.exact_iff (g.exact_rect x y w h)]
    exact g.edges_iff (outline_iff x y w h) edges_disjoint edges_around
  · rw [g.exact_iff (g.exact_fillRect x y w h), g.painted_iff]

/-- A clip that reaches beyond the left edge of the view: the pixel (-1, 1) is stored to the end of the row above. -/
theorem pixel_beside_view : ¬ (gfxSetClip ⟨64, 48, 0, 0, 64, 48⟩ (-10) (-10) 100 100).Exact
      ((gfxSetClip ⟨64, 48, 0, 0, 64, 48⟩ (-10) (-10) 100 100).pixel (-1) 1) (· = (-1, 1)) := by
  intro h
  obtain ⟨p, ⟨rfl, -, hv, -⟩, -⟩ := (h 63).1 (by decide)
  exact absurd hv.1 (by decide)

end OS01.Libgfx
