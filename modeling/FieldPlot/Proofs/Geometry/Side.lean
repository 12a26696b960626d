import FieldPlot.Proofs.Scalar.Exact
import FieldPlot.Geometry.Clip

/-! Segments and the sides of a rectangle over exact numbers. The gap of a side is positive just beyond
it and affine along a segment, with a single zero where the segment passes the side. -/

namespace FieldPlot

variable {α : Type} [ExactScalar α]

namespace Pixel

/-- The point at `t` on the line through `a`, where `t` is 0, and `b`, where it is 1. -/
def along (a b : Pixel α) (t : α) : Pixel α :=
  ⟨a.x + (b.x - a.x) * t, a.y + (b.y - a.y) * t⟩

def segment (a b : Pixel α) : Set (Pixel α) :=
  {p | ∃ t, 0 ≤ t ∧ t ≤ 1 ∧ p = along a b t}

theorem along_zero (a b : Pixel α) : along a b 0 = a := by
  simp [along]

theorem along_one (a b : Pixel α) : along a b 1 = b := by
  simp [along]

theorem along_along (a b : Pixel α) (s t u : α) :
    along (along a b s) (along a b t) u = along a b (s + (t - s) * u) := by
  simp only [along, Pixel.mk.injEq]
  constructor <;> ring

end Pixel

open Pixel

inductive Side
  | top | bottom | left | right

namespace Side

def isRow : Side → Bool
  | top | bottom => true
  | left | right => false

end Side

namespace Rect

variable {rect : Rect α} {a b c d p : Pixel α}

/-- How far a point lies beyond a side. -/
def gap (rect : Rect α) : Side → Pixel α → α
  | .top, p => rect.top - p.y
  | .bottom, p => p.y - rect.bottom
  | .left, p => rect.left - p.x
  | .right, p => p.x - rect.right

def WithinRows (rect : Rect α) (p : Pixel α) : Prop :=
  rect.gap .top p ≤ 0 ∧ rect.gap .bottom p ≤ 0

def WithinColumns (rect : Rect α) (p : Pixel α) : Prop :=
  rect.gap .left p ≤ 0 ∧ rect.gap .right p ≤ 0

def Covers (rect : Rect α) (p : Pixel α) : Prop :=
  rect.WithinRows p ∧ rect.WithinColumns p

def points (rect : Rect α) : Set (Pixel α) :=
  {p | rect.Covers p}

theorem covers_iff : rect.Covers p ↔ ∀ side, rect.gap side p ≤ 0 := by
  constructor
  · rintro ⟨⟨htop, hbottom⟩, hleft, hright⟩ side
    cases side <;> assumption
  · exact fun h => ⟨⟨h .top, h .bottom⟩, h .left, h .right⟩

theorem covers_iff_coordinates : rect.Covers p ↔
    (rect.left ≤ p.x ∧ p.x ≤ rect.right) ∧ rect.top ≤ p.y ∧ p.y ≤ rect.bottom := by
  simp only [Covers, WithinRows, WithinColumns, gap, sub_nonpos]
  exact and_comm

theorem common_side_or (rect : Rect α) (a b : Pixel α) :
    (∃ side, 0 < rect.gap side a ∧ 0 < rect.gap side b) ∨
      ∀ side, 0 < rect.gap side a → rect.gap side b ≤ 0 := by
  by_cases h : ∃ side, 0 < rect.gap side a ∧ 0 < rect.gap side b
  · exact .inl h
  · exact .inr fun side hgap => not_lt.mp fun hgap' => h ⟨side, hgap, hgap'⟩

theorem isRow_eq_false {side : Side} (hrows : rect.WithinRows p) (hgap : 0 < rect.gap side p) :
    side.isRow = false := by
  cases side with
  | top => exact absurd hrows.1 (not_le.mpr hgap)
  | bottom => exact absurd hrows.2 (not_le.mpr hgap)
  | left | right => rfl

theorem exists_of_not_withinRows (h : ¬rect.WithinRows p) :
    ∃ side, Side.isRow side = true ∧ 0 < rect.gap side p := by
  by_cases htop : rect.gap .top p ≤ 0
  · exact ⟨.bottom, rfl, not_le.mp fun hbottom => h ⟨htop, hbottom⟩⟩
  · exact ⟨.top, rfl, not_le.mp htop⟩

theorem gap_le_of_isRow {side : Side} (hrows : rect.WithinRows p) (h : side.isRow = true) :
    rect.gap side p ≤ 0 := by
  cases side with
  | top => exact hrows.1
  | bottom => exact hrows.2
  | left | right => cases h

theorem gap_along (side : Side) (a b : Pixel α) (t : α) :
    rect.gap side (along a b t) = rect.gap side a - (rect.gap side a - rect.gap side b) * t := by
  cases side <;> simp only [gap, along] <;> ring

theorem gap_along_nonpos {side : Side} {t : α} (ha : rect.gap side a ≤ 0)
    (hb : rect.gap side b ≤ 0) (ht : 0 ≤ t) (ht' : t ≤ 1) : rect.gap side (along a b t) ≤ 0 := by
  rw [gap_along]
  have hleft : rect.gap side a * (1 - t) ≤ 0 :=
    mul_nonpos_of_nonpos_of_nonneg ha (by linarith)
  have hright : rect.gap side b * t ≤ 0 := mul_nonpos_of_nonpos_of_nonneg hb ht
  linarith

/-- Where the line through two points meets a side. -/
def root (rect : Rect α) (side : Side) (a b : Pixel α) : α :=
  rect.gap side a / (rect.gap side a - rect.gap side b)

theorem gap_along_pos {side : Side} {t : α} (ha : 0 < rect.gap side a) (hb : 0 < rect.gap side b)
    (ht : 0 ≤ t) (ht' : t ≤ 1) : 0 < rect.gap side (along a b t) := by
  rw [gap_along]
  rcases ht'.eq_or_lt with rfl | hlt
  · linarith
  · have hleft : 0 < rect.gap side a * (1 - t) := mul_pos ha (by linarith)
    have hright : 0 ≤ rect.gap side b * t := mul_nonneg hb.le ht
    linarith

theorem gap_root {side : Side} (h : rect.gap side a ≠ rect.gap side b) :
    rect.gap side (along a b (rect.root side a b)) = 0 := by
  rw [gap_along, root, mul_div_cancel₀ _ (sub_ne_zero.mpr h), sub_self]

/-- The points on the first part of the line are beyond a side that only its first end is beyond. -/
theorem gap_pos_of_lt_root {side : Side} {u : α} (ha : 0 < rect.gap side a)
    (hb : rect.gap side b ≤ 0) (hu : u < rect.root side a b) :
    0 < rect.gap side (along a b u) := by
  have hd : 0 < rect.gap side a - rect.gap side b := by linarith
  rw [root, lt_div_iff₀ hd] at hu
  rw [gap_along]
  linarith

theorem gap_pos_of_root_lt {side : Side} {u : α} (ha : rect.gap side a ≤ 0)
    (hb : 0 < rect.gap side b) (hu : rect.root side a b < u) :
    0 < rect.gap side (along a b u) := by
  have hd : rect.gap side a - rect.gap side b < 0 := by linarith
  rw [root, div_lt_iff_of_neg hd] at hu
  rw [gap_along]
  linarith

theorem root_mem_of_first {side : Side} (ha : 0 < rect.gap side a) (hb : rect.gap side b ≤ 0) :
    0 ≤ rect.root side a b ∧ rect.root side a b ≤ 1 := by
  have hd : 0 < rect.gap side a - rect.gap side b := by linarith
  rw [root, div_le_one hd]
  exact ⟨div_nonneg ha.le hd.le, by linarith⟩

theorem root_mem_of_second {side : Side} (ha : rect.gap side a ≤ 0) (hb : 0 < rect.gap side b) :
    0 ≤ rect.root side a b ∧ rect.root side a b ≤ 1 := by
  have hd : rect.gap side a - rect.gap side b < 0 := by linarith
  rw [root, div_le_one_of_neg hd]
  exact ⟨div_nonneg_of_nonpos ha hd.le, by linarith⟩

end Rect

end FieldPlot
