import FieldPlot.Proofs.Outcome
import FieldPlot.Proofs.Settings.Lookup
import FieldPlot.View.Plane
import FieldPlot.View.Space

/-! The parameters of both views as settings: which of them a view writes back, and what it reads for
each of them. -/

namespace FieldPlot.View

open Settings (Table Value)

variable {α : Type}

namespace SpaceView

inductive Parameter
  | rotationX | rotationZ | rangeX | rangeY | rangeZ | panX | panY
  | focalLength | minRange | maxRange | rotateSpeed

namespace Parameter

def key : Parameter → String
  | rotationX => "rotationX"
  | rotationZ => "rotationZ"
  | rangeX => "rangeX"
  | rangeY => "rangeY"
  | rangeZ => "rangeZ"
  | panX => "panX"
  | panY => "panY"
  | focalLength => "focalLength"
  | minRange => "minRange"
  | maxRange => "maxRange"
  | rotateSpeed => "rotateSpeed"

def get (v : SpaceView α) : Parameter → α
  | rotationX => v.rotationX
  | rotationZ => v.rotationZ
  | rangeX => v.rangeX
  | rangeY => v.rangeY
  | rangeZ => v.rangeZ
  | panX => v.panX
  | panY => v.panY
  | focalLength => v.focalLength
  | minRange => v.minRange
  | maxRange => v.maxRange
  | rotateSpeed => v.rotateSpeed

/-- Whether gestures move the parameter. The other ones change with the settings and on a reset. -/
def IsMoved : Parameter → Prop
  | focalLength | minRange | maxRange | rotateSpeed => False
  | _ => True

end Parameter

theorem toTable_unique (v : SpaceView α) : Table.Unique v.toTable := by
  simp [Table.Unique, toTable]

theorem mem_toTable (v : SpaceView α) {p : Parameter} (hp : p.IsMoved) :
    (p.key, .real (p.get v)) ∈ v.toTable := by
  cases p <;> first | exact hp.elim | simp [Parameter.key, Parameter.get, toTable]

theorem key_notMem_toTable (v : SpaceView α) {p : Parameter} (hp : ¬p.IsMoved) :
    p.key ∉ v.toTable.map Prod.fst := by
  cases p <;> first | exact (hp trivial).elim | simp [Parameter.key, toTable]

theorem rangeZ_unmoved (range : α) (v : SpaceView α) {p : Parameter} (hp : ¬p.IsMoved) :
    p.get { v with rangeZ := range } = p.get v := by
  cases p <;> first | rfl | exact (hp trivial).elim

variable [Scalar α]

theorem number_of_ofTable {t : Table α} {v : SpaceView α} (h : ofTable t = .ok v) (p : Parameter) :
    number t p.key = .ok (p.get v) := by
  simp only [ofTable, bind_eq_ok, pure_eq_ok] at h
  obtain ⟨_, h₁, _, h₂, _, h₃, _, h₄, _, h₅, _, h₆, _, h₇, _, h₈, _, h₉, _, h₁₀, _, h₁₁, rfl⟩ := h
  cases p <;> assumption

theorem number_defaults (p : Parameter) :
    number (Settings.spaceDefaults : Table α) p.key = .ok (p.get initial) := by
  cases p <;> rfl

/-! ### Gestures -/

theorem rotate_unmoved (dx dy : α) (v : SpaceView α) {p : Parameter} (hp : ¬p.IsMoved) :
    p.get (v.rotate dx dy) = p.get v := by
  cases p <;> first | rfl | exact (hp trivial).elim

theorem panBy_unmoved (dx dy : α) (v : SpaceView α) {p : Parameter} (hp : ¬p.IsMoved) :
    p.get (v.panBy dx dy) = p.get v := by
  cases p <;> first | rfl | exact (hp trivial).elim

theorem zoomFloor_unmoved (factor : α) (axis : ZoomAxis) (v : SpaceView α) {p : Parameter}
    (hp : ¬p.IsMoved) : p.get (v.zoomFloor factor axis) = p.get v := by
  cases axis <;> cases p <;> first | rfl | exact (hp trivial).elim

theorem zoom_unmoved (factor : α) (axis : Except Fault ZoomAxis)
    (autoZ : α → α → Except Fault (Option α)) (v : SpaceView α) {p : Parameter} (hp : ¬p.IsMoved) :
    p.get (v.zoom factor axis autoZ).state = p.get v := by
  unfold zoom
  split
  · split
    · rfl
    · exact rangeZ_unmoved _ v hp
    · next axis _ =>
      have hfloor := zoomFloor_unmoved factor axis v hp
      dsimp only
      split
      · exact hfloor
      · exact (rangeZ_unmoved _ _ hp).trans hfloor
      · simp only [Step.done]
        split
        · exact (rangeZ_unmoved _ _ hp).trans hfloor
        · exact hfloor
  · rfl

end SpaceView

namespace PlaneView

inductive Bound
  | xMin | xMax | yMin | yMax

namespace Bound

def key : Bound → String
  | xMin => "xMin"
  | xMax => "xMax"
  | yMin => "yMin"
  | yMax => "yMax"

def get (v : PlaneView α) : Bound → α
  | xMin => v.xMin
  | xMax => v.xMax
  | yMin => v.yMin
  | yMax => v.yMax

end Bound

theorem toTable_unique (v : PlaneView α) : Table.Unique (toTable v) := by
  simp [Table.Unique, toTable]

theorem mem_toTable (v : PlaneView α) (b : Bound) : (b.key, .real (b.get v)) ∈ toTable v := by
  cases b <;> simp [Bound.key, Bound.get, toTable]

theorem number_of_ofTable [Scalar α] {t : Table α} {v : PlaneView α}
    (h : ofTable t = .ok v) (b : Bound) :
    number t b.key = .ok (b.get v) := by
  simp only [ofTable, bind_eq_ok, pure_eq_ok] at h
  obtain ⟨_, h₁, _, h₂, _, h₃, _, h₄, rfl⟩ := h
  cases b <;> assumption

end PlaneView

end FieldPlot.View
