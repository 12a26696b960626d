import FieldPlot.Scalar.Basic

/-!
Vectors of a field and the scalar that is shown of them on a surface, as a heatmap or by colour.
-/

namespace FieldPlot.Vectors

/-- The scalar that is derived from a vector field. -/
inductive SurfaceMode
  | none | x | y | z | magnitude
deriving DecidableEq, Repr

namespace SurfaceMode

def name : SurfaceMode → String
  | none => "none"
  | x => "x"
  | y => "y"
  | z => "z"
  | magnitude => "magnitude"

def all : List SurfaceMode :=
  [none, x, y, z, magnitude]

def ofName? (s : String) : Option SurfaceMode :=
  all.find? (·.name = s)

theorem ofName?_name (m : SurfaceMode) : ofName? m.name = some m := by
  cases m <;> rfl

end SurfaceMode

structure Vec (α : Type) where
  x : α
  y : α
  z : α
deriving DecidableEq, Repr

namespace Vec

variable {α : Type} [Scalar α]

def map {β : Type} (f : α → β) (v : Vec α) : Vec β :=
  ⟨f v.x, f v.y, f v.z⟩

def scale (v : Vec α) (k : α) : Vec α :=
  ⟨v.x * k, v.y * k, v.z * k⟩

def magnitude (v : Vec α) : α :=
  Scalar.sqrt (v.x * v.x + v.y * v.y + v.z * v.z)

/-- Below this a vector has no direction. -/
def threshold : α := 1e-10

/-- The vector of length 1 in the same direction; zero for a vector without direction. -/
def unit (v : Vec α) : Vec α :=
  let m := v.magnitude
  if threshold ≤ m then ⟨v.x / m, v.y / m, v.z / m⟩ else ⟨0.0, 0.0, 0.0⟩

/-- The scalar that `mode` shows of the vector. -/
def component (mode : SurfaceMode) (v : Vec α) : α :=
  match mode with
  | .none => 0.0
  | .x => v.x
  | .y => v.y
  | .z => v.z
  | .magnitude => v.magnitude

/-- The magnitude of a sampled vector, whose components may be missing. -/
def magnitude? (v : Vec (Option α)) : Option α := do
  Scalar.finite? (magnitude ⟨← v.x, ← v.y, ← v.z⟩)

/-- The scalar that `mode` shows of a sampled vector. -/
def component? (mode : SurfaceMode) (v : Vec (Option α)) : Option α :=
  match mode with
  | .none => some 0.0
  | .x => v.x
  | .y => v.y
  | .z => v.z
  | .magnitude => magnitude? v

/-- A sampled vector restricted to `mode`, its magnitude and the scalar it is coloured by. -/
def restrict? (mode : SurfaceMode) (v : Vec (Option α)) : Option (Vec α × α × α) :=
  match mode with
  | .x => v.x.map fun a => (⟨a, 0.0, 0.0⟩, Scalar.abs a, a)
  | .y => v.y.map fun a => (⟨0.0, a, 0.0⟩, Scalar.abs a, a)
  | .z => v.z.map fun a => (⟨0.0, 0.0, a⟩, Scalar.abs a, a)
  | .none | .magnitude => do
    let m ← magnitude? v
    return (⟨← v.x, ← v.y, ← v.z⟩, m, m)

end Vec

end FieldPlot.Vectors
