import FieldPlot.Sampling.Grid

/-!
Samples of a field on a lattice in space, or on a finer grid of the floor for a planar field. Samples
that are not finite are left out.
-/

namespace FieldPlot.Sampling

open Vectors (SurfaceMode Vec)

/-- A point of a lattice with the value sampled there. -/
structure Reading (α : Type) where
  position : Point α
  value : α
deriving Repr

/-- An arrow of a field: a unit vector with the length it stands for. -/
structure Arrow (α : Type) where
  start : Point α
  direction : Vec α
  magnitude : α
  surfaceValue : α
deriving Repr

variable {α : Type} [Scalar α]

/-- The points of `cells` cells in each direction of space, z running fastest. -/
def spaceSites (extent : Extent α) (cells : Int) : Except Fault (List (Point α)) := do
  let xs ← vertices extent.x cells
  let ys ← vertices extent.y cells
  let zs ← vertices extent.z cells
  return xs.flatMap fun x => ys.flatMap fun y => zs.map fun z => ⟨x, y, z⟩

/-- The points of `2 * cells` cells in each direction of the floor. -/
def floorSites (extent : Extent α) (cells : Int) : Except Fault (List (Point α)) := do
  let xs ← vertices extent.x (cells * 2)
  let ys ← vertices extent.y (cells * 2)
  return xs.flatMap fun x => ys.map fun y => ⟨x, y, 0.0⟩

def fieldSites (spatial : Bool) (extent : Extent α) (cells : Int) : Except Fault (List (Point α)) :=
  if spatial then spaceSites extent cells else floorSites extent cells

/-- What `f` yields at the sites, in order and without gaps. -/
def collect {β : Type} (f : Point α → Except Fault (Option β)) (sites : List (Point α)) :
    Except Fault (List β) := do
  return (← sites.mapM f).filterMap id

def scalarField (f : Point α → Except Fault (Option α)) (extent : Extent α) (cells : Int) :
    Except Fault (List (Reading α)) := do
  collect (fun p => return (← f p).map (Reading.mk p)) (← spaceSites extent cells)

def fieldMagnitudes (f : Point α → Except Fault (Vec (Option α))) (spatial : Bool)
    (extent : Extent α) (cells : Int) : Except Fault (List (Reading α)) := do
  collect (fun p => return (← f p).magnitude?.map (Reading.mk p)) (← fieldSites spatial extent cells)

/-- The arrow of a sampled vector; none if it has no direction. -/
def arrowAt? (mode : SurfaceMode) (p : Point α) (v : Vec (Option α)) :
    Except Fault (Option (Arrow α)) :=
  match v.restrict? mode with
  | some (w, magnitude, surfaceValue) =>
    if magnitude < Vec.threshold then .ok none
    else do return some ⟨p, w.scale (← Scalar.divide 1.0 magnitude), magnitude, surfaceValue⟩
  | none => .ok none

def arrows (f : Point α → Except Fault (Vec (Option α))) (spatial : Bool) (mode : SurfaceMode)
    (extent : Extent α) (cells : Int) : Except Fault (List (Arrow α)) := do
  collect (fun p => do arrowAt? mode p (← f p)) (← fieldSites spatial extent cells)

/-- The smallest and the largest value. -/
def readingRange (readings : List (Reading α)) : Option (α × α) :=
  let values := readings.map (·.value)
  match Scalar.smallest? values, Scalar.largest? values with
  | some lo, some hi => some (lo, hi)
  | _, _ => none

/-- A value range for `f` over the floor: 1.2 times the largest absolute value on a coarse grid, if
that is not zero. -/
def autoRange (f : Point α → Except Fault (Option α)) (extentX extentY : α) (cells : Int) :
    Except Fault (Option α) := do
  let xs ← vertices extentX cells
  let ys ← vertices extentY cells
  let values ← collect f (xs.flatMap fun x => ys.map fun y => ⟨x, y, 0.0⟩)
  let peak := (values.map Scalar.abs).foldl Scalar.larger 0.0
  return if peak ≤ 0.0 then none else some (peak * 1.2)

end FieldPlot.Sampling
