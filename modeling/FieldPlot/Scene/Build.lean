import FieldPlot.Scene.Plane
import FieldPlot.Scene.Space

/-!
The display list of a request in a view. The appearance and the sampling settings are taken as they
were handed over, missing keys keep their defaults.
-/

namespace FieldPlot.Scene

open Settings (Value)
open View (SpaceView PlaneView)

inductive AnyView (α : Type)
  | space (v : SpaceView α)
  | plane (v : PlaneView α)

variable {α : Type} [Scalar α]

/-- The items of a plot, in paint order. -/
def build (request : Request) (samples : Request.Samples α) (view : AnyView α) (width height : α)
    (appearance sampling : Value α) : Except Fault (List (Item α)) := do
  let palette ← Palette.ofValue appearance
  let detail ← Detail.ofValue sampling
  let canvas := Canvas.ofSize width height
  match view with
  | .space v => SpaceScene.build ⟨request, samples, v, palette, detail, canvas⟩
  | .plane v => PlaneScene.build ⟨request, samples, v, palette, detail, canvas⟩

end FieldPlot.Scene
