import FieldPlot.Expression.Parsed
import FieldPlot.Scalar.Basic

/-!
Expressions ready for sampling: the text is read once, and its value at a point is a number or the
fault that the text is nested too deeply.
-/

namespace FieldPlot.Expression

/-- A tree with numbers at its leaves, unless the text is nested too deeply. -/
structure Formula (α : Type) where
  tree? : Option (Tree α)

namespace Formula

variable {α : Type} [Arithmetic α]

def ofChars (s : List Char) : Formula α :=
  ⟨(Parsed.ofChars? s).map fun e => e.tree.map Arithmetic.numeral⟩

def value (f : Formula α) (p : Point α) : Except Fault α :=
  match f.tree? with
  | some tree => .ok (tree.eval p)
  | none => .error .nestedTooDeep

/-- The value where it is finite. -/
def sample [Scalar α] (f : Formula α) (p : Point α) : Except Fault (Option α) :=
  (f.value p).map Scalar.finite?

end Formula

/-- What a text means at one point: its value and what had to be skipped to read it. -/
structure Evaluation (α : Type) where
  value : α
  issues : List Issue

def evaluate {α : Type} [Arithmetic α] (s : List Char) (p : Point α) : Except Fault (Evaluation α) :=
  match Parsed.ofChars? s with
  | some e => .ok ⟨e.value p, e.issues⟩
  | none => .error .nestedTooDeep

/-- Whether the value does not stand for what was typed. -/
def Evaluation.isIndeterminate {α : Type} [Scalar α] (e : Evaluation α) : Bool :=
  !e.issues.isEmpty || !Scalar.isFinite e.value

/-- What is wrong with a text that is submitted; nothing if it is well formed. -/
def check (s : List Char) : Except Fault (List Issue) :=
  if (Text.trim s).isEmpty then .ok [.empty]
  else match Parsed.ofChars? s with
    | some e => .ok e.issues
    | none => .error .nestedTooDeep

end FieldPlot.Expression
