import FieldPlot.Expression.Function
import FieldPlot.Geometry.Point

/-!
Expression trees over a type of literals, and their value at a point. A tree is read once with
numerals at its leaves and turned into numbers by `map`, so that evaluating it at many points repeats
neither the reading nor the conversion.
-/

namespace FieldPlot.Expression

inductive Variable
  | x | y | z
deriving DecidableEq, Repr

inductive Constant
  | pi | euler
deriving DecidableEq, Repr

inductive Binary
  | add | sub | mul | div | pow
deriving DecidableEq, Repr

inductive Tree (ν : Type)
  | literal (v : ν)
  | var (v : Variable)
  | const (c : Constant)
  | negate (a : Tree ν)
  | binary (op : Binary) (a b : Tree ν)
  | call (f : Function) (a : Tree ν)
  | callTwo (f : Function) (a b : Tree ν)
deriving DecidableEq, Repr

/-- The coordinate that a variable stands for. -/
def Variable.value {α : Type} (p : Point α) : Variable → α
  | x => p.x
  | y => p.y
  | z => p.z

section

variable {α : Type} [Arithmetic α]

def Constant.value : Constant → α
  | pi => Arithmetic.pi
  | euler => Arithmetic.euler

def Binary.apply : Binary → α → α → α
  | add => Arithmetic.add
  | sub => Arithmetic.sub
  | mul => Arithmetic.mul
  | div => Arithmetic.div
  | pow => Arithmetic.pow

/-- The value of a tree at a point. -/
def Tree.eval (p : Point α) : Tree α → α
  | literal v => v
  | var v => v.value p
  | const c => c.value
  | negate a => Arithmetic.neg (a.eval p)
  | binary op a b => op.apply (a.eval p) (b.eval p)
  | call f a => f.apply (a.eval p) none
  | callTwo f a b => f.apply (a.eval p) (some (b.eval p))

end

namespace Tree

/-- The same tree with `f` of every literal. -/
def map {ν μ : Type} (f : ν → μ) : Tree ν → Tree μ
  | literal v => literal (f v)
  | var v => var v
  | const c => const c
  | negate a => negate (a.map f)
  | binary op a b => binary op (a.map f) (b.map f)
  | call g a => call g (a.map f)
  | callTwo g a b => callTwo g (a.map f) (b.map f)

def zero : Tree Numeral :=
  literal ⟨0, 0⟩

end Tree

end FieldPlot.Expression
