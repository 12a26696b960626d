import FieldPlot.Expression.Parsed
import Mathlib.Data.Nat.Digits.Defs

/-! The grammar of expressions as a relation between lexemes and trees. It is stated without the
readers, so that what they accept and what they make of it can be compared with it. -/

namespace FieldPlot.Expression

inductive Phrase
  | sum | term | power | signed | operand
deriving DecidableEq

/-- The number a run of digits and at most one point stands for. -/
def decimal (s : List Char) : Numeral where
  mantissa := Nat.ofDigits 10 ((s.filter Char.isDigit).map fun c => c.toNat - '0'.toNat).reverse
  places := ((s.dropWhile (· ≠ '.')).drop 1).length

/-- What is derived from a phrase, and the tree it means. Sums and products lean to the left, a sign
belongs to the operand behind it, and a power has one exponent. -/
inductive Derives : Phrase → List Lexeme → Tree Numeral → Prop
  | number {s : List Char} (hs : ∀ c ∈ s, isNumberChar c = true)
      (hdigit : ∃ c ∈ s, c.isDigit = true) (hpoint : s.count '.' ≤ 1) :
      Derives .operand [.number s] (.literal (decimal s))
  | name {s : List Char} {a : Tree Numeral} (ha : Tree.ofName? (s.map Char.toLower) = some a) :
      Derives .operand [.name s] a
  | group {w : List Lexeme} {a : Tree Numeral} (h : Derives .sum w a) :
      Derives .operand (.mark .opening :: w ++ [.mark .closing]) a
  | call {s : List Char} {f : Function} {w : List Lexeme} {a : Tree Numeral}
      (hf : s.map Char.toLower = f.name.toList) (h : Derives .sum w a) :
      Derives .operand (.name s :: .mark .opening :: w ++ [.mark .closing]) (.call f a)
  | callTwo {s : List Char} {f : Function} {w v : List Lexeme} {a b : Tree Numeral}
      (hf : s.map Char.toLower = f.name.toList) (h : Derives .sum w a) (h' : Derives .sum v b) :
      Derives .operand (.name s :: .mark .opening :: (w ++ .mark .comma :: v) ++ [.mark .closing])
        (.callTwo f a b)
  | unsigned {w : List Lexeme} {a : Tree Numeral} (h : Derives .operand w a) : Derives .signed w a
  | plus {w : List Lexeme} {a : Tree Numeral} (h : Derives .operand w a) :
      Derives .signed (.mark .plus :: w) a
  | minus {w : List Lexeme} {a : Tree Numeral} (h : Derives .operand w a) :
      Derives .signed (.mark .minus :: w) (.negate a)
  | base {w : List Lexeme} {a : Tree Numeral} (h : Derives .signed w a) : Derives .power w a
  | raised {w v : List Lexeme} {a b : Tree Numeral} (h : Derives .signed w a)
      (h' : Derives .signed v b) : Derives .power (w ++ .mark .power :: v) (.binary .pow a b)
  | factor {w : List Lexeme} {a : Tree Numeral} (h : Derives .power w a) : Derives .term w a
  | product {w v : List Lexeme} {a b : Tree Numeral} {m : Mark} {op : Binary}
      (hop : Binary.ofProductMark? m = some op) (h : Derives .term w a) (h' : Derives .power v b) :
      Derives .term (w ++ .mark m :: v) (.binary op a b)
  | summand {w : List Lexeme} {a : Tree Numeral} (h : Derives .term w a) : Derives .sum w a
  | sum {w v : List Lexeme} {a b : Tree Numeral} {m : Mark} {op : Binary}
      (hop : Binary.ofSumMark? m = some op) (h : Derives .sum w a) (h' : Derives .term v b) :
      Derives .sum (w ++ .mark m :: v) (.binary op a b)

/-- The most brackets that are open at once, when `n` of them are open in front. -/
def deepest (n : Nat) : List Lexeme → Nat
  | [] => n
  | .mark .opening :: w => deepest (n + 1) w
  | .mark .closing :: w => max n (deepest (n - 1) w)
  | _ :: w => deepest n w

def nesting (w : List Lexeme) : Nat :=
  deepest 0 w

def lexemes (s : List Char) : List Lexeme :=
  (tokens s).map Token.lexeme

theorem le_deepest (n : Nat) (w : List Lexeme) : n ≤ deepest n w := by
  induction w generalizing n with
  | nil => exact le_rfl
  | cons l w ih =>
    cases l with
    | mark m =>
      cases m with
      | opening => exact (Nat.le_succ n).trans (ih (n + 1))
      | closing => exact le_max_left _ _
      | _ => exact ih n
    | _ => exact ih n

/-- Every bracket of `w` has its partner in `w`, and `d` of them are open at once at most. -/
def Closed (d : Nat) (w : List Lexeme) : Prop :=
  ∀ n v, deepest n (w ++ v) = max (n + d) (deepest n v)

theorem Closed.nesting {d : Nat} {w : List Lexeme} (h : Closed d w) : nesting w = d := by
  simpa [Expression.nesting, deepest] using h 0 []

theorem Closed.cons {d : Nat} {w : List Lexeme} {l : Lexeme} (h : Closed d w)
    (hl : ∀ n v, deepest n (l :: v) = deepest n v) : Closed d (l :: w) := by
  intro n v
  rw [List.cons_append, hl, h]

theorem Closed.bracket {d : Nat} {w : List Lexeme} (h : Closed d w) :
    Closed (d + 1) (.mark .opening :: w ++ [.mark .closing]) := by
  intro n v
  simp only [List.cons_append, List.append_assoc, List.nil_append, deepest, h (n + 1),
    Nat.add_sub_cancel]
  omega

theorem Closed.call_nesting {d : Nat} {w : List Lexeme} (h : Closed d w) (s : List Char) :
    Expression.nesting (.name s :: .mark .opening :: w ++ [.mark .closing]) = d + 1 :=
  (h.bracket.cons fun _ _ => rfl).nesting

theorem deepest_mark {m : Mark} (hm : m ≠ .opening) (hm' : m ≠ .closing) (n : Nat)
    (w : List Lexeme) : deepest n (.mark m :: w) = deepest n w := by
  cases m <;> first | rfl | contradiction

theorem Closed.join {d d' : Nat} {w v : List Lexeme} {m : Mark} (h : Closed d w)
    (h' : Closed d' v) (hm : m ≠ .opening) (hm' : m ≠ .closing) :
    Closed (max d d') (w ++ .mark m :: v) := by
  intro n u
  rw [List.append_assoc, List.cons_append, h, deepest_mark hm hm', h']
  omega

theorem mark_of_product {m : Mark} {op : Binary} (h : Binary.ofProductMark? m = some op) :
    m = .times ∨ m = .divide := by
  cases m <;> simp_all [Binary.ofProductMark?]

theorem mark_of_sum {m : Mark} {op : Binary} (h : Binary.ofSumMark? m = some op) :
    m = .plus ∨ m = .minus := by
  cases m <;> simp_all [Binary.ofSumMark?]

theorem Derives.closed {k : Phrase} {w : List Lexeme} {a : Tree Numeral} (h : Derives k w a) :
    Closed (nesting w) w := by
  suffices hd : ∃ d, Closed d w by
    obtain ⟨d, hd⟩ := hd
    rwa [hd.nesting]
  induction h with
  | number | name => exact ⟨0, fun n v => by simp [deepest, le_deepest]⟩
  | group _ ih =>
    obtain ⟨d, hd⟩ := ih
    exact ⟨d + 1, hd.bracket⟩
  | call _ _ ih =>
    obtain ⟨d, hd⟩ := ih
    exact ⟨d + 1, hd.bracket.cons fun _ _ => rfl⟩
  | callTwo _ _ _ ih ih' =>
    obtain ⟨d, hd⟩ := ih
    obtain ⟨d', hd'⟩ := ih'
    have hj := hd.join hd' (m := .comma) (by decide) (by decide)
    exact ⟨max d d' + 1, hj.bracket.cons fun _ _ => rfl⟩
  | unsigned _ ih | base _ ih | factor _ ih | summand _ ih => exact ih
  | plus _ ih | minus _ ih =>
    obtain ⟨d, hd⟩ := ih
    exact ⟨d, hd.cons fun _ _ => rfl⟩
  | raised _ _ ih ih' =>
    obtain ⟨d, hd⟩ := ih
    obtain ⟨d', hd'⟩ := ih'
    exact ⟨max d d', hd.join hd' (by decide) (by decide)⟩
  | product hop _ _ ih ih' =>
    obtain ⟨d, hd⟩ := ih
    obtain ⟨d', hd'⟩ := ih'
    rcases mark_of_product hop with rfl | rfl <;>
      exact ⟨max d d', hd.join hd' (by decide) (by decide)⟩
  | sum hop _ _ ih ih' =>
    obtain ⟨d, hd⟩ := ih
    obtain ⟨d', hd'⟩ := ih'
    rcases mark_of_sum hop with rfl | rfl <;>
      exact ⟨max d d', hd.join hd' (by decide) (by decide)⟩

end FieldPlot.Expression
