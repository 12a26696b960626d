/-!
The lexical units of an expression and where they start. Scanning never fails: a character that
starts no token is passed over. A numeral is a maximal run of digits and dots, a name a letter with
the maximal run of letters and digits behind it, so every token is as long as it can be.
-/

namespace FieldPlot.Expression

/-- The operators, brackets and the comma. -/
inductive Mark
  | plus | minus | times | divide | power | opening | closing | comma
deriving DecidableEq, Repr

namespace Mark

def char : Mark → Char
  | plus => '+'
  | minus => '-'
  | times => '*'
  | divide => '/'
  | power => '^'
  | opening => '('
  | closing => ')'
  | comma => ','

def ofChar? : Char → Option Mark
  | '+' => some plus
  | '-' => some minus
  | '*' => some times
  | '/' => some divide
  | '^' => some power
  | '(' => some opening
  | ')' => some closing
  | ',' => some comma
  | _ => none

theorem ofChar?_char (m : Mark) : ofChar? m.char = some m := by
  cases m <;> rfl

end Mark

inductive Lexeme
  | mark (m : Mark)
  | number (text : List Char)
  | name (text : List Char)
deriving DecidableEq, Repr

def Lexeme.text : Lexeme → List Char
  | mark m => [m.char]
  | number s => s
  | name s => s

/-- A lexical unit with the offset of its first character. -/
structure Token where
  lexeme : Lexeme
  start : Nat
deriving DecidableEq, Repr

def Token.text (t : Token) : List Char :=
  t.lexeme.text

def isNumberChar (c : Char) : Bool :=
  c.isDigit || c = '.'

/-- The tokens of `s`, whose first character stands at offset `start`. -/
def tokensFrom (start : Nat) (s : List Char) : List Token :=
  match s with
  | [] => []
  | c :: s =>
    match Mark.ofChar? c with
    | some m => ⟨.mark m, start⟩ :: tokensFrom (start + 1) s
    | none =>
      if isNumberChar c then
        let run := s.takeWhile isNumberChar
        ⟨.number (c :: run), start⟩ :: tokensFrom (start + 1 + run.length) (s.dropWhile isNumberChar)
      else if c.isAlpha then
        let run := s.takeWhile Char.isAlphanum
        ⟨.name (c :: run), start⟩ :: tokensFrom (start + 1 + run.length) (s.dropWhile Char.isAlphanum)
      else tokensFrom (start + 1) s
termination_by s.length
decreasing_by
  all_goals rw [List.length_cons]
  · exact Nat.lt_succ_self _
  · exact Nat.lt_succ_of_le (List.dropWhile_sublist _).length_le
  · exact Nat.lt_succ_of_le (List.dropWhile_sublist _).length_le
  · exact Nat.lt_succ_self _

/-- The tokens of an expression, in order. -/
def tokens (s : List Char) : List Token :=
  tokensFrom 0 s

end FieldPlot.Expression
