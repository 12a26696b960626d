/-!
The lines of a text. Every line break of Unicode ends a line; a carriage return and the line feed behind
it are one break.
-/

namespace FieldPlot.Text

def isLineBreak (c : Char) : Bool :=
  let n := c.toNat
  (0xA ≤ n && n ≤ 0xD) || (0x1C ≤ n && n ≤ 0x1E) || n == 0x85 || n == 0x2028 || n == 0x2029

/-- The lines of `s`, the first of which starts with `line`, reversed. A break at the end of the text
ends the last line, no empty one follows. -/
def linesFrom (line : List Char) : List Char → List (List Char)
  | [] => if line.isEmpty then [] else [line.reverse]
  | '\r' :: '\n' :: s => line.reverse :: linesFrom [] s
  | c :: s => if isLineBreak c then line.reverse :: linesFrom [] s else linesFrom (c :: line) s

def lines (s : List Char) : List (List Char) :=
  linesFrom [] s

end FieldPlot.Text
