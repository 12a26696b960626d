import FieldPlot.Text.Numeral
import FieldPlot.Text.Quoted

/-!
The command line. Every word is classified first, on its own: a switch, which may be shortened as far
as it stays unique and may carry a text of its own, an argument, or a switch nobody knows, which is
passed over. The classified words are then taken in order. Help and a complaint end the reading.
-/

namespace FieldPlot.Startup

inductive Switch
  | help | backend | flat | debug | logFile
deriving DecidableEq, Repr

namespace Switch

def all : List Switch :=
  [help, backend, flat, debug, logFile]

def name : Switch → List Char
  | help => "--help".toList
  | backend => "--backend".toList
  | flat => "--2d".toList
  | debug => "--debug".toList
  | logFile => "--log-file".toList

/-- The switch in messages. -/
def label : Switch → String
  | help => "-h/--help"
  | s => String.ofList s.name

def takesValue : Switch → Bool
  | backend | logFile => true
  | _ => false

/-- The switch spelled out in full; help alone has a short spelling. -/
def ofName? (s : List Char) : Option Switch :=
  if s = ['-', 'h'] then some help else all.find? (·.name = s)

end Switch

/-- The text that a switch carries within its own word: behind an equals sign, or immediately behind the
letter of a short switch. -/
structure Attached where
  /-- Whether the switch is spelled with one letter. -/
  isShort : Bool
  text : List Char
deriving DecidableEq, Repr

inductive Word
  | argument (s : List Char)
  /-- The mark after which every word is an argument. -/
  | separator
  | switch (s : Switch) (attached : Option Attached)
  | unknown
deriving DecidableEq, Repr

/-- Why a command line is refused. -/
inductive Complaint
  | ambiguous (word : List Char) (candidates : List Switch)
  | missingValue (s : Switch)
  | unusedValue (s : Switch) (text : List Char)
  | unknownBackend (text : List Char)
deriving DecidableEq, Repr

inductive Backend
  | auto | opengl | raster
deriving DecidableEq, Repr

namespace Backend

def name : Backend → String
  | auto => "auto"
  | opengl => "opengl"
  | raster => "raster"

def all : List Backend :=
  [auto, opengl, raster]

def ofName? (s : String) : Option Backend :=
  all.find? (·.name = s)

end Backend

namespace Complaint

def quotedText (s : List Char) : String :=
  Text.quoted (String.ofList s)

def message : Complaint → String
  | ambiguous word candidates =>
    "ambiguous option: " ++ String.ofList word ++ " could match " ++
      ", ".intercalate (candidates.map fun s => String.ofList s.name)
  | missingValue s => "argument " ++ s.label ++ ": expected one argument"
  | unusedValue s text => "argument " ++ s.label ++ ": ignored explicit argument " ++ quotedText text
  | unknownBackend text =>
    "argument " ++ Switch.backend.label ++ ": invalid choice: " ++ quotedText text ++
      " (choose from " ++ ", ".intercalate (Backend.all.map fun b => Text.quoted b.name) ++ ")"

end Complaint

/-! ### Words -/

/-- A word at its first equals sign: the name before it and the text behind it. -/
def splitEquals (s : List Char) : List Char × Option (List Char) :=
  match s.dropWhile (· != '=') with
  | [] => (s, none)
  | _ :: text => (s.takeWhile (· != '='), some text)

/-- Whether digits of any script are all that `s` holds, and at least one. -/
def isDigits (s : List Char) : Bool :=
  !s.isEmpty && s.all fun c => (Text.decimalValue? c).isSome

/-- A negative number, which is an argument and no switch. -/
def isNegativeNumber : List Char → Bool
  | '-' :: s =>
    let s := if s.getLast? = some '\n' then s.dropLast else s
    let digits := s.takeWhile fun c => (Text.decimalValue? c).isSome
    match s.drop digits.length with
    | [] => !digits.isEmpty
    | '.' :: fraction => isDigits fraction
    | _ => false
  | _ => false

/-- A word that starts like a switch and is no full spelling of one. -/
def Word.ofOther (s : List Char) : Word :=
  if isNegativeNumber s || s.contains ' ' then .argument s else .unknown

/-- A word of the form `--name` or `--name=text` with a shortened name. -/
def Word.ofShortened (s : List Char) : Except Complaint Word :=
  let (name, text) := splitEquals s
  match Switch.all.filter fun candidate => name.isPrefixOf candidate.name with
  | [] => .ok (Word.ofOther s)
  | [only] => .ok (.switch only (text.map (Attached.mk false)))
  | candidates => .error (.ambiguous s candidates)

/-- The class of a word in front of any separator. -/
def Word.ofChars (s : List Char) : Except Complaint Word :=
  match s with
  | ['-'] => .ok (.argument s)
  | '-' :: c :: text =>
    match Switch.ofName? s, splitEquals s with
    | some found, _ => .ok (.switch found none)
    | none, (name, value) =>
      match value.bind fun _ => Switch.ofName? name with
      | some found => .ok (.switch found (value.map (Attached.mk (c != '-'))))
      | none =>
        if c = '-' then Word.ofShortened s
        else if c = 'h' then .ok (.switch .help (some ⟨true, text⟩))
        else .ok (Word.ofOther s)
  | _ => .ok (.argument s)

/-- The words of a command line. -/
def classify : List (List Char) → Except Complaint (List Word)
  | [] => .ok []
  | s :: rest =>
    if s = ['-', '-'] then .ok (.separator :: rest.map Word.argument)
    else do return (← Word.ofChars s) :: (← classify rest)

/-! ### Options -/

structure Options where
  expression : Option (List Char) := none
  backend : Backend := .auto
  flat : Bool := false
  debug : Bool := false
  logFile : Option (List Char) := none
deriving DecidableEq, Repr

/-- Why a command line yields no options. -/
inductive Stop
  | help
  | refused (complaint : Complaint)
deriving DecidableEq, Repr

/-- Short switches may follow one another in one word. Help is the only one, so the letters behind it
ask for help once more; from the first other one on they are a text that help does not take. -/
def stopForHelp : (letters : List Char) → Stop
  | ['h'] => .help
  | 'h' :: letters => stopForHelp letters
  | text => .refused (.unusedValue .help text)

namespace Options

/-- Sets the switch with the text it came with. -/
def assign (o : Options) (s : Switch) (text : List Char) : Except Stop Options :=
  match s with
  | .backend =>
    match Backend.ofName? (String.ofList text) with
    | some backend => .ok { o with backend }
    | none => .error (.refused (.unknownBackend text))
  | .logFile => .ok { o with logFile := some text }
  | s => .error (.refused (.unusedValue s text))

/-- Sets a switch that came without a text. -/
def enable (o : Options) (s : Switch) : Except Stop Options :=
  match s with
  | .help => .error .help
  | .flat => .ok { o with flat := true }
  | .debug => .ok { o with debug := true }
  | .backend | .logFile => .error (.refused (.missingValue s))

/-- Sets a switch with a text in its own word. -/
def attach (o : Options) (s : Switch) (attached : Attached) : Except Stop Options :=
  if s = .help && attached.isShort then .error (stopForHelp attached.text)
  else o.assign s attached.text

/-- Takes the words in order. The first argument that no switch claims is the expression. -/
def read (o : Options) : List Word → Except Stop Options
  | [] => .ok o
  | .argument s :: words =>
    read { o with expression := o.expression.or (some s) } words
  | .separator :: words | .unknown :: words => read o words
  | .switch s (some attached) :: words => do read (← o.attach s attached) words
  | .switch s none :: words =>
    match s.takesValue, words with
    | true, .argument text :: words => do read (← o.assign s text) words
    | _, words => do read (← o.enable s) words

/-- The options of a command line. -/
def ofWords (words : List (List Char)) : Except Stop Options :=
  match classify words with
  | .ok words => read {} words
  | .error complaint => .error (.refused complaint)

end Options

/-! ### Answers to the caller -/

def usage : String :=
  "usage: calcplot [-h] [--backend \x7bauto,opengl,raster\x7d] [--2d] [--debug]\n" ++
  "                [--log-file LOG_FILE]\n" ++
  "                [expression]\n"

def helpText : String :=
  usage ++ "\nInteractive 2D/3D function plotter.\n\n" ++
  "positional arguments:\n" ++
  "  expression            expression to plot on start-up\n\n" ++
  "options:\n" ++
  "  -h, --help            show this help message and exit\n" ++
  "  --backend \x7bauto,opengl,raster\x7d\n" ++
  "  --2d                  start in the 2D view\n" ++
  "  --debug               enable debug logging\n" ++
  "  --log-file LOG_FILE   also write the log to this file\n"

namespace Stop

def exitCode : Stop → Nat
  | help => 0
  | refused _ => 2

/-- What is written to the standard output. -/
def output : Stop → String
  | help => helpText
  | refused _ => ""

/-- What is written to the standard error stream. -/
def errors : Stop → String
  | help => ""
  | refused complaint => usage ++ "calcplot: error: " ++ complaint.message ++ "\n"

end Stop

end FieldPlot.Startup
