import FieldPlot.Scalar.Basic
import FieldPlot.Text.Quoted

/-!
Settings as callers hand them over: values without a schema, and tables that keep the order in which
their keys came. A table stands in a single place, so that assigning a key of it shows nowhere else, and
only tables are assigned to: other mappings are read. Whoever needs a setting converts it and takes the
fault if it has another form.
-/

namespace FieldPlot.Settings

inductive Value (α : Type)
  | null
  | bool (b : Bool)
  | int (n : Int)
  | real (a : α)
  | text (s : String)
  | list (values : List (Value α))
  | table (entries : List (String × Value α))
  /-- What can be read like a table but is none: a view of one. -/
  | mapping (entries : List (String × Value α))

instance {α : Type} : Inhabited (Value α) :=
  ⟨.null⟩

/-- Entries in the order of their first assignment, with one entry for each key. -/
abbrev Table (α : Type) := List (String × Value α)

namespace Table

variable {α : Type}

def get? (t : Table α) (key : String) : Option (Value α) :=
  (t.find? fun entry => entry.1 = key).map (·.2)

/-- Assigns a key, at its place if it is there and at the end otherwise. -/
def set : Table α → String → Value α → Table α
  | [], key, value => [(key, value)]
  | (k, v) :: t, key, value => if k = key then (key, value) :: t else (k, v) :: set t key value

/-- Assigns every entry of `s`. -/
def update (t s : Table α) : Table α :=
  s.foldl (fun t entry => t.set entry.1 entry.2) t

theorem get?_set (t : Table α) (key k : String) (value : Value α) :
    (t.set key value).get? k = if k = key then some value else t.get? k := by
  induction t with
  | nil => by_cases h : key = k <;> simp [set, get?, h, eq_comm]
  | cons entry t ih =>
    simp only [get?] at ih
    by_cases hk : entry.1 = key
    · by_cases h : k = key
      · simp [set, get?, hk, h]
      · have h' : key ≠ k := fun e => h e.symm
        simp [set, get?, hk, h, h']
    · by_cases he : entry.1 = k
      · have h : k ≠ key := fun e => hk (he.trans e)
        simp [set, get?, he, h]
      · simp [set, get?, hk, he, ih]

end Table

namespace Value

variable {α : Type}

/-- The entries of a table or of another mapping. -/
def mapped? : Value α → Option (Table α)
  | table t | mapping t => some t
  | _ => none

section

variable [Scalar α]

/-- Whether the value counts as set; zero and everything empty does not. -/
def isTruthy : Value α → Bool
  | null => false
  | bool b => b
  | int n => n != 0
  | real a => !(a == 0.0)
  | text s => !s.isEmpty
  | list s => !s.isEmpty
  | table t | mapping t => !t.isEmpty

/-- The value as a number; texts are read. -/
def toReal : Value α → Except Fault α
  | bool b => .ok (Scalar.ofInt (if b then 1 else 0))
  | int n => Scalar.ofInt? n
  | real a => .ok a
  | text s =>
    match Number.readReal? s.toList with
    | some w => .ok (Scalar.ofWritten w)
    | none => .error .unreadableNumber
  | null | list _ | table _ | mapping _ => .error .notNumeric

/-- The value as a count; a real number is truncated. -/
def toInteger : Value α → Except Fault Int
  | bool b => .ok (if b then 1 else 0)
  | int n => .ok n
  | real a => Scalar.truncate? a
  | text s =>
    match Number.readInteger? s.toList with
    | some n => .ok n
    | none => .error .unreadableNumber
  | null | list _ | table _ | mapping _ => .error .notNumeric

mutual

/-- The value as it is written inside of a list or a message. -/
def shown : Value α → String
  | null => "None"
  | bool true => "True"
  | bool false => "False"
  | int n => toString n
  | real a => String.ofList (Scalar.text a)
  | text s => Text.quoted s
  | list values => "[" ++ shownList values ++ "]"
  | table entries => "\x7b" ++ shownEntries entries ++ "\x7d"
  | mapping entries => "mappingproxy(\x7b" ++ shownEntries entries ++ "\x7d)"

def shownList : List (Value α) → String
  | [] => ""
  | [v] => v.shown
  | v :: w :: values => v.shown ++ ", " ++ shownList (w :: values)

def shownEntries : List (String × Value α) → String
  | [] => ""
  | [(k, v)] => Text.quoted k ++ ": " ++ v.shown
  | (k, v) :: e :: entries => Text.quoted k ++ ": " ++ v.shown ++ ", " ++ shownEntries (e :: entries)

end

/-- The value as a text of its own. -/
def asText : Value α → String
  | text s => s
  | v => v.shown

/-- Numbers among the values; truth values count as 0 and 1. -/
def number? : Value α → Option (Int ⊕ α)
  | bool b => some (.inl (if b then 1 else 0))
  | int n => some (.inl n)
  | real a => some (.inr a)
  | _ => none

def sameNumber : Int ⊕ α → Int ⊕ α → Bool
  | .inl m, .inl n => m == n
  | .inl m, .inr b => Scalar.ofInt m == b
  | .inr a, .inl n => a == Scalar.ofInt n
  | .inr a, .inr b => a == b

mutual

/-- Equality of settings: numbers by their value, mappings whatever the order of their keys. -/
def same : Value α → Value α → Bool
  | null, null => true
  | text s, text t => s == t
  | list s, list t => sameList s t
  | table s, table t | table s, mapping t | mapping s, table t | mapping s, mapping t =>
    s.length == t.length && sameEntries s t
  | v, w =>
    match v.number?, w.number? with
    | some m, some n => sameNumber m n
    | _, _ => false

def sameList : List (Value α) → List (Value α) → Bool
  | [], [] => true
  | v :: s, w :: t => v.same w && sameList s t
  | _, _ => false

def sameEntries : List (String × Value α) → List (String × Value α) → Bool
  | [], _ => true
  | (k, v) :: s, t =>
    (match Table.get? t k with
      | some w => v.same w
      | none => false) && sameEntries s t

end

/-- A pair in a list of entries. A key that is no text is legal, but nobody looks for it. -/
def pair? : Value α → Except Fault (Option (String × Value α))
  | text s =>
    match s.toList with
    | [k, v] => .ok (some (String.singleton k, text (String.singleton v)))
    | _ => .error .malformedEntries
  | list [text k, v] => .ok (some (k, v))
  | list [list _, _] | list [table _, _] | list [mapping _, _] => .error .notEntries
  | list [_, _] => .ok none
  | table [(k, _), (v, _)] | mapping [(k, _), (v, _)] => .ok (some (k, text v))
  | list _ | table _ | mapping _ => .error .malformedEntries
  | _ => .error .notEntries

/-- The entries that a setting assigns: those of a mapping or of a list of pairs. What does not count as
set assigns none. -/
def entries (v : Value α) : Except Fault (Table α) :=
  match v with
  | table t | mapping t => .ok t
  | list values => do return (← values.mapM pair?).filterMap id
  | text s => if s.isEmpty then .ok [] else .error .malformedEntries
  | v => if v.isTruthy then .error .notEntries else .ok []

/-- A setting within a mapping. -/
def lookup? (v : Value α) (key : String) : Except Fault (Option (Value α)) :=
  match v.mapped? with
  | some t => .ok (Table.get? t key)
  | none => .error .wrongShape

/-- A setting within a mapping, or `default` where it is missing. -/
def lookup (v : Value α) (key : String) (default : Value α) : Except Fault (Value α) := do
  return (← v.lookup? key).getD default

end

end Value

end FieldPlot.Settings
