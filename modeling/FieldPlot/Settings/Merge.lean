import FieldPlot.Settings.Defaults

/-!
Merging a partial payload of sections into the settings. A mapping is merged into a section that is a
table, key by key, and so it is with a key within one; anything else is replaced.
-/

namespace FieldPlot.Settings

variable {α : Type}

/-- The new value of one key within a section. -/
def mergeKey (old : Option (Value α)) (value : Value α) : Value α :=
  match old, value.mapped? with
  | some (.table t), some s => .table (Table.update t s)
  | _, _ => value

def mergeKeys (part : Table α) (payload : Table α) : Table α :=
  payload.foldl (fun t entry => t.set entry.1 (mergeKey (t.get? entry.1) entry.2)) part

/-- The new value of one section. -/
def mergeSection (old : Option (Value α)) (value : Value α) : Value α :=
  match old, value.mapped? with
  | some (.table t), some s => .table (mergeKeys t s)
  | _, _ => value

/-- The settings with a payload merged into them. -/
def merge (state payload : Table α) : Table α :=
  payload.foldl (fun t entry => t.set entry.1 (mergeSection (t.get? entry.1) entry.2)) state

/-- The sections whose value differs from the one they start with; a section that there is none of at
the start counts as null. -/
def changedSections [Scalar α] (state : Table α) : Table α :=
  state.filter fun entry => !entry.2.same ((Table.get? (defaults : Table α) entry.1).getD .null)

end FieldPlot.Settings
