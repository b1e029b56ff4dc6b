import SchemaPackage.Table.ControlFile

/-!
Records of a dictionary table. The layout says which values a record has and in which order; a
record lists them in double quotes between commas.
-/
namespace SchemaPackage

structure Layout where
  table : Text
  fields : List Text
deriving DecidableEq

/-- A double quote inside a value is written twice. -/
def escapeValue : Text → Text
  | [] => []
  | c :: rest => if c = '"' then '"' :: '"' :: escapeValue rest else c :: escapeValue rest

def quoteValue (value : Text) : Text := "\"" ++ value ++ "\""

namespace Layout

def ofTable (t : Table) : Layout where
  table := t.name
  fields := t.sortedColumns.map fun c => Text.lower c.name

/-- The values of the fields in turn, or the fault of the first field that has none. -/
def valuesOf (table : Text) (values : Attributes) : List Text → Except Fault (List Text)
  | [] => .ok []
  | field :: rest =>
    match values.lookup field with
    | some value => (valuesOf table values rest).map (value :: ·)
    | none => .error (.missingField table field)

/-- One record of values that are escaped already. -/
def render (l : Layout) (values : Attributes) : Except Fault Text :=
  (valuesOf l.table values l.fields).map fun vs =>
    Text.joined "," (vs.map quoteValue) ++ recordEnd

end Layout

end SchemaPackage
