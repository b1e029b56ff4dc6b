import SchemaPackage.Table

/-!
The statements that create a table and its indexes.
-/
namespace SchemaPackage.Table

/-- Column definitions end in a comma, except for the last. -/
def dropFinalComma : List Text → List Text
  | [] => []
  | [line] => [line.dropLast]
  | line :: more => line :: dropFinalComma more

def statement (t : Table) : Text :=
  Text.joined "\n"
    (("CREATE TABLE \"" ++ t.name ++ "\" (")
      :: dropFinalComma (t.sortedColumns.map Column.definition)
      ++ [(")" : Text), "ENABLE ROW MOVEMENT TABLESPACE &1;"])

def indexStatements (t : Table) : Text :=
  Text.joined "\n" (t.indexes.filterMap Index.statement?)

end SchemaPackage.Table
