import SchemaPackage.LoadClause
import SchemaPackage.Value

/-!
Columns of tables: their attributes, and the line or clause that each kind of output has for
a column. Every column carries the order of its creation, which fixes its place in a table.
-/
namespace SchemaPackage

structure Column where
  name : Text
  dataType : Text
  nullable : Bool
  defaultValue : Text
  documentation : Text
  story : Text
  release : Text
  products : Text
  loaderExpression : Option Text
  deprecatedRelease : Text
  sequenceName : Text
  order : Nat
deriving DecidableEq

namespace Column

inductive Field
  | name
  | dataType
  | nullable
  | defaultValue
  | documentation
  | story
  | release
  | products
  | loaderExpression
  | deprecatedRelease
  | sequenceName
deriving DecidableEq

/-- The attribute that each field is set by. -/
def fieldKeys : List (Text × Field) :=
  [("name", .name), ("data_type", .dataType), ("nullable", .nullable),
   ("default_value", .defaultValue), ("documentation", .documentation), ("story", .story),
   ("release", .release), ("products", .products),
   ("sql_loader_ctl_expression", .loaderExpression),
   ("deprecated_release", .deprecatedRelease), ("sequence_name", .sequenceName)]

/-- A column without attributes, as it stands between taking its order and getting a name. -/
def blank (order : Nat) : Column where
  name := []
  dataType := []
  nullable := true
  defaultValue := []
  documentation := []
  story := defaultStory
  release := defaultRelease
  products := defaultProducts
  loaderExpression := none
  deprecatedRelease := []
  sequenceName := []
  order := order

def setName (value : Text) (c : Column) : Except Fault Column :=
  (normalizeName "Column" value).map fun name => { c with name }

def setDataType (value : Text) (c : Column) : Except Fault Column :=
  (requireValue "Column data type" value).map fun _ =>
    { c with dataType := Text.upper (Text.trim value) }

def setLoaderExpression (value : Text) (c : Column) : Column :=
  { c with loaderExpression := if (Text.trim value).isEmpty then none else some value }

/-- Only names and data types can be refused. -/
def set (field : Field) (value : Text) (c : Column) : Except Fault Column :=
  match field with
  | .name => c.setName value
  | .dataType => c.setDataType value
  | .nullable => .ok { c with nullable := isTruthy value }
  | .defaultValue => .ok { c with defaultValue := value }
  | .documentation => .ok { c with documentation := value }
  | .story => .ok { c with story := upperOr defaultStory value }
  | .release => .ok { c with release := valueOr defaultRelease value }
  | .products => .ok { c with products := valueOr defaultProducts value }
  | .loaderExpression => .ok (c.setLoaderExpression value)
  | .deprecatedRelease => .ok { c with deprecatedRelease := value }
  | .sequenceName => .ok { c with sequenceName := value }

def assign (key value : Text) (c : Column) : Except Fault Column :=
  setByKey fieldKeys set key value c

def ofNameAndType (name dataType : Text) (order : Nat) : Except Fault Column := do
  let c ← (blank order).setName name
  c.setDataType dataType

/-- The name and the type are set first, each from its first mention, and then every attribute
in turn. -/
def ofAttributes (attributes : Attributes) (order : Nat) : Except Fault Column := do
  let named ← ofNameAndType ((firstValue? "name" attributes).getD [])
    ((firstValue? "data_type" attributes).getD []) order
  whole (assignAll assign attributes named)

/-- The snapshot key column. -/
def snapshot (order : Nat) : Column :=
  { blank order with
    name := snapshotName
    dataType := "NUMBER"
    nullable := false
    documentation := "Snapshot id, used to identify which snapshot the data was created from."
    release := "RO4.0" }

/-- Columns count as the same when they have the same name. -/
def sameName (c d : Column) : Bool := c.name == d.name

/-- The line of a table statement that defines the column, with a comma at its end. -/
def definition (c : Column) : Text :=
  "\"" ++ c.name ++ "\" " ++ c.dataType
    ++ Text.onlyIf (!c.defaultValue.isEmpty) (" DEFAULT " ++ c.defaultValue)
    ++ Text.onlyIf (!c.nullable) " NOT NULL" ++ ","

/-- The field clause of a control file; an expression of the column's own goes before its
type. -/
def fieldClause (c : Column) : Except Fault Text :=
  match c.loaderExpression with
  | some expression => .ok ("," ++ c.name ++ " " ++ expression)
  | none =>
    match loadClause? c.name c.dataType with
    | some clause => .ok clause
    | none => .error (.unloadableType c.name c.dataType)

/-- What the dictionary records about the column itself. -/
def recordFields (c : Column) : Attributes :=
  [("column_name", c.name), ("data_type", c.dataType), ("nullable", flagLetter c.nullable),
   ("column_desc", c.documentation), ("default_value", c.defaultValue), ("story_id", c.story),
   ("products", c.products), ("release", c.release),
   ("deprecated_release", c.deprecatedRelease), ("sequence_name", c.sequenceName)]

def summary (c : Column) : Text :=
  "[name: " ++ c.name ++ ", data_type: " ++ c.dataType ++ "]"

end Column

end SchemaPackage
