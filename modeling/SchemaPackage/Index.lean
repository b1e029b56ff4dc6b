import SchemaPackage.Value

/-!
Indexes and key constraints. An index may still lack its name, its table or its columns; only
a complete one has a statement.
-/
namespace SchemaPackage

inductive IndexKind
  | primary
  | unique
  | nonUnique
deriving DecidableEq

namespace IndexKind

def name : IndexKind → Text
  | primary => "PRIMARY"
  | unique => "UNIQUE"
  | nonUnique => "NON-UNIQUE"

def all : List IndexKind := [primary, unique, nonUnique]

def parse (value : Text) : Except Fault IndexKind :=
  let wanted := Text.upper (Text.trim value)
  match all.find? (·.name == wanted) with
  | some kind => .ok kind
  | none =>
    if wanted.isEmpty then .error (.emptyValue "Index type")
    else .error (.unknownIndexKind wanted)

end IndexKind

structure Index where
  name : Option Text := none
  kind : IndexKind := .nonUnique
  tableName : Option Text := none
  declaredColumns : Option Text := none
  story : Text := defaultStory
  release : Text := defaultRelease
  tracked : Bool := false
deriving DecidableEq

namespace Index

inductive Field
  | name
  | kind
  | tableName
  | columns
  | story
  | release
deriving DecidableEq

/-- The attribute that each field is set by; table descriptions also call the name an old
name. -/
def fieldKeys : List (Text × Field) :=
  [("name", .name), ("old_name", .name), ("type", .kind), ("table_name", .tableName),
   ("columns", .columns), ("story", .story), ("release", .release)]

def setName (value : Text) (i : Index) : Except Fault Index :=
  (normalizeName "Index" value).map fun name => { i with name := some name }

def setTableName (value : Text) (i : Index) : Except Fault Index :=
  (requireValue "Index table name" value).map fun _ =>
    { i with tableName := some (Text.upper value) }

def setColumns (value : Text) (i : Index) : Except Fault Index :=
  (requireValue "Index columns" value).map fun _ => { i with declaredColumns := some value }

def set (field : Field) (value : Text) (i : Index) : Except Fault Index :=
  match field with
  | .name => i.setName value
  | .kind => (IndexKind.parse value).map fun kind => { i with kind }
  | .tableName => i.setTableName value
  | .columns => i.setColumns value
  | .story => .ok { i with story := upperOr defaultStory value }
  | .release => .ok { i with release := valueOr defaultRelease value }

/-- Keys are read without regard to case. -/
def assign (key value : Text) (i : Index) : Except Fault Index :=
  setByKey fieldKeys set (Text.lower key) value i

def ofAttributes (attributes : Attributes) : Except Fault Index :=
  whole (assignAll assign attributes {})

def mentionsSnapshot (columns : Text) : Bool :=
  Text.occursIn snapshotName (Text.upper columns)

/-- A primary key on a tracked table outside the dictionary starts with the snapshot column,
unless its declaration mentions that column already. -/
def leadsWithSnapshot (i : Index) (columns : Text) : Bool :=
  i.kind == .primary && i.tracked && !mentionsSnapshot columns
    && !isDictionaryObject (i.tableName.getD [])

/-- The columns that the statement names. -/
def columns (i : Index) : Option Text :=
  i.declaredColumns.map fun columns =>
    if i.leadsWithSnapshot columns then snapshotName ++ "," ++ columns else columns

/-- The name made up for an index that was declared without one. -/
def madeUpName (kind : IndexKind) (table : Text) (sequence : Nat) : Text :=
  match kind with
  | .primary => "PK_" ++ table
  | _ => "I" ++ Text.decimal sequence ++ "_" ++ table

def autoName (table : Text) (sequence : Nat) (i : Index) : Except Fault Index :=
  i.setName (madeUpName i.kind table sequence)

def statementOf (kind : IndexKind) (name table columns : Text) : Text :=
  match kind with
  | .primary => "ALTER TABLE " ++ table ++ " ADD CONSTRAINT " ++ name ++ " PRIMARY KEY("
      ++ columns ++ ") USING INDEX TABLESPACE &1;"
  | .unique => "ALTER TABLE " ++ table ++ " ADD CONSTRAINT " ++ name ++ " UNIQUE ("
      ++ columns ++ ") USING INDEX TABLESPACE &1;"
  | .nonUnique => "CREATE INDEX " ++ name ++ " ON " ++ table ++ " (" ++ columns
      ++ ") TABLESPACE &1;"

/-- The statement that creates the index, once its name, table and columns are known. -/
def statement? (i : Index) : Option Text :=
  match i.name, i.tableName, i.columns with
  | some name, some table, some columns => some (statementOf i.kind name table columns)
  | _, _, _ => none

def statement (i : Index) : Text := i.statement?.getD []

end Index

end SchemaPackage
