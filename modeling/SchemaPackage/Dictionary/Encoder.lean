import SchemaPackage.Dictionary.Layout
import SchemaPackage.ProgramUnit
import SchemaPackage.Table.Records

/-!
Records for the two dictionary tables. Each table has to be registered first: its columns give
the layout of its records, and their defaults the values that a record leaves out.
-/
namespace SchemaPackage

/-- The dictionary tables that records are written for. -/
inductive Dictionary
  | objects
  | tableColumns
deriving DecidableEq

namespace Dictionary

def tableName : Dictionary → Text
  | objects => "DB_OBJECTS"
  | tableColumns => "DB_TABLE_COLUMNS"

def all : List Dictionary := [objects, tableColumns]

end Dictionary

/-- An order in which the columns of each table are gone through. A table keeps its columns by
name, and leaves open which of them comes first. -/
structure ColumnOrder where
  columns : Table → List Column
  perm : ∀ t, (columns t).Perm t.columns.toList

/-- The columns as they were created. -/
def ColumnOrder.creation : ColumnOrder where
  columns t := t.columns.toList
  perm _ := List.Perm.refl _

structure Encoder where
  objects : Option Table := none
  tableColumns : Option Table := none
  order : ColumnOrder := .creation

namespace Encoder

def table? (e : Encoder) : Dictionary → Option Table
  | .objects => e.objects
  | .tableColumns => e.tableColumns

def put (e : Encoder) (d : Dictionary) (t : Table) : Encoder :=
  match d with
  | .objects => { e with objects := some t }
  | .tableColumns => { e with tableColumns := some t }

/-- A table may be registered again as long as its layout stays the same. -/
def register (e : Encoder) (d : Dictionary) (t : Table) : Except Fault Encoder :=
  if t.name ≠ d.tableName then .error (.wrongDictionary d.tableName t.name)
  else match e.table? d with
    | none => .ok (e.put d t)
    | some old =>
      if Layout.ofTable old = Layout.ofTable t then .ok (e.put d t)
      else .error (.changedLayout d.tableName)

/-- A default such as 'Y' stands for the text between the quotes. -/
def unquoted (value : Text) : Text := Text.trimEnds (· == '\'') value

/-- The defaults of columns under their fields. Of two columns with one field, the first one
counts. -/
def defaults (columns : List Column) : Attributes :=
  columns.map fun c => (Text.lower c.name, unquoted c.defaultValue)

/-- One record of the dictionary: the given values, and defaults for the fields they leave
out. -/
def render (e : Encoder) (d : Dictionary) (fields : Attributes) : Except Fault Text :=
  match e.table? d with
  | none => .error (.unregistered d.tableName)
  | some t =>
    (Layout.ofTable t).render
      ((fields ++ defaults (e.order.columns t)).map fun f => (f.1, escapeValue f.2))

def objectRecord (e : Encoder) (fields : Attributes) : Except Fault Text :=
  e.render .objects fields

/-- The records of all field lists on end, or the fault of the first that cannot be written. -/
def records (e : Encoder) (d : Dictionary) : List Attributes → Except Fault Text
  | [] => .ok []
  | fields :: rest =>
    match e.render d fields with
    | .ok record => (records e d rest).map (record ++ ·)
    | .error fault => .error fault

/-- What is recorded about the columns of a table, numbered from `first`. -/
def columnFieldsFrom (table : Text) (first : Nat) : List Column → List Attributes
  | [] => []
  | c :: rest =>
    (("table_name", table) :: ("column_id", Text.decimal first) :: c.recordFields)
      :: columnFieldsFrom table (first + 1) rest

def columnFields (table : Text) (columns : List Column) : List Attributes :=
  columnFieldsFrom table 1 columns

def columnRecords (e : Encoder) (table : Text) (columns : List Column) :
    Except Fault Text :=
  e.records .tableColumns (columnFields table columns)

end Encoder

namespace Table

def objectRecord (t : Table) (e : Encoder) : Except Fault Text :=
  e.objectRecord t.recordFields

def columnRecords (t : Table) (e : Encoder) : Except Fault Text :=
  e.columnRecords t.name t.sortedColumns

def indexRecordText (t : Table) (e : Encoder) : Except Fault Text :=
  e.records .objects t.indexRecords

end Table

def ProgramUnit.objectRecord (u : ProgramUnit) (e : Encoder) : Except Fault Text :=
  e.objectRecord u.recordFields

end SchemaPackage
