import SchemaPackage.ColumnSet
import SchemaPackage.Context
import SchemaPackage.Index

/-!
Tables: attributes, columns and indexes. Whether a table's snapshots are tracked is settled when
it is created, and holding the snapshot column is what it means to be tracked.
-/
namespace SchemaPackage

/-- Tables come with the product or belong to one customer. -/
inductive Origin
  | standard
  | custom
deriving DecidableEq

namespace Origin

def letter : Origin → Text
  | standard => "S"
  | custom => "C"

def parse (value : Text) : Origin :=
  let value := Text.trim value
  if Text.sameUpToCase value "S" || Text.sameUpToCase value "STANDARD" then standard else custom

end Origin

structure Table where
  name : Text
  documentation : Text := []
  story : Text := defaultStory
  release : Text := defaultRelease
  products : Text := defaultProducts
  category : Text := "REGULAR"
  origin : Origin := .standard
  logging : Bool := false
  transactions : Nat := 1
  loadOnInstall : Bool := false
  loadOnUpgrade : Bool := false
  loadOnDemand : Bool := false
  columns : ColumnSet := {}
  indexes : List Index := []
  snapshotColumn : Option Column := none
deriving DecidableEq

namespace Table

inductive Field
  | name
  | documentation
  | story
  | release
  | products
  | category
  | origin
  | logging
  | transactions
  | loadOnInstall
  | loadOnUpgrade
  | loadOnDemand
deriving DecidableEq

/-- The attribute that each field is set by. -/
def fieldKeys : List (Text × Field) :=
  [("name", .name), ("documentation", .documentation), ("story", .story),
   ("release", .release), ("products_formula", .products), ("type", .category),
   ("standard_or_custom", .origin), ("logging", .logging), ("init_trans", .transactions),
   ("init_on_install", .loadOnInstall), ("init_on_upgrade", .loadOnUpgrade),
   ("init_on_demand", .loadOnDemand)]

def isTracked (t : Table) : Bool := t.snapshotColumn.isSome

def setName (value : Text) (t : Table) : Except Fault Table :=
  (normalizeName "Table" value).map fun name => { t with name }

def set (field : Field) (value : Text) (t : Table) : Except Fault Table :=
  match field with
  | .name => t.setName value
  | .documentation => .ok { t with documentation := value }
  | .story => .ok { t with story := upperOr defaultStory value }
  | .release => .ok { t with release := valueOr defaultRelease value }
  | .products => .ok { t with products := valueOr defaultProducts value }
  | .category => .ok { t with category := upperOr "REGULAR" value }
  | .origin => .ok { t with origin := Origin.parse value }
  | .logging => .ok { t with logging := isTruthy value }
  | .transactions =>
    (parseCount "init_trans" value).map fun transactions => { t with transactions }
  | .loadOnInstall => .ok { t with loadOnInstall := isTruthy value }
  | .loadOnUpgrade => .ok { t with loadOnUpgrade := isTruthy value }
  | .loadOnDemand => .ok { t with loadOnDemand := isTruthy value }

def assign (key value : Text) (t : Table) : Except Fault Table :=
  setByKey fieldKeys set key value t

/-- A table with only a name. A refused name leaves the context untouched. -/
def create (name : Text) (tracked : Bool) : Build Table := do
  let name ← (normalizeName "Table" name : Except Fault Text)
  if tracked then
    let column ← trackedColumn
    return { name, snapshotColumn := some column }
  else
    return { name }

/-- The name is taken from its first mention, and then every attribute is set in turn. -/
def createFrom (attributes : Attributes) (tracked : Bool) : Build Table := do
  match firstValue? "name" attributes with
  | none => throw Fault.unnamedTable
  | some name =>
    let table ← create name tracked
    (whole (assignAll assign attributes table) : Except Fault Table)

def addColumn (c : Column) (t : Table) : Table :=
  { t with columns := t.columns.insert c }

/-- An index takes the place of the first one of its name, or else comes last. -/
def placeIndex (i : Index) : List Index → List Index
  | [] => [i]
  | j :: rest => if j.name = i.name then i :: rest else j :: placeIndex i rest

/-- An index without a name gets one made up from the number of indexes already there. -/
def namedIndex (i : Index) (t : Table) : Except Fault Index :=
  match i.name with
  | some _ => .ok i
  | none => i.autoName t.name t.indexes.length

def addIndex (i : Index) (t : Table) : Except Fault Table := do
  let i ← t.namedIndex i
  let i ← i.setTableName t.name
  return { t with indexes := placeIndex { i with tracked := t.isTracked } t.indexes }

/-- The snapshot column, where the table has it in its statement. -/
def leadingColumn (t : Table) : List Column :=
  if isDictionaryObject t.name then [] else t.snapshotColumn.toList

/-- The columns of the table statement, in its order. A declared snapshot column never counts
as one of the others. -/
def sortedColumns (t : Table) : List Column :=
  t.leadingColumn ++ t.columns.toList.filter (·.name != snapshotName)

end Table

end SchemaPackage
