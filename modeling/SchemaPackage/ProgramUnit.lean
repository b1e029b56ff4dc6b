import SchemaPackage.Value

/-!
Packages, procedures, functions, types, triggers and sequences. Their source files are taken
over as they are; only what the dictionary records about them is modelled.
-/
namespace SchemaPackage

inductive UnitKind
  | package
  | procedure
  | function
  | type
  | trigger
  | sequence
deriving DecidableEq

namespace UnitKind

def name : UnitKind → Text
  | package => "PACKAGE"
  | procedure => "PROCEDURE"
  | function => "FUNCTION"
  | type => "TYPE"
  | trigger => "TRIGGER"
  | sequence => "SEQUENCE"

/-- All kinds, in the order in which a schema is compiled. -/
def all : List UnitKind := [package, procedure, function, type, trigger, sequence]

/-- The extensions of the files that hold a unit's source. -/
def extensions : UnitKind → List Text
  | package => ["PKS", "PKB"]
  | _ => ["SQL"]

def parse? (value : Text) : Option UnitKind :=
  all.find? fun kind => Text.sameUpToCase kind.name (Text.trim value)

def parse (value : Text) : Except Fault UnitKind :=
  match parse? value with
  | some kind => .ok kind
  | none => .error (.unknownUnitKind value)

end UnitKind

structure ProgramUnit where
  kind : UnitKind
  name : Text
  story : Text := defaultStory
  release : Text := defaultRelease
  products : Text := defaultProducts
  documentation : Text := []
  installOrder : Nat := 1
deriving DecidableEq

namespace ProgramUnit

inductive Field
  | name
  | story
  | release
  | products
  | documentation
  | installOrder
deriving DecidableEq

/-- The attribute that each field is set by. -/
def fieldKeys : List (Text × Field) :=
  [("name", .name), ("story", .story), ("release", .release), ("products_formula", .products),
   ("documentation", .documentation), ("install_order", .installOrder)]

def set (field : Field) (value : Text) (u : ProgramUnit) : Except Fault ProgramUnit :=
  match field with
  | .name => (normalizeName u.kind.name value).map fun name => { u with name }
  | .story => .ok { u with story := upperOr defaultStory value }
  | .release => .ok { u with release := valueOr defaultRelease value }
  | .products => .ok { u with products := valueOr defaultProducts value }
  | .documentation => .ok { u with documentation := value }
  | .installOrder =>
    (parseCount "install_order" value).map fun installOrder => { u with installOrder }

def assign (key value : Text) (u : ProgramUnit) : Except Fault ProgramUnit :=
  setByKey fieldKeys set key value u

/-- The kind is checked before the name. -/
def ofKindAndName (kind name : Text) : Except Fault ProgramUnit := do
  let kind ← UnitKind.parse kind
  let name ← normalizeName kind.name name
  return { kind, name }

def ofAttributes (kind : Text) (attributes : Attributes) : Except Fault ProgramUnit := do
  let named ← ofKindAndName kind ((firstValue? "name" attributes).getD [])
  whole (assignAll assign attributes named)

/-- What the dictionary records about the unit. -/
def recordFields (u : ProgramUnit) : Attributes :=
  [("table_name", u.name), ("object_type", u.kind.name), ("description", u.documentation),
   ("release", u.release), ("relevant_for", u.products), ("story_id", u.story),
   ("install_order", Text.decimal u.installOrder)]

end ProgramUnit

end SchemaPackage
