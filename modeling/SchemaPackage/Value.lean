import SchemaPackage.Fault
import SchemaPackage.Text.Blank
import SchemaPackage.Text.Case

/-!
Rules for the values of attributes: identifiers, flags, counts, and what stands in for an
empty value. The length of an identifier is limited before its letters are raised.
-/
namespace SchemaPackage

abbrev Attributes := List (Text × Text)

/-- The first value given under a key. -/
def firstValue? (key : Text) (attributes : Attributes) : Option Text := attributes.lookup key

/-- The key column put in front of tables whose snapshots are tracked. -/
def snapshotName : Text := "SNAPSHOT_ID"

def defaultStory : Text := "US138139"

def defaultRelease : Text := "4.0.0.0"

def defaultProducts : Text := "W"

def normalizeName (entity value : Text) : Except Fault Text :=
  if value.isEmpty then .error (.emptyName entity)
  else if maxNameBytes < value.byteLength then .error (.longName entity value)
  else .ok (Text.upper value)

def requireValue (field value : Text) : Except Fault Unit :=
  if (Text.trim value).isEmpty then .error (.emptyValue field) else .ok ()

def truthValues : List Text := ["1", "yes", "true", "on"]

def isTruthy (value : Text) : Bool :=
  truthValues.any (Text.sameUpToCase · (Text.trim value))

def flagLetter (flag : Bool) : Text := if flag then "Y" else "N"

/-- Bookkeeping tables, which never get the snapshot column. -/
def dictionaryObjects : List Text :=
  ["DB_OBJECTS", "DB_OBJECTS_SAVED", "DB_OBJECTS_UPGRADE",
   "DB_TABLE_COLUMNS", "DB_TABLE_COLUMNS_SAVED", "DB_TABLE_COLUMNS_UPGRADE", "APPLICATION"]

def isDictionaryObject (name : Text) : Bool := dictionaryObjects.contains name

def upperOr (fallback value : Text) : Text :=
  if value.isEmpty then fallback else Text.upper value

def valueOr (fallback value : Text) : Text :=
  if value.isEmpty then fallback else value

/-- Reads a count; an empty one is 1. -/
def parseCount (field value : Text) : Except Fault Nat :=
  let value := Text.trim value
  if value.isEmpty then .ok 1
  else match Text.natural? UInt32.size value with
    | some n => .ok n
    | none => .error (.notANumber field value)

/-- Sets the field that a key belongs to. Keys that name no field are passed over. -/
def setByKey {α φ : Type} (keys : List (Text × φ)) (set : φ → Text → α → Except Fault α)
    (key value : Text) (a : α) : Except Fault α :=
  match keys.lookup key with
  | some field => set field value a
  | none => .ok a

/-- Attributes taken one after another until one is refused: what was reached, and why the
rest was left. -/
def assignAll {α : Type} (assign : Text → Text → α → Except Fault α) :
    Attributes → α → α × Option Fault
  | [], a => (a, none)
  | (key, value) :: rest, a =>
    match assign key value a with
    | .ok b => assignAll assign rest b
    | .error fault => (a, some fault)

/-- The outcome where a half-assigned object is of no use. -/
def whole {α : Type} : α × Option Fault → Except Fault α
  | (a, none) => .ok a
  | (_, some fault) => .error fault

end SchemaPackage
