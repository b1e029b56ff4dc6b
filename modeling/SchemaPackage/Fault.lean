import SchemaPackage.Path
import SchemaPackage.Text.Number

/-!
What can go wrong, by cause, and the wording of each cause.
-/
namespace SchemaPackage

inductive Fault
  | emptyName (entity : Text)
  | longName (entity name : Text)
  | emptyValue (field : Text)
  | notANumber (field value : Text)
  | unknownIndexKind (kind : Text)
  | unknownUnitKind (kind : Text)
  | unnamedTable
  | unloadableType (column dataType : Text)
  | wrongDictionary (expected given : Text)
  | changedLayout (table : Text)
  | unregistered (table : Text)
  | missingField (table field : Text)
  | unreadable (path : Path)
  | malformed (path : Path)
  | notATable (path : Path)
  | unwritable (path : Path)
  | copyFailed (source target : Path)
  | writeFailed (path : Path)
  | removeFailed (path : Path)
deriving DecidableEq

/-- The longest identifier, in bytes, that the database accepts. -/
def maxNameBytes : Nat := 30

namespace Fault

def invalid (reason : Text) : Text := "Validation error: " ++ reason

def badState (reason : Text) : Text := "Dictionary state error: " ++ reason

def message : Fault → Text
  | emptyName entity => invalid (entity ++ " name cannot be empty")
  | longName entity name =>
    invalid (entity ++ " name " ++ name ++ " exceeds " ++ Text.decimal maxNameBytes ++ " bytes")
  | emptyValue field => invalid (field ++ " cannot be empty")
  | notANumber field value => invalid (field ++ " must be a number, got '" ++ value ++ "'")
  | unknownIndexKind kind =>
    invalid ("Index type can only be \"PRIMARY\", \"UNIQUE\" or \"NON-UNIQUE\", got \""
      ++ kind ++ "\"")
  | unknownUnitKind kind => invalid ("Unknown object type: " ++ kind)
  | unnamedTable => invalid "Table name is not set"
  | unloadableType column dataType =>
    "Unsupported data type " ++ dataType ++ " for column " ++ column
  | wrongDictionary expected given =>
    badState ("Failed to initialize table " ++ expected ++ ", the given table is " ++ given)
  | changedLayout table =>
    badState ("Table " ++ table ++ " is already registered with a different column layout")
  | unregistered table => badState ("Table " ++ table ++ " is not registered")
  | missingField table field =>
    "Field '" ++ field ++ "' has no value for dictionary table " ++ table
  | unreadable path => "Failed to read schema file: " ++ path.text
  | malformed path => "Failed to parse schema file: " ++ path.text
  | notATable path =>
    "Invalid schema file " ++ path.text ++ ": expected a <table> description"
  | unwritable path => "Failed to write output to " ++ path.text
  | copyFailed source target => "Failed to copy " ++ source.text ++ " to " ++ target.text
  | writeFailed path => "Failed to write " ++ path.text
  | removeFailed path => "Failed to remove " ++ path.text

end Fault

end SchemaPackage
