import SchemaPackage.Table

/-!
Control files, which tell the loader how the records of a data file fill a table.
-/
namespace SchemaPackage

/-- Ends every record of a data file. -/
def recordEnd : Text := "#$EOR$#\r\n"

/-- The end of records as control files spell it. -/
def recordEndSpelling : Text := "#$EOR$#\\r\\n"

namespace Table

/-- Types whose columns rule out the direct path. -/
def indirectTypes : List Text := ["CLOB", "BLOB", "LONG"]

def loadsDirectly (t : Table) : Bool :=
  !t.columns.toList.any fun c => indirectTypes.contains c.dataType

/-- The clauses of all columns, or the fault of the first that has none. -/
def fieldClauses : List Column → Except Fault (List Text)
  | [] => .ok []
  | c :: rest =>
    match c.fieldClause with
    | .ok clause => (fieldClauses rest).map (clause :: ·)
    | .error fault => .error fault

/-- Field clauses start with a comma, except for the first. -/
def dropFirstComma : List Text → List Text
  | [] => []
  | line :: more => line.dropWhile (· == ',') :: more

def directText (direct : Bool) : Text := if direct then "TRUE" else "FALSE"

def controlText (target : Text) (direct : Bool) (fields : List Text) : Text :=
  Text.joined "\n"
    (["OPTIONS (SILENT=(HEADER, FEEDBACK), DIRECT=" ++ directText direct ++ ")",
      "LOAD DATA",
      "CHARACTERSET UTF8",
      "LENGTH SEMANTICS CHAR",
      "BYTEORDERMARK CHECK",
      "INFILE '" ++ target ++ ".DAT' \"STR '" ++ recordEndSpelling ++ "'\"",
      "APPEND",
      "INTO TABLE " ++ target,
      "FIELDS TERMINATED BY ',' OPTIONALLY ENCLOSED BY '\"' AND '\"'",
      "TRAILING NULLCOLS",
      "("] ++ dropFirstComma fields ++ [(")" : Text)])

/-- The control file that loads `target`, a table of the same columns. -/
def controlFileFor (target : Text) (t : Table) : Except Fault Text :=
  (fieldClauses t.sortedColumns).map (controlText target t.loadsDirectly)

def isLoaded (t : Table) : Bool := t.loadOnInstall || t.loadOnUpgrade

/-- Tables that are never loaded have no control file. -/
def controlFile (t : Table) : Except Fault (Option Text) :=
  if t.isLoaded then (t.controlFileFor t.name).map some else .ok none

end Table

end SchemaPackage
