import SchemaPackage.Text.Blank
import SchemaPackage.Text.Number

/-!
How the loader reads a column, decided by the column's data type. A type belongs to a family by
its exact name, by how it begins, or by a size in parentheses after its name; each family has
one form of field clause, and a type outside all families cannot be loaded.
-/
namespace SchemaPackage

inductive TypeFamily
  | sized (size : Text)
  | number
  | date
  | timestamp
  | large
  | rowAddress
  | binary
deriving DecidableEq

namespace TypeFamily

open Text (after? beginsWith isBlank isDecimalDigit)

/-- The digits of a size such as `( 20 )` that a text begins with, blanks allowed around each
part. -/
def size? (t : Text) : Option Text :=
  match t.dropWhile isBlank with
  | '(' :: inner =>
    let inner := inner.dropWhile isBlank
    match inner.takeWhile isDecimalDigit, (inner.dropWhile isDecimalDigit).dropWhile isBlank with
    | d :: digits, ')' :: _ => some (d :: digits)
    | _, _ => none
  | _ => none

def sizeAfter? (t name : Text) : Option Text := (after? name t).bind size?

def sizedNames : List Text := ["CHAR", "VARCHAR", "VARCHAR2", "NVARCHAR", "NVARCHAR2"]

def numberNames : List Text := ["NUMBER", "INTEGER", "DECIMAL", "FLOAT"]

def largeNames : List Text := ["CLOB", "LONG", "XMLTYPE"]

def rowAddressNames : List Text := ["ROWID", "UROWID"]

def sized? (t : Text) : Option TypeFamily :=
  (sizedNames.findSome? (sizeAfter? t)).map sized

def number? (t : Text) : Option TypeFamily :=
  if numberNames.any (beginsWith · t) then some number else none

def date? (t : Text) : Option TypeFamily :=
  if t == "DATE" then some date else none

def timestamp? (t : Text) : Option TypeFamily :=
  if beginsWith "TIMESTAMP" t then some timestamp else none

def large? (t : Text) : Option TypeFamily :=
  if largeNames.contains t then some large else none

def rowAddress? (t : Text) : Option TypeFamily :=
  if rowAddressNames.contains t then some rowAddress else none

def binary? (t : Text) : Option TypeFamily :=
  (sizeAfter? t "RAW").map fun _ => binary

/-- The tests for the families; the first that succeeds decides. -/
def tests : List (Text → Option TypeFamily) :=
  [sized?, number?, date?, timestamp?, large?, rowAddress?, binary?]

/-- The family of a data type, whatever blanks stand around it. -/
def ofType? (dataType : Text) : Option TypeFamily :=
  tests.findSome? (· (Text.trim dataType))

end TypeFamily

/-- The longest text that the loader passes to a function in one piece. -/
def pieceLimit : Nat := 2000

def largeFieldSize : Nat := 1048576

/-- How many characters of a column's name its indicator field keeps. -/
def indicatorLength : Nat := 29

/-- The size is read as a number of 64 bits. One in digits other than the ASCII ones, or too large
to be read, counts as too long. -/
def fitsOnePiece (size : Text) : Bool :=
  match Text.natural? UInt64.size size with
  | some n => decide (n ≤ pieceLimit)
  | none => false

def indicatorName (column : Text) : Text := column.take indicatorLength ++ "#"

def wholeTextClause (column size : Text) : Text :=
  "," ++ column ++ " CHAR(" ++ size ++ ") \"TO_CHAR(:" ++ column ++ ")\""

def splitTextClause (column size : Text) : Text :=
  "," ++ column ++ " CHAR(" ++ size ++ ") \"TO_CHAR(SUBSTR(:" ++ column ++ ",1,"
    ++ Text.decimal pieceLimit ++ "))||TO_CHAR(SUBSTR(:" ++ column ++ ","
    ++ Text.decimal (pieceLimit + 1) ++ "))\""

def largeClause (column : Text) : Text :=
  ", " ++ indicatorName column ++ " FILTER CHAR\n," ++ column ++ " CHAR("
    ++ Text.decimal largeFieldSize ++ ") ENCLOSED BY '<start_lob>' AND '<end_lob>' NULLIF "
    ++ indicatorName column ++ "='Y'"

/-- The field clause of a column of this family, starting with a comma. -/
def TypeFamily.clause (column : Text) : TypeFamily → Text
  | sized size =>
    if fitsOnePiece size then wholeTextClause column size else splitTextClause column size
  | number => "," ++ column ++ " \"TO_NUMBER(:" ++ column ++ ")\""
  | date => "," ++ column ++ " DATE \"YYYY-MM-DD HH24:MI:SS\""
  | timestamp => "," ++ column ++ " TIMESTAMP \"YYYY-MM-DD HH24:MI:SS:FF3\""
  | large => largeClause column
  | rowAddress => "," ++ column ++ " CHAR(30) \"TO_CHAR(:" ++ column ++ ")\""
  | binary => "," ++ column ++ " \"HEXTORAW(:" ++ column ++ ")\""

def loadClause? (column dataType : Text) : Option Text :=
  (TypeFamily.ofType? dataType).map (·.clause column)

end SchemaPackage
