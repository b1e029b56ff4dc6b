import SchemaPackage.Job

/-!
The script that installs a package from scratch: it runs the statements of each folder, loads
the data files, notes the release and creates the indexes last.
-/
namespace SchemaPackage.Package

/-- When a script was made. Days of the week and months are numbered from 1, weeks starting on
Mondays. -/
structure Moment where
  year : Nat
  month : Nat
  day : Nat
  weekday : Nat
  hour : Nat
  minute : Nat
  second : Nat

namespace Moment

def weekdayNames : List Text := ["Mon", "Tue", "Wed", "Thu", "Fri", "Sat", "Sun"]

def monthNames : List Text :=
  ["Jan", "Feb", "Mar", "Apr", "May", "Jun", "Jul", "Aug", "Sep", "Oct", "Nov", "Dec"]

/-- A number of two places, filled up in front. -/
def twoPlaces (filler : Text) (n : Nat) : Text :=
  if n < 10 then filler ++ Text.decimal n else Text.decimal n

def text (m : Moment) : Text :=
  weekdayNames.getD (m.weekday - 1) [] ++ " " ++ monthNames.getD (m.month - 1) [] ++ " "
    ++ twoPlaces " " m.day ++ " " ++ twoPlaces "0" m.hour ++ ":" ++ twoPlaces "0" m.minute
    ++ ":" ++ twoPlaces "0" m.second ++ " " ++ Text.decimal m.year

end Moment

namespace InstallScript

def rule : Text :=
  "-- -------------------------------------------------------------------------------------\n"

def preamble : Text :=
  Text.joined "\n"
    ["alter session set NLS_DATE_LANGUAGE='AMERICAN';",
     "alter session set NLS_NUMERIC_CHARACTERS='.,';",
     "alter session set NLS_LENGTH_SEMANTICS=&SEMANTIC;",
     "alter user &CENTRAL_NAME default role none;",
     "begin",
     " IF USER <> '&CENTRAL_NAME' THEN",
     "   RAISE_APPLICATION_ERROR(-20000,'This script must be run when connected as &CENTRAL_NAME');",
     " END IF;",
     "end;",
     "/",
     "set serveroutput on size unlimited \n"]

/-- The heading of a part. -/
def banner (title : Text) : Text :=
  rule ++ "-- CREATE " ++ title ++ " \n" ++ rule ++ "prompt --- CREATE " ++ title
    ++ " \nset echo off timing off \n"

def objectPiece (folder ext name : Text) : Text :=
  let file := "\"&DB_DIR/" ++ folder ++ "/" ++ name ++ "." ++ ext ++ "\"\n"
  "prompt " ++ file ++ "@" ++ file

def tablePiece (ext tablespace name : Text) : Text :=
  let file := "\"&DB_DIR/TABLE/" ++ name ++ "." ++ ext ++ "\" &" ++ tablespace ++ "\n"
  "set feed on heading on timing on term on\nprompt " ++ file ++ "@" ++ file ++ "\n"

def loaderPiece (table : Text) : Text :=
  let call := "host \"&SQLLDR_SCRIPT\" " ++ table ++ " \"&NEW_CENTRAL_CONNECTION\" "
    ++ "\"&DB_DIR/INIT_TABLE/" ++ table ++ ".DAT\" \"&DB_DIR/INIT_TABLE/" ++ table
    ++ ".CTL\" \"&OUTPUT_DIR\""
  Text.joined "\n"
    ["set feed on heading on timing on term on",
     "prompt Loading " ++ table ++ " with SQL*Loader...",
     "exec EXEC_IMMEDIATE('alter table " ++ table ++ " disable all triggers');",
     "prompt " ++ call,
     call,
     "prompt \"&OUTPUT_DIR/LOAD_SQLLDR.RC\"",
     "@\"&OUTPUT_DIR/LOAD_SQLLDR.RC\"",
     "exec EXEC_IMMEDIATE('alter table " ++ table ++ " enable all triggers');",
     "\n"]

def releaseInsert (release product : Text) : Text :=
  "insert into application(product, release_date, release_number)values('" ++ product
    ++ "', sysdate, '" ++ release ++ "');"

def releaseInserts (release : Text) : Text :=
  Text.joined "\n" [releaseInsert release "Z", releaseInsert release "W", "commit;\n"]

def closing : Text :=
  rule ++ "-- Show errors\n" ++ rule ++ "select * from user_errors;\n"
    ++ "select 'ORA-20000: [' ||  object_type ||  ' -  ' || table_name || "
    ++ "'] is not succesfully installed.' error_msg "
    ++ "from db_objects where table_name not in (select object_name from user_objects);\n"

/-- The pieces for those files of a folder that are to be kept, each under the file's stem. -/
def pieces (keep : Text → Bool) (piece : Text → Text) (files : List Text) : Text :=
  (files.filter keep).flatMap fun file => piece (stem file)

def isIndexFile (file : Text) : Bool := Text.endsWith ".IDX.SQL" file

/-- The part that creates the objects of a folder. -/
def objects (title folder ext : Text) (keep : Text → Bool) (files : List Text) : Text :=
  banner title ++ pieces keep (objectPiece folder ext) files

/-- The part for a folder with one statement file for each object. -/
def statements (folder : Text) (files : List Text) : Text :=
  objects folder folder "SQL" (fun _ => true) files

def tables (files : List Text) : Text :=
  banner "TABLE" ++ pieces (!isIndexFile ·) (tablePiece "SQL" "TBS_DATA") files

def indexes (files : List Text) : Text :=
  banner "INDEXES" ++ pieces isIndexFile (tablePiece "IDX.SQL" "TBS_INDEX") files

def loading (files : List Text) : Text :=
  banner "INIT DATA using SQL Loader"
    ++ "DEFINE SQLLDR_SCRIPT=\"&DB_DIR/TOOLS/COMMON/LOAD_SQLLDR.BAT\" \n"
    ++ "prompt SQLLDR_SCRIPT=&SQLLDR_SCRIPT \n"
    ++ pieces (Text.endsWith ".DAT") loaderPiece files

/-- The script for a package whose folders hold the given files. -/
def render (made : Moment) (release : Text) (files : Text → List Text) : Text :=
  "--This script was generated on " ++ made.text ++ ". \n" ++ preamble
    ++ statements "TYPE" (files "TYPE")
    ++ tables (files "TABLE")
    ++ statements "SEQUENCE" (files "SEQUENCE")
    ++ statements "FUNCTION" (files "FUNCTION")
    ++ statements "PROCEDURE" (files "PROCEDURE")
    ++ objects "PACKAGE_HEADER" "PACKAGE" "PKS" (Text.endsWith ".PKS") (files "PACKAGE")
    ++ statements "VIEW" (files "VIEW")
    ++ objects "PACKAGE_BODY" "PACKAGE" "PKB" (Text.endsWith ".PKB") (files "PACKAGE")
    ++ loading (files "INIT_TABLE")
    ++ banner "Load application release table" ++ releaseInserts release
    ++ indexes (files "TABLE")
    ++ closing

/-- The script for the package in a folder. Folders that are missing hold no files. -/
def ofFolder (made : Moment) (release : Text) (db : Path) (d : Disk) : Text :=
  render made release fun folder => (d.fileNames? (db.join folder)).getD []

end InstallScript

end SchemaPackage.Package
