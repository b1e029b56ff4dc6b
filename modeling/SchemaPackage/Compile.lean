import SchemaPackage.Artifacts
import SchemaPackage.Description
import SchemaPackage.Package.Archive
import SchemaPackage.Package.Folders
import SchemaPackage.Package.InstallScript

/-!
Compilation of a described schema into a package and its archive. Shared descriptions and then
the product's own are gathered in a staging folder; the package is generated from there.
-/
namespace SchemaPackage

open Package

/-- What a compilation leaves to chance: the order in which the columns of a table are gone
through, and which fault is reported when several tables cannot be rendered. -/
structure Chance where
  order : ColumnOrder := .creation
  choice : FaultChoice := .first

/-- What a compilation is asked for, together with the chance that it meets with. -/
structure Settings where
  source : Path
  shared : Option Path
  target : Path
  release : Text
  tracked : Bool
  chance : Chance := {}

namespace Compile

def parseTableFile (ctx : Context) (p : Path) (tracked : Bool) : Job (Option Table × Context) := do
  let text ← Job.readText p
  Job.building ctx (Description.parseTable p text tracked)

def parseUnitFile (p : Path) : Job (Option ProgramUnit) := do
  let text ← Job.readText p
  (Description.parseUnit p text : Except Fault (Option ProgramUnit))

/-- Registers dictionary tables from their descriptions; they are never tracked. -/
def registerAll (staging : Path) (e : Encoder) (ctx : Context) :
    List Dictionary → Job (Encoder × Context)
  | [] => return (e, ctx)
  | d :: rest => do
    let p := (staging.join "TABLE").join (d.tableName ++ ".XML")
    match ← parseTableFile ctx p false with
    | (none, _) => throw (Fault.notATable p)
    | (some t, ctx) =>
      let e ← (e.register d t : Except Fault Encoder)
      registerAll staging e ctx rest

/-- The tables that the files of a folder describe, in the order of the files. -/
def parseTables (folder : Path) (tracked : Bool) (ctx : Context) : List Text → Job (List Table)
  | [] => return []
  | name :: rest => do
    let (t?, ctx) ← parseTableFile ctx (folder.join name) tracked
    let more ← parseTables folder tracked ctx rest
    return t?.toList ++ more

def appendRecords (db : Path) (d : Dictionary) (records : Text) : Job Unit :=
  let p := dataFile db d.tableName
  Job.change (.unwritable p) (Disk.append? p records)

def writeArtifacts (db : Path) (a : Artifacts) : Job Unit := do
  Job.write ((db.join "TABLE").join (a.name ++ ".SQL")) a.tableStatement
  if let some statements := a.indexStatements then
    Job.write ((db.join "TABLE").join (a.name ++ ".IDX.SQL")) statements
  if let some text := a.controlFile then
    Job.write (controlFile db a.name) text

/-- Writes the files of a table and adds its records to the dictionary's. -/
def addTable (db : Path) (a : Artifacts) : Job Unit := do
  writeArtifacts db a
  appendRecords db .tableColumns a.columnRecords
  appendRecords db .objects a.objectRecord
  appendRecords db .objects a.indexRecords

/-- All tables are rendered before anything is written. -/
def generateTables (choice : FaultChoice) (e : Encoder) (staging db : Path) (tracked : Bool)
    (ctx : Context) : Job Unit := do
  let folder := staging.join "TABLE"
  let tables ← parseTables folder tracked ctx (← Job.descriptionNames folder)
  let artifacts ← (Artifacts.renderAll e tables choice : Except Fault (List Artifacts))
  Dictionary.all.forM fun d => appendRecords db d []
  artifacts.forM (addTable db)

/-- Takes over one source file of a program unit. -/
def copySource (source target : Path) (name : Text) : Job Unit :=
  Job.change (.copyFailed (source.join name) (target.join name))
    (Disk.copy? (source.join name) (target.join name))

/-- Records the unit that a file describes and takes over its source files, which have the
name of the description. -/
def addUnit (e : Encoder) (source target db : Path) (kind : UnitKind) (name : Text) :
    Job Unit := do
  if let some u ← parseUnitFile (source.join name) then
    appendRecords db .objects (← (u.objectRecord e : Except Fault Text))
    (kind.extensions.filterMap (withExtension? name)).forM (copySource source target)

/-- The folder decides which source files a description goes with. -/
def addUnits (e : Encoder) (staging db : Path) (kind : UnitKind) : Job Unit := do
  let source := staging.join kind.name
  (← Job.descriptionNames source).forM (addUnit e source (db.join kind.name) db kind)

def generateUnits (e : Encoder) (staging db : Path) : Job Unit := do
  appendRecords db .objects []
  UnitKind.all.forM (addUnits e staging db)

/-- Upgrade tables that are not described themselves are loaded like the tables they are for. -/
def writeUpgradeControl (e : Encoder) (db : Path) (d : Dictionary) : Job Unit := do
  let p := controlFile db (upgradeName d)
  if !(← Job.inspect (·.isThere p)) then
    if let some t := e.table? d then
      let text ← (t.controlFileFor (upgradeName d) : Except Fault Text)
      Job.change (.writeFailed p) (Disk.writeText? p text)

def scriptFile (db : Path) : Path :=
  ((db.join "TOOLS").join "SCHEMA_CREATION").join "IFS_MODEL.SQL"

def writeScript (made : Moment) (release : Text) (db : Path) : Job Unit := do
  let text ← Job.inspect (InstallScript.ofFolder made release db)
  Job.change (.writeFailed (scriptFile db)) (Disk.writeText? (scriptFile db) text)

/-- Gathers the descriptions, those of the product last. -/
def stage (settings : Settings) (staging : Path) : Job Unit := do
  if let some shared := settings.shared then
    copyRaw shared staging
  copyRaw settings.source staging

/-- Generates the package from the staged descriptions. -/
def generate (made : Moment) (settings : Settings) (staging db : Path) : Job Unit := do
  let (e, ctx) ← registerAll staging { order := settings.chance.order } {} Dictionary.all
  generateTables settings.chance.choice e staging db settings.tracked ctx
  generateUnits e staging db
  cloneRecords db
  Dictionary.all.forM (writeUpgradeControl e db)
  writeScript made settings.release db
  if let some shared := settings.shared then
    copyTemplates shared db
  writeRelease db settings.release

/-- Compiles the schema, and returns the path of the archive. The staging folder is removed only
after success. -/
def run (made : Moment) (settings : Settings) : Job Path := do
  let db ← createStructure settings.target "DB"
  let staging ← createStructure settings.target "DB_STAGING"
  stage settings staging
  generate made settings staging db
  let package := settings.target.join "DB.zip"
  createArchive db package
  Job.advance (.removeFailed staging) (Disk.removeFolder staging)
  return package

end Compile

end SchemaPackage
