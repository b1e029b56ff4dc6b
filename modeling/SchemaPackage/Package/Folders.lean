import SchemaPackage.Dictionary.Encoder
import SchemaPackage.Job

/-!
The folders of a package, and how they are filled from the folders that schemas are described
in.
-/
namespace SchemaPackage.Package

def packageFolders : List Text :=
  ["TOOLS", "TABLE", "INIT_TABLE", "VIEW", "PACKAGE", "PROCEDURE", "FUNCTION", "TYPE",
   "TRIGGER", "SEQUENCE", "SYNONYM"]

def toolFolders : List Text := ["SCHEMA_CREATION", "COMMON", "AUTO_UPGRADE"]

/-- The folders whose files describe a schema or are taken over as they are. -/
def rawFolders : List Text :=
  ["TABLE", "VIEW", "PACKAGE", "PROCEDURE", "FUNCTION", "TYPE", "TRIGGER", "SEQUENCE",
   "SYNONYM"]

/-- Makes the folders of a package named `name`, in place of whatever stood there. -/
def createStructure (root : Path) (name : Text) : Job Path := do
  let folder := root.join name
  if ← Job.inspect (·.isThere folder) then
    Job.advance (.unwritable folder) (Disk.removeFolder folder)
  packageFolders.forM fun f => Job.makeFolder (folder.join f)
  toolFolders.forM fun f => Job.makeFolder ((folder.join "TOOLS").join f)
  return folder

/-- Copies the files directly in one raw folder. A missing folder has none. -/
def copyRawFolder (source target : Path) : Job Unit := do
  if ← Job.inspect (·.isFolder source) then
    Job.makeFolder target
    (← Job.fileNames source).forM fun name => Job.copy (source.join name) (target.join name)

def copyRaw (source target : Path) : Job Unit :=
  rawFolders.forM fun f => copyRawFolder (source.join f) (target.join f)

/-- Copies one entry of the tools to the same place below `target`. A folder is made before it
turns out that it cannot be gone through, because its path is too long. -/
def copyTemplate (source target : Path) (entry : Location × Entry) : Job Unit := do
  let name := Text.joined "/" (("TOOLS" : Text) :: entry.1)
  match entry.2 with
  | .folder =>
    Job.makeFolder (target.join name)
    if !(source.join name).isUsable then
      throw (Fault.unreadable (source.join "TOOLS"))
  | .file _ => Job.copy (source.join name) (target.join name)

def copyTemplates (source target : Path) : Job Unit := do
  let tools ← Job.inspect fun d =>
    if d.isFolder (source.join "TOOLS") then
      ((d.locate? (source.join "TOOLS")).map d.below).getD []
    else []
  tools.forM (copyTemplate source target)

def recordsFolder (db : Path) : Path := db.join "INIT_TABLE"

def dataFile (db : Path) (table : Text) : Path := (recordsFolder db).join (table ++ ".DAT")

def controlFile (db : Path) (table : Text) : Path := (recordsFolder db).join (table ++ ".CTL")

/-- The table that an upgrade is loaded into before it replaces a dictionary table. -/
def upgradeName (d : Dictionary) : Text := d.tableName ++ "_UPGRADE"

/-- The records of an upgrade start out as those of an installation. -/
def cloneRecords (db : Path) : Job Unit :=
  Dictionary.all.forM fun d => Job.copy (dataFile db d.tableName) (dataFile db (upgradeName d))

def writeRelease (db : Path) (release : Text) : Job Unit :=
  Job.write (db.join "RELEASE.TXT") release

end SchemaPackage.Package
