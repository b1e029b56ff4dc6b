import SchemaPackage.Context
import SchemaPackage.Disk

/-!
Work on a disk. A job that fails leaves the disk as far as it had got.
-/
namespace SchemaPackage

abbrev Job := ExceptT Fault (StateM Disk)

namespace Job

/-- What can be told from the disk as it is. -/
def inspect {α : Type} (look : Disk → α) : Job α :=
  fun d => (.ok (look d), d)

/-- What has to be found on the disk. -/
def require {α : Type} (fault : Fault) (find : Disk → Option α) : Job α :=
  fun d =>
    match find d with
    | some a => (.ok a, d)
    | none => (.error fault, d)

/-- A change that happens as a whole or not at all. -/
def change (fault : Fault) (f : Disk → Option Disk) : Job Unit :=
  fun d =>
    match f d with
    | some d => (.ok (), d)
    | none => (.error fault, d)

/-- A change that may stop halfway. -/
def advance (fault : Fault) (f : Disk → Disk × Bool) : Job Unit :=
  fun d =>
    match f d with
    | (d, true) => (.ok (), d)
    | (d, false) => (.error fault, d)

/-- Builds in a context, which is of no use any more after a fault. -/
def building {α : Type} (ctx : Context) (build : Build α) : Job (α × Context) :=
  fun d =>
    match build ctx with
    | (.ok a, ctx) => (.ok (a, ctx), d)
    | (.error fault, _) => (.error fault, d)

def write (p : Path) (text : Text) : Job Unit :=
  change (.unwritable p) (Disk.writeText? p text)

def copy (source target : Path) : Job Unit :=
  change (.unwritable target) (Disk.copy? source target)

def makeFolder (p : Path) : Job Unit :=
  advance (.unwritable p) (Disk.makeFolders p)

/-- The names of the files directly in a folder. -/
def fileNames (folder : Path) : Job (List Text) :=
  require (.unreadable folder) (·.fileNames? folder)

def isDescription (name : Text) : Bool :=
  match extension? name with
  | some (_, ext) => Text.sameUpToCase ext "xml"
  | none => false

/-- The names of the description files in a folder; no folder has none. -/
def descriptionNames (folder : Path) : Job (List Text) := do
  if ← inspect (·.isFolder folder) then
    return (← fileNames folder).filter isDescription
  else
    return []

def readText (p : Path) : Job Text :=
  require (.unreadable p) (·.text? p)

end Job

end SchemaPackage
