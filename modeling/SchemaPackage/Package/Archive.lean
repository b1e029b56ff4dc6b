import SchemaPackage.Job

/-!
The archive of a package folder. Its entries are the folder itself and everything below it, in
depth-first order, under paths that start with the folder's own name.
-/
namespace SchemaPackage

namespace Package

def archiveEntry (top : Text) (e : Location × Entry) : ArchiveEntry where
  location := top :: e.1
  bytes := match e.2 with
    | .file content => some content.toBytes
    | .folder => none

/-- What of the things in a folder gets into an archive, and the fault that ends it early. The
first path that is too long does: its file cannot be opened, or its folder cannot be listed. -/
def reachable (folder : Path) :
    List (Location × Entry) → List (Location × Entry) × Option Fault
  | [] => ([], none)
  | (location, entry) :: rest =>
    let path := location.foldl Path.join folder
    if path.isUsable then
      let (things, fault) := reachable folder rest
      ((location, entry) :: things, fault)
    else
      match entry with
      | .file _ => ([(location, .file .empty)], some (.unreadable path))
      | .folder => ([(location, .folder)], some (.unreadable folder))

/-- The archive itself may be among the files, under the location `self`. It is archived as far
as it is written then, which is up to its own heading. -/
def settleSelf (self : Option Location) (entries : List ArchiveEntry) : List ArchiveEntry :=
  let before := entries.takeWhile fun e => some e.location != self
  match entries.dropWhile fun e => some e.location != self with
  | [] => entries
  | own :: after =>
    before ++ { own with bytes := some (Archive.unfinished before own) } :: after

/-- Archives a folder. The output is there even if the folder is not, and after a fault it has
the entries up to there. -/
def createArchive (folder output : Path) : Job Unit := do
  if let some parent := output.parent? then
    Job.advance (.unwritable output) (Disk.makeFolders parent)
  Job.change (.unwritable output) (Disk.write? output (.archive []))
  let location ← Job.require (.unreadable folder) fun d =>
    (d.locate? folder).filter fun location => (d.entryAt? location).isSome
  let (things, fault) := reachable folder (← Job.inspect (·.tree location))
  let self ← Job.inspect fun d => (d.locate? output).bind (Text.after? location)
  let top := folder.lastStep
  let entries := settleSelf (self.map (top :: ·)) (things.map (archiveEntry top))
  Job.change (.unwritable output) (Disk.write? output (.archive entries))
  if let some fault := fault then throw fault

end Package

end SchemaPackage
