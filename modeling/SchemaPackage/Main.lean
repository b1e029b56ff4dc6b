import SchemaPackage.CommandLine
import Std.Time.Zoned

/-!
The program. It takes the folders that a request names from the real disk, answers the request
on them, and makes the changes on the real disk.
-/
namespace SchemaPackage.Main

open CommandLine Package

/-- Where a location is on the real disk. -/
def nativePath (location : Location) : String := String.ofList (Text.joined "/" ([] :: location))

/-- Takes over whatever is at a location, folders with all that they contain. -/
partial def load (d : Disk) (location : Location) : IO Disk := do
  try
    let path ← IO.FS.realPath (nativePath location)
    match (← path.metadata).type with
    | .dir =>
      let mut d := d.put location .folder
      for child in ← path.readDir do
        d ← load d (location ++ [child.fileName.toList])
      return d
    | .file => return d.put location (.file (.ofBytes (← IO.FS.readBinFile path)))
    | _ => return d
  catch _ => return d

/-- Takes over the folders on the way to a location, but not what else they contain. -/
def loadFolders (d : Disk) (location : Location) : IO Disk := do
  let mut d := d
  for n in List.range location.length do
    let above := location.take (n + 1)
    if !(d.entryAt? above).isSome then
      try
        let path ← IO.FS.realPath (nativePath above)
        if (← path.metadata).type == .dir then
          d := d.put above .folder
        else
          d := d.put above (.file (.ofBytes (← IO.FS.readBinFile path)))
      catch _ => pure ()
  return d

/-- The places that a path leads through when its steps are taken one after another. -/
def stations (here : Location) : List Text → List Location
  | [] => [here]
  | ['.', '.'] :: rest => here :: stations here.dropLast rest
  | piece :: rest => here :: stations (here ++ [piece]) rest

/-- Takes over the folders that a path leads through. -/
def loadWay (d : Disk) (p : Path) : IO Disk := do
  let mut d := d
  for place in stations (d.start p) p.steps do
    d ← loadFolders d place
  return d

def loadPath (d : Disk) (p : Path) (below : List Text) : IO Disk := do
  let mut d ← loadWay d p
  let last := (stations (d.start p) p.steps).getLast?.getD []
  for name in below do
    d ← load d (last ++ [name])
  return d

/-- Takes over what a compilation reads or replaces as a rule. -/
def loadFor (home : Location) : Request → IO Disk
  | .compile settings _ => do
    let mut d ← loadFolders { home } home
    d ← loadPath d settings.source rawFolders
    if let some shared := settings.shared then
      d ← loadPath d shared ("TOOLS" :: rawFolders)
    loadPath d settings.target ["DB", "DB_STAGING", "DB.zip"]
  | _ => return { home }

/-- Names in descriptions may lead anywhere. What is already where a compilation writes, and the
folders on the way to what it cannot write, are taken over until there is no more of them. -/
partial def loadOutlying (made : Moment) (settings : Settings) (d : Disk) : IO Disk := do
  let (outcome, after) := Compile.run made settings d
  let mut more := d
  if let .error (.unwritable p) := outcome then
    more ← loadWay more p
  for (location, _) in after.entries.toList do
    more ← loadFolders more location
  if more.entries.size == d.entries.size then return d
  loadOutlying made settings more

/-- Takes over what a request needs. -/
def loadAll (made : Moment) (home : Location) (wanted : Request) : IO Disk := do
  let d ← loadFor home wanted
  match wanted with
  | .compile settings _ => loadOutlying made settings d
  | _ => return d

def sameKind : Entry → Entry → Bool
  | .folder, .folder => true
  | .file _, .file _ => true
  | _, _ => false

/-- Removes what is gone, the innermost first, and then puts what is new or changed. -/
def store (before after : Disk) : IO Unit := do
  for (location, entry) in before.entries.toList.reverse do
    if !((after.entries[location]?).map (sameKind entry)).getD false then
      match entry with
      | .folder => IO.FS.removeDir (nativePath location)
      | .file _ => IO.FS.removeFile (nativePath location)
  for (location, entry) in after.entries.toList do
    if before.entries[location]? != some entry then
      match entry with
      | .folder => IO.FS.createDirAll (nativePath location)
      | .file content => IO.FS.writeBinFile (nativePath location) content.toBytes

def now : IO Moment := do
  let t ← Std.Time.PlainDateTime.now
  return {
    year := t.year.toInt.toNat
    month := t.month.val.toNat
    day := t.day.val.toNat
    weekday := t.weekday.toOrdinal.val.toNat
    hour := t.hour.val.toNat
    minute := t.minute.val.toNat
    second := t.second.val.toNat }

def run (args : List String) : IO UInt32 := do
  let snapshots ← IO.getEnv "DBPACK_ENABLE_SNAPSHOT"
  let wanted := request (snapshots.map String.toList) (args.map String.toList)
  let home := (Path.ofText (← IO.currentDir).toString.toList).steps
  let made ← now
  let before ← loadAll made home wanted
  let (report, after) := perform made before wanted
  try
    store before after
  catch failure =>
    IO.eprint ("Error: " ++ toString failure ++ "\n")
    return 1
  IO.print (String.ofList report.output)
  IO.eprint (String.ofList report.errors)
  return report.exitCode

end SchemaPackage.Main

def main (args : List String) : IO UInt32 := SchemaPackage.Main.run args
