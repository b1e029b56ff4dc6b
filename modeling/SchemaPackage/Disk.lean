import SchemaPackage.Archive
import SchemaPackage.Path
import Std.Data.ExtTreeMap

/-!
A disk: files and folders at their locations. The order of locations puts a folder before what
it contains and goes through one folder before it turns to the next, so listings in that order
are in depth-first order.
-/
namespace SchemaPackage

inductive Entry
  | file (content : Content)
  | folder
deriving DecidableEq

instance transOrdLocation : Std.TransOrd Location := inferInstance

/-- The root is a folder that has no entry; relative paths start at `home`. Nothing new can be
put into a closed folder. -/
structure Disk where
  entries : Std.ExtTreeMap Location Entry := ∅
  home : Location := []
  closed : List Location := []

namespace Disk

def entryAt? (d : Disk) (location : Location) : Option Entry :=
  if location = [] then some .folder else d.entries[location]?

def put (location : Location) (entry : Entry) (d : Disk) : Disk :=
  { d with entries := d.entries.insert location entry }

def isFolderAt (d : Disk) (location : Location) : Bool :=
  d.entryAt? location == some .folder

/-- One step of a path, which has to start from a folder. It may end where nothing is yet. -/
def step? (d : Disk) (here : Location) (piece : Text) : Option Location :=
  if !d.isFolderAt here then none
  else if piece.isEmpty || piece == "." then some here
  else if piece == ".." then some here.dropLast
  else some (here ++ [piece])

def follow? (d : Disk) (here : Location) : List Text → Option Location
  | [] => some here
  | piece :: rest => (d.step? here piece).bind fun there => d.follow? there rest

def start (d : Disk) (p : Path) : Location := if p.isAbsolute then [] else d.home

/-- The location that a path leads to, if all folders on the way are there. -/
def locate? (d : Disk) (p : Path) : Option Location :=
  if p.isUsable then d.follow? (d.start p) p.pieces else none

def entry? (d : Disk) (p : Path) : Option Entry := (d.locate? p).bind d.entryAt?

def isThere (d : Disk) (p : Path) : Bool := (d.entry? p).isSome

def isFolder (d : Disk) (p : Path) : Bool := d.entry? p == some .folder

def content? (d : Disk) (p : Path) : Option Content :=
  match d.entry? p with
  | some (.file content) => some content
  | _ => none

def text? (d : Disk) (p : Path) : Option Text := (d.content? p).bind Content.text?

def maxFileNameBytes : Nat := 255

/-- A folder takes a new entry if it is not closed and the name is acceptable. -/
def takesNew (d : Disk) (folder : Location) (name : Text) : Bool :=
  !d.closed.contains folder && name.byteLength ≤ maxFileNameBytes

/-- A file can be written where one is, or where nothing is and the folder takes it. -/
def acceptsFile (d : Disk) (location : Location) : Bool :=
  match d.entryAt? location with
  | some (.file _) => true
  | some .folder => false
  | none => (location.getLast?.map (d.takesNew location.dropLast)).getD false

def write? (p : Path) (content : Content) (d : Disk) : Option Disk :=
  match d.locate? p with
  | some location => if d.acceptsFile location then some (d.put location (.file content)) else none
  | none => none

def writeText? (p : Path) (text : Text) (d : Disk) : Option Disk := d.write? p (.text text)

/-- Adds to the end of a file, which is created if it is not there. -/
def append? (p : Path) (text : Text) (d : Disk) : Option Disk :=
  d.write? p (((d.content? p).getD .empty).append text)

/-- The target is emptied before the source is read, so a file copied onto itself is lost. -/
def copy? (source target : Path) (d : Disk) : Option Disk := do
  let _ ← d.content? source
  let d ← d.write? target .empty
  let content ← d.content? source
  d.write? target content

/-- Makes the missing folders on a way down, as far as it is free. -/
def makeFrom (here : Location) (d : Disk) : List Text → Disk × Bool
  | [] => (d, true)
  | piece :: rest =>
    if piece.isEmpty || piece == "." then makeFrom here d rest
    else if piece == ".." then makeFrom here.dropLast d rest
    else
      let there := here ++ [piece]
      match d.entryAt? there with
      | some .folder => makeFrom there d rest
      | some (.file _) => (d, false)
      | none =>
        if d.takesNew here piece then makeFrom there (d.put there .folder) rest else (d, false)

def makeFolders (p : Path) (d : Disk) : Disk × Bool :=
  if p.isUsable then makeFrom (d.start p) d p.pieces else (d, false)

def removeBelow (location : Location) (d : Disk) : Disk :=
  { d with entries := d.entries.filter fun l _ => l = location || !location.isPrefixOf l }

def remove (location : Location) (d : Disk) : Disk :=
  { d with entries := d.entries.erase location }

/-- Removes a folder with all that it contains. It stays, empty, if its path led through what it
contained, which is no fault; and under the name of a dot it can be emptied but not removed. -/
def removeFolder (p : Path) (d : Disk) : Disk × Bool :=
  match d.locate? p with
  | none => (d, false)
  | some location =>
    if !d.isFolderAt location then (d, false)
    else
      let emptied := d.removeBelow location
      if (emptied.locate? p).isNone then (emptied, true)
      else if (p.pieces.filter (!·.isEmpty)).getLastD [] == "." then (emptied, false)
      else (emptied.remove location, true)

/-- Everything below a location, located from there. -/
def below (d : Disk) (location : Location) : List (Location × Entry) :=
  d.entries.toList.filterMap fun e =>
    match Text.after? location e.1 with
    | some (name :: rest) => some (name :: rest, e.2)
    | _ => none

/-- Whatever is at a location, followed by everything below it. -/
def tree (d : Disk) (location : Location) : List (Location × Entry) :=
  match d.entryAt? location with
  | some entry => ([], entry) :: d.below location
  | none => []

/-- The names of the files directly at a location, in order. -/
def filesAt (d : Disk) (location : Location) : List Text :=
  (d.below location).filterMap fun e =>
    match e with
    | ([name], .file _) => some name
    | _ => none

/-- The names of the files that are seen in a folder, in order. A file is not seen if its own
path is too long. -/
def fileNames? (d : Disk) (folder : Path) : Option (List Text) :=
  match d.locate? folder with
  | some location =>
    if d.isFolderAt location then
      some ((d.filesAt location).filter fun name => (folder.join name).isUsable)
    else none
  | none => none

end Disk

end SchemaPackage
