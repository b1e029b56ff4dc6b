import SchemaPackage.Text

/-!
Paths as they are written, and the parts of file names. Two spellings may lead to the same
place; messages quote the spelling, so a path keeps it and is resolved only by the disk.
-/
namespace SchemaPackage

/-- What stands between the slashes, empty pieces and dots included. -/
structure Path where
  pieces : List Text
deriving DecidableEq

namespace Path

def ofText (t : Text) : Path := ⟨Text.split '/' t⟩

def text (p : Path) : Text := Text.joined "/" p.pieces

/-- An absolute path has a slash in front of everything else. -/
def isAbsolute (p : Path) : Bool :=
  match p.pieces with
  | [] :: _ :: _ => true
  | _ => false

/-- The longest path, in bytes, that the system follows. -/
def maxBytes : Nat := 4095

/-- A path that is too long, or that holds the character which ends paths, leads nowhere. -/
def isUsable (p : Path) : Bool := p.text.byteLength ≤ maxBytes && !p.text.contains '\x00'

/-- The pieces that another piece may follow; a slash at the end is already there. -/
def stump (p : Path) : List Text :=
  if p.pieces.getLast? = some [] then p.pieces.dropLast else p.pieces

/-- The path of `name` as seen from `p`; an absolute name is seen the same from everywhere. -/
def join (p : Path) (name : Text) : Path :=
  let q := ofText name
  if q.isAbsolute then q else ⟨p.stump ++ q.pieces⟩

/-- The pieces that lead somewhere: neither empty nor a single dot. -/
def steps (p : Path) : List Text := p.pieces.filter fun s => !(s.isEmpty || s == ".")

/-- The name that the path ends in; it is empty for a path without steps. -/
def lastStep (p : Path) : Text := p.steps.getLastD []

/-- The path without its last step; there is none above the root and the empty path. -/
def parent? (p : Path) : Option Path :=
  if p.steps.isEmpty then none
  else some ⟨(if p.isAbsolute then [[], []] else []) ++ p.steps.dropLast⟩

end Path

/-- The part of a file name before the first dot. -/
def stem (name : Text) : Text := name.takeWhile (· != '.')

/-- The last dot of a file name parts the base from the extension. A name whose only dot comes
first has no extension. -/
def extension? (name : Text) : Option (Text × Text) :=
  match (Text.split '.' name).reverse with
  | ext :: base :: more =>
    let front := Text.joined "." (base :: more).reverse
    if front.isEmpty then none else some (front, ext)
  | _ => none

/-- The name with another extension. A base of one dot leaves no name, because the base and the
dot behind it lead to the folder above. -/
def withExtension? (name ext : Text) : Option Text :=
  match extension? name with
  | some (front, _) => if front == "." then none else some (front ++ "." ++ ext)
  | none => some (name ++ "." ++ ext)

end SchemaPackage
