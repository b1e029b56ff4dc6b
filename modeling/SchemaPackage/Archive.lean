import SchemaPackage.Archive.Deflate
import SchemaPackage.Text

/-!
What files hold: texts, archives and other bytes. The entries of an archive are compressed one
by one, and a directory at the end says where each of them starts.
-/
namespace SchemaPackage

/-- The names on the way down from a root. -/
abbrev Location := List Text

instance decidableEqBytes : DecidableEq ByteArray := ByteArray.instDecidableEq

/-- A folder or file inside an archive, which only files have bytes for. -/
structure ArchiveEntry where
  location : Location
  bytes : Option ByteArray
deriving DecidableEq

namespace ArchiveEntry

def path (e : ArchiveEntry) : Text := Text.joined "/" e.location

/-- The name of a folder ends in a slash, unless a backslash is there already. -/
def name (e : ArchiveEntry) : Text :=
  e.path ++ Text.onlyIf (e.bytes.isNone && !Text.endsWith "\\" e.path) "/"

def size (e : ArchiveEntry) : Nat := (e.bytes.map (·.size)).getD 0

end ArchiveEntry

/-- The bytes of a text in UTF-8. -/
def Text.utf8 (t : Text) : ByteArray := (String.ofList t).toUTF8

namespace Archive

def word (width n : Nat) : ByteArray :=
  ⟨(List.range width).toArray.map fun i => (n >>> (8 * i)).toUInt8⟩

/-- One bit of the cyclic redundancy check. -/
def crcBit (r : UInt32) : UInt32 :=
  if r &&& 1 = 1 then (r >>> 1) ^^^ 0xEDB88320 else r >>> 1

def crcByte (r : UInt32) (b : UInt8) : UInt32 :=
  Nat.repeat crcBit 8 (r ^^^ b.toUInt32)

def crc (bytes : ByteArray) : UInt32 :=
  (bytes.data.foldl crcByte 0xFFFFFFFF) ^^^ 0xFFFFFFFF

/-- What the two headers of an entry have in common: version, flag for a name in UTF-8, method of
compression, no time, checksum, sizes, and the length of the name. -/
def entryFields (e : ArchiveEntry) (packed : ByteArray) : ByteArray :=
  let bytes := e.bytes.getD .empty
  word 2 20 ++ word 2 (if e.name.all (·.toNat < 128) then 0 else 0x0800)
    ++ word 2 (if e.bytes.isNone then 0 else 8) ++ word 2 0 ++ word 2 0x21
    ++ word 4 (crc bytes).toNat ++ word 4 packed.size ++ word 4 bytes.size
    ++ word 2 e.name.byteLength ++ word 2 0

/-- What stands in front of the bytes of an entry. -/
def heading (e : ArchiveEntry) (packed : ByteArray) : ByteArray :=
  word 4 0x04034B50 ++ entryFields e packed ++ e.name.utf8

/-- The line of the directory for an entry that starts at `offset`. -/
def directoryPart (e : ArchiveEntry) (packed : ByteArray) (offset : Nat) : ByteArray :=
  word 4 0x02014B50 ++ word 2 0x0314 ++ entryFields e packed ++ word 2 0 ++ word 2 0 ++ word 2 0
    ++ word 4 (if e.bytes.isNone then 0x41ED0010 else 0x81A40000) ++ word 4 offset
    ++ e.name.utf8

def packedBytes (e : ArchiveEntry) : ByteArray := (e.bytes.map Deflate.encode).getD .empty

/-- Entries and directory side by side, `offset` bytes into the archive. -/
def partsFrom (offset : Nat) : List ArchiveEntry → ByteArray × ByteArray
  | [] => (.empty, .empty)
  | e :: rest =>
    let packed := packedBytes e
    let part := heading e packed ++ packed
    let (parts, directory) := partsFrom (offset + part.size) rest
    (part ++ parts, directoryPart e packed offset ++ directory)

/-- An archive that is being written, when the bytes of its last entry are still missing. -/
def unfinished (entries : List ArchiveEntry) (last : ArchiveEntry) : ByteArray :=
  (partsFrom 0 entries).1 ++ heading { last with bytes := some .empty } .empty

def encode (entries : List ArchiveEntry) : ByteArray :=
  let (parts, directory) := partsFrom 0 entries
  parts ++ directory ++ word 4 0x06054B50 ++ word 2 0 ++ word 2 0 ++ word 2 entries.length
    ++ word 2 entries.length ++ word 4 directory.size ++ word 4 parts.size ++ word 2 0

end Archive

/-- A file holds a text, an archive, or bytes that are neither. -/
inductive Content
  | text (t : Text)
  | archive (entries : List ArchiveEntry)
  | raw (bytes : ByteArray)
deriving DecidableEq

namespace Content

def empty : Content := text []

def ofBytes (bytes : ByteArray) : Content :=
  match String.fromUTF8? bytes with
  | some s => text s.toList
  | none => raw bytes

def toBytes : Content → ByteArray
  | text t => t.utf8
  | archive entries => Archive.encode entries
  | raw bytes => bytes

/-- The text that the bytes spell, if they spell one. -/
def text? : Content → Option Text
  | text t => some t
  | other => (String.fromUTF8? other.toBytes).map String.toList

def append (more : Text) : Content → Content
  | text t => text (t ++ more)
  | other => ofBytes (other.toBytes ++ more.utf8)

end Content

end SchemaPackage
