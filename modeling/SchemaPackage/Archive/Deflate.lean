import SchemaPackage.Archive.PrefixCode
import SchemaPackage.Archive.Repeats

/-!
Compression of bytes in the DEFLATE format. A block is written with a prefix code of its own,
with the fixed one if it is short, or as it is if that is not longer.
-/
namespace SchemaPackage.Archive.Deflate

/-- The least values of the ranges that lengths of copies are divided into. -/
def lengthBases : List Nat :=
  [3, 4, 5, 6, 7, 8, 9, 10, 11, 13, 15, 17, 19, 23, 27, 31, 35, 43, 51, 59, 67, 83, 99, 115, 131,
   163, 195, 227, 258]

/-- How many bits tell the values of a range apart. -/
def lengthBits : List Nat :=
  [0, 0, 0, 0, 0, 0, 0, 0, 1, 1, 1, 1, 2, 2, 2, 2, 3, 3, 3, 3, 4, 4, 4, 4, 5, 5, 5, 5, 0]

def distanceBases : List Nat :=
  [1, 2, 3, 4, 5, 7, 9, 13, 17, 25, 33, 49, 65, 97, 129, 193, 257, 385, 513, 769, 1025, 1537, 2049,
   3073, 4097, 6145, 8193, 12289, 16385, 24577]

def distanceBits : List Nat :=
  [0, 0, 0, 0, 1, 1, 2, 2, 3, 3, 4, 4, 5, 5, 6, 6, 7, 7, 8, 8, 9, 9, 10, 10, 11, 11, 12, 12, 13, 13]

/-- The number of the range that a value lies in. -/
def rangeOf (bases : List Nat) (value : Nat) : Nat := (bases.takeWhile (· ≤ value)).length - 1

/-- Number 256 among the bytes and lengths ends a block. -/
def endOfBlock : Nat := 256

def lengthSymbol (length : Nat) : Nat := endOfBlock + 1 + rangeOf lengthBases length

def distanceSymbol (distance : Nat) : Nat := rangeOf distanceBases distance

/-- One code for bytes and lengths and one for distances. -/
structure Codes where
  main : PrefixCode
  distances : PrefixCode

def maxWordLength : Nat := 15

def fixedLengths : List Nat :=
  List.replicate 144 8 ++ List.replicate 112 9 ++ List.replicate 24 7 ++ List.replicate 8 8

def fixed : Codes where
  main := .ofLengths maxWordLength fixedLengths.toArray
  distances := .ofLengths maxWordLength (Array.replicate 32 5)

/-- The number of a value's range, and then where it lies in the range. -/
def putRanged (code : PrefixCode) (bases bits : List Nat) (first : Nat) (w : BitWriter)
    (value : Nat) : BitWriter :=
  let i := rangeOf bases value
  (code.put w (first + i)).put (value - bases.getD i 0) (bits.getD i 0)

def putSymbol (codes : Codes) (w : BitWriter) : Symbol → BitWriter
  | .literal byte => codes.main.put w byte.toNat
  | .copy length distance =>
    let w := putRanged codes.main lengthBases lengthBits (endOfBlock + 1) w length
    putRanged codes.distances distanceBases distanceBits 0 w distance

def putSymbols (codes : Codes) (w : BitWriter) (symbols : Array Symbol) : BitWriter :=
  codes.main.put (symbols.foldl (putSymbol codes) w) endOfBlock

/-- How often what is coded occurs in a block. -/
def frequencies (symbols : Array Symbol) : Array Nat × Array Nat :=
  symbols.foldl
    (fun (main, distances) symbol =>
      match symbol with
      | .literal byte => (main.modify byte.toNat (· + 1), distances)
      | .copy length distance =>
        (main.modify (lengthSymbol length) (· + 1),
          distances.modify (distanceSymbol distance) (· + 1)))
    ((Array.replicate 286 0).set! endOfBlock 1, Array.replicate 30 0)

/-- The list without the zeros at its end, but not shorter than the given length. -/
def trimmed (least : Nat) (lengths : List Nat) : List Nat :=
  lengths.take least ++ ((lengths.drop least).reverse.dropWhile (· == 0)).reverse

/-- What a list of lengths is written as: a length, or a number above all lengths and then so
many bits that say how often something is repeated. -/
structure LengthItem where
  symbol : Nat
  value : Nat := 0
  width : Nat := 0

/-- Items for a number of repetitions, in parts that are as large as can be, of which there are
no more than the first number says. -/
def repetitions (largest : Nat) (items : Nat → List LengthItem) : Nat → Nat → List LengthItem
  | 0, _ => []
  | parts + 1, n =>
    if n = 0 then []
    else items (min n largest) ++ repetitions largest items parts (n - largest)

def zeroItems (n : Nat) : List LengthItem :=
  if n < 3 then List.replicate n { symbol := 0 }
  else if n ≤ 10 then [⟨17, n - 3, 3⟩]
  else [⟨18, n - 11, 7⟩]

def againItems (length n : Nat) : List LengthItem :=
  if n < 3 then List.replicate n { symbol := length } else [⟨16, n - 3, 2⟩]

/-- The items for a length that stands so many times in a row. -/
def runItems (length n : Nat) : List LengthItem :=
  if length = 0 then repetitions 138 zeroItems n n
  else { symbol := length } :: repetitions 6 (againItems length) n (n - 1)

/-- The list as runs of one length, each with the number of times that it stands there. -/
def runs : List Nat → List (Nat × Nat)
  | [] => []
  | length :: rest =>
    match runs rest with
    | (next, n) :: more =>
      if next = length then (next, n + 1) :: more else (length, 1) :: (next, n) :: more
    | [] => [(length, 1)]

/-- The order in which the lengths of the words for lengths are written. -/
def lengthOrder : List Nat := [16, 17, 18, 0, 8, 7, 9, 6, 10, 5, 11, 4, 12, 3, 13, 2, 14, 1, 15]

/-- Writes the codes of a block: how many lengths there are, and then the lengths in a code
whose own lengths come first. -/
def putCodes (main distances : Array Nat) (w : BitWriter) : BitWriter :=
  let main := trimmed (endOfBlock + 1) main.toList
  let distances := trimmed 1 distances.toList
  let items := (runs (main ++ distances)).flatMap fun r => runItems r.1 r.2
  let lengths := codeLengths 7
    (items.foldl (fun counts i => counts.modify i.symbol (· + 1)) (Array.replicate 19 0))
  let code := PrefixCode.ofLengths 7 lengths
  let shown := trimmed 4 (lengthOrder.map (lengths.getD · 0))
  let w := ((w.put (main.length - 257) 5).put (distances.length - 1) 5).put (shown.length - 4) 4
  let w := shown.foldl (fun w n => w.put n 3) w
  items.foldl (fun w i => (code.put w i.symbol).put i.value i.width) w

/-- A block with codes of its own. -/
def putCoded (symbols : Array Symbol) (w : BitWriter) : BitWriter :=
  let (main, distances) := frequencies symbols
  let mainLengths := codeLengths maxWordLength main
  let distanceLengths := codeLengths maxWordLength distances
  let w := putCodes mainLengths distanceLengths (w.put 2 2)
  putSymbols ⟨.ofLengths maxWordLength mainLengths, .ofLengths maxWordLength distanceLengths⟩
    w symbols

def putFixed (symbols : Array Symbol) (w : BitWriter) : BitWriter :=
  putSymbols fixed (w.put 1 2) symbols

/-- The bytes as they are. -/
def putStored (bytes : ByteArray) (w : BitWriter) : BitWriter :=
  let w := (((w.put 0 2).pad).put bytes.size 16).put (65535 - bytes.size) 16
  bytes.foldl (fun w b => w.put b.toNat 8) w

/-- A shorter block is written with the fixed codes. -/
def leastCoded : Nat := 48

/-- A block of no more bytes is never written as it is. -/
def leastStored : Nat := 32

def putBlock (data : ByteArray) (last : Bool) (b : Block) (w : BitWriter) : BitWriter :=
  let w := w.put last.toNat 1
  let size := b.stop - b.start
  let packed := if size < leastCoded then putFixed b.symbols w else putCoded b.symbols w
  if size > leastStored && size ≤ packed.bytes.size - w.bytes.size + 1 && size ≤ b.reach then
    putStored (data.extract b.start b.stop) w
  else packed

def putBlocks (data : ByteArray) (w : BitWriter) : List Block → BitWriter
  | [] => w
  | b :: rest => putBlocks data (putBlock data rest.isEmpty b w) rest

def encode (data : ByteArray) : ByteArray :=
  (putBlocks data {} (Repeats.blocks data)).pad.bytes

end SchemaPackage.Archive.Deflate
