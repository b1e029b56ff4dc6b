/-!
Bytes as literals and copies of what came before. Only the last place is remembered at which
three bytes with the same key were seen, and what is found there is taken without looking for
anything longer, so this is fast rather than thorough.
-/
namespace SchemaPackage.Archive

inductive Symbol
  | literal (byte : UInt8)
  | copy (length distance : Nat)

/-- The symbols for the bytes from `start` to `stop`, of which so many last ones and those before
them were within reach at the end. -/
structure Block where
  symbols : Array Symbol
  start : Nat
  stop : Nat
  reach : Nat

namespace Repeats

/-- How far back a copy may start. -/
def maxReach : Nat := 32768

/-- How many bytes are looked at together. No copy goes beyond them. -/
def pieceSize : Nat := 4096

def keys : Nat := 4096

def minCopy : Nat := 3

def maxCopy : Nat := 258

/-- A copy of the least length is not worth while from here on. -/
def farAway : Nat := 8192

/-- The space for symbols that may be used up before a block ends. A literal takes up one unit,
a copy three, and every eight symbols one more. -/
def blockSpace : Nat := 65528

/-- The number that three bytes spell. -/
def threeBytes (data : ByteArray) (i : Nat) : Nat :=
  let byte := fun i => ((data[i]?).map UInt8.toNat).getD 0
  byte i + byte (i + 1) <<< 8 + byte (i + 2) <<< 16

def key (three : Nat) : Nat := (three ^^^ (three >>> 17)) % keys

/-- How many bytes are the same at two places, up to a limit. -/
def commonLength (data : ByteArray) (i j : Nat) : Nat → Nat
  | 0 => 0
  | limit + 1 =>
    if data[i]? == data[j]? then commonLength data (i + 1) (j + 1) limit + 1 else 0

structure Scan where
  position : Nat := 0
  reach : Nat := 0
  /-- Where each key was last seen. -/
  seen : Array Nat := Array.replicate keys 0
  start : Nat := 0
  symbols : Array Symbol := #[]
  /-- The space that is used up by the symbols. -/
  space : Nat := 1
  blocks : Array Block := #[]

namespace Scan

/-- Ends the block. -/
def cut (s : Scan) : Scan :=
  { s with
    start := s.position
    symbols := #[]
    space := 1
    blocks := s.blocks.push ⟨s.symbols, s.start, s.position, s.reach⟩ }

/-- Takes a symbol for the next bytes. -/
def take (s : Scan) (symbol : Symbol) (length : Nat) : Scan :=
  let symbols := s.symbols.push symbol
  let units := match symbol with
    | .literal _ => 1
    | .copy .. => 3
  let space := s.space + units + if symbols.size % 8 = 0 then 1 else 0
  let s := { s with
    position := s.position + length
    reach := min (s.reach + length) maxReach
    symbols, space }
  if space > blockSpace then s.cut else s

def takeLiteral (data : ByteArray) (s : Scan) : Scan :=
  s.take (.literal ((data[s.position]?).getD 0)) 1

/-- Takes what comes next, which has to be over four bytes before `stop` or earlier. Places are
told apart only up to a multiple of 65536. -/
def takeNext (data : ByteArray) (stop : Nat) (s : Scan) : Scan :=
  let three := threeBytes data s.position
  let distance := (s.position - s.seen.getD (key three) 0) % 65536
  let s := { s with seen := s.seen.set! (key three) s.position }
  if distance = 0 || distance > s.reach || threeBytes data (s.position - distance) != three then
    s.takeLiteral data
  else
    let limit := min maxCopy (stop - s.position)
    let length := commonLength data s.position (s.position - distance) limit
    if length = minCopy && distance ≥ farAway then s.takeLiteral data
    else s.take (.copy length distance) length

/-- Takes the bytes before `stop`, in so many steps at most. -/
def takeUntil (data : ByteArray) (stop : Nat) (s : Scan) : Nat → Scan
  | 0 => s
  | steps + 1 =>
    if stop ≤ s.position then s
    else
      let s := if s.position + 4 ≤ stop then s.takeNext data stop else s.takeLiteral data
      takeUntil data stop s steps

/-- Takes the bytes that are looked at together next. -/
def takePiece (data : ByteArray) (s : Scan) : Scan :=
  let stop := min (s.position + pieceSize) data.size
  let s := { s with reach := min s.reach (maxReach - (stop - s.position)) }
  takeUntil data stop s pieceSize

end Scan

/-- The blocks for all bytes. The last one may be empty. -/
def blocks (data : ByteArray) : List Block :=
  (Nat.repeat (Scan.takePiece data) ((data.size + pieceSize - 1) / pieceSize) {}).cut.blocks.toList

end Repeats

end SchemaPackage.Archive
