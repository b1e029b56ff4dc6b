/-!
Bits on their way into bytes. Every byte is filled from its lowest bit.
-/
namespace SchemaPackage.Archive

/-- Whole bytes, and the bits of one that has still to be filled. -/
structure BitWriter where
  bytes : ByteArray := .empty
  pending : Nat := 0
  count : Nat := 0

namespace BitWriter

/-- Moves so many whole bytes out of the pending bits. -/
def settle (w : BitWriter) : Nat → BitWriter
  | 0 => w
  | n + 1 =>
    settle ⟨w.bytes.push w.pending.toUInt8, w.pending / 256, w.count - 8⟩ n

/-- Puts a number of so many bits, the lowest first. -/
def put (w : BitWriter) (value width : Nat) : BitWriter :=
  let count := w.count + width
  settle ⟨w.bytes, w.pending + value <<< w.count, count⟩ (count / 8)

/-- Fills up the last byte. -/
def pad (w : BitWriter) : BitWriter := if w.count = 0 then w else w.put 0 (8 - w.count)

end BitWriter

end SchemaPackage.Archive
