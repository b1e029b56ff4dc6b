import SchemaPackage.Text
import SchemaPackage.Text.Ranges

/-!
White space, and the removal of characters from the ends of a text.
-/
namespace SchemaPackage.Text

/-- Characters with the property White_Space. -/
def blankRanges : Ranges :=
  [(0x09, 0x0D), (0x20, 0x20), (0x85, 0x85), (0xA0, 0xA0), (0x1680, 0x1680), (0x2000, 0x200A),
   (0x2028, 0x2029), (0x202F, 0x202F), (0x205F, 0x205F), (0x3000, 0x3000)]

def isBlank (c : Char) : Bool := blankRanges.includes c

/-- The text without the characters at its ends that are in the class. -/
def trimEnds (p : Char → Bool) (t : Text) : Text :=
  ((t.dropWhile p).reverse.dropWhile p).reverse

def trim (t : Text) : Text := trimEnds isBlank t

end SchemaPackage.Text
