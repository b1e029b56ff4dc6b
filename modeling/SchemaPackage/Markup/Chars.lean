import SchemaPackage.Text.Ranges

/-!
The characters of markup: which may occur at all, which separate, and which make up names. The
colon, which parts the two halves of a name, belongs to neither half.
-/
namespace SchemaPackage.Markup

open Text (Ranges)

def isSpace (c : Char) : Bool := c == ' ' || c == '\t' || c == '\n' || c == '\r'

/-- Control characters other than white space, and the last two of the first plane, may not
occur. -/
def isLegal (c : Char) : Bool :=
  if c.toNat < 32 then isSpace c else c.toNat != 0xFFFE && c.toNat != 0xFFFF

def nameStartRanges : Ranges :=
  [(0x41, 0x5A), (0x5F, 0x5F), (0x61, 0x7A), (0xC0, 0xD6), (0xD8, 0xF6), (0xF8, 0x2FF),
   (0x370, 0x37D), (0x37F, 0x1FFF), (0x200C, 0x200D), (0x2070, 0x218F), (0x2C00, 0x2FEF),
   (0x3001, 0xD7FF), (0xF900, 0xFDCF), (0xFDF0, 0xFFFD), (0x10000, 0xEFFFF)]

/-- Characters that a name may hold but not start with. -/
def nameInnerRanges : Ranges :=
  [(0x2D, 0x2E), (0x30, 0x39), (0xB7, 0xB7), (0x300, 0x36F), (0x203F, 0x2040)]

def isNameStart (c : Char) : Bool := nameStartRanges.includes c

def isNameChar (c : Char) : Bool := isNameStart c || nameInnerRanges.includes c

end SchemaPackage.Markup
