import SchemaPackage.Text

/-!
Decimal digits and natural numbers. The class of decimal digits spans all scripts, while a
number is read from and written with the ASCII digits.
-/
namespace SchemaPackage.Text

/-- The zeros of the scripts that have decimal digits; the other nine follow each. -/
def digitZeros : List Nat :=
  [0x30, 0x660, 0x6F0, 0x7C0, 0x966, 0x9E6, 0xA66, 0xAE6, 0xB66, 0xBE6, 0xC66, 0xCE6, 0xD66,
   0xDE6, 0xE50, 0xED0, 0xF20, 0x1040, 0x1090, 0x17E0, 0x1810, 0x1946, 0x19D0, 0x1A80, 0x1A90,
   0x1B50, 0x1BB0, 0x1C40, 0x1C50, 0xA620, 0xA8D0, 0xA900, 0xA9D0, 0xA9F0, 0xAA50, 0xABF0, 0xFF10,
   0x104A0, 0x10D30, 0x10D40, 0x11066, 0x110F0, 0x11136, 0x111D0, 0x112F0, 0x11450, 0x114D0,
   0x11650, 0x116C0, 0x116D0, 0x116DA, 0x11730, 0x118E0, 0x11950, 0x11BF0, 0x11C50, 0x11D50,
   0x11DA0, 0x11F50, 0x16130, 0x16A60, 0x16AC0, 0x16B50, 0x16D70, 0x1CCF0, 0x1D7CE, 0x1D7D8,
   0x1D7E2, 0x1D7EC, 0x1D7F6, 0x1E140, 0x1E2F0, 0x1E4F0, 0x1E5F1, 0x1E950, 0x1FBF0]

def isDecimalDigit (c : Char) : Bool :=
  digitZeros.any fun z => Nat.ble z c.toNat && Nat.ble c.toNat (z + 9)

def digitValue? (c : Char) : Option Nat :=
  if '0' ≤ c ∧ c ≤ '9' then some (c.toNat - 48) else none

/-- Reads on from a number whose leading digits give `value`. -/
def digitsFrom (value : Nat) : Text → Option Nat
  | [] => some value
  | c :: rest =>
    match digitValue? c with
    | some d => digitsFrom (10 * value + d) rest
    | none => none

def digits? : Text → Option Nat
  | [] => none
  | t => digitsFrom 0 t

/-- A number below `limit`, possibly with a plus sign in front. -/
def natural? (limit : Nat) (t : Text) : Option Nat :=
  let digits := match t with
    | '+' :: rest => rest
    | _ => t
  match digits? digits with
  | some n => if n < limit then some n else none
  | none => none

def decimal (n : Nat) : Text := Nat.toDigits 10 n

end SchemaPackage.Text
