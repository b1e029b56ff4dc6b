/-!
Sets of characters written as ranges of code points, both ends included.
-/
namespace SchemaPackage.Text

abbrev Ranges := List (Nat × Nat)

def Ranges.includes (ranges : Ranges) (c : Char) : Bool :=
  ranges.any fun r => Nat.ble r.1 c.toNat && Nat.ble c.toNat r.2

end SchemaPackage.Text
