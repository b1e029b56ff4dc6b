import SchemaPackage.Proofs.Load.Families

/-!
The sizes of character types. A size is a text of digits of any length. The loader converts a text
in two pieces exactly if the number that the digits stand for is above the limit, also where the
number is too large to be read, and either way the size is copied as it is written.
-/
namespace SchemaPackage

open Text TypeFamily

namespace Text

variable {t : Text}

end Text

example : loadClause? "NOTE" "CHAR(02000)" = some (wholeTextClause "NOTE" "02000") := by decide

end SchemaPackage
