import SchemaPackage.Column

/-!
The columns of one table: at most one of each name, kept in the order of their creation.
-/
namespace SchemaPackage

structure ColumnSet where
  toList : List Column := []
deriving DecidableEq

namespace ColumnSet

/-- Puts a column behind all those that were created no later. -/
def place (c : Column) : List Column → List Column
  | [] => [c]
  | d :: rest => if c.order < d.order then c :: d :: rest else d :: place c rest

/-- A column takes the place of an earlier one of its name. -/
def insert (c : Column) (s : ColumnSet) : ColumnSet :=
  ⟨place c (s.toList.filter fun d => !c.sameName d)⟩

end ColumnSet

end SchemaPackage
