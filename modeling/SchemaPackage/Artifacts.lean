import SchemaPackage.Dictionary.Encoder
import SchemaPackage.Table.Statement

/-!
Everything that is written out for one table.
-/
namespace SchemaPackage

/-- Which one of several faults is reported. -/
structure FaultChoice where
  pick : Fault → List Fault → Fault
  mem : ∀ first more, pick first more ∈ first :: more

namespace FaultChoice

def first : FaultChoice where
  pick fault _ := fault
  mem _ _ := List.mem_cons_self

def fault? {α : Type} : Except Fault α → Option Fault
  | .ok _ => none
  | .error fault => some fault

/-- What was made, if everything could be made, or else one of the faults. -/
def collect {α : Type} (choice : FaultChoice) (outcomes : List (Except Fault α)) :
    Except Fault (List α) :=
  match outcomes.filterMap fault? with
  | [] => .ok (outcomes.filterMap Except.toOption)
  | fault :: more => .error (choice.pick fault more)

end FaultChoice

structure Artifacts where
  name : Text
  tableStatement : Text
  indexStatements : Option Text
  controlFile : Option Text
  objectRecord : Text
  columnRecords : Text
  indexRecords : Text

namespace Artifacts

/-- Index statements are there exactly when the table has indexes. -/
def render (e : Encoder) (t : Table) : Except Fault Artifacts := do
  let controlFile ← t.controlFile
  let objectRecord ← t.objectRecord e
  let columnRecords ← t.columnRecords e
  let indexRecords ← t.indexRecordText e
  return {
    name := t.name
    tableStatement := t.statement
    indexStatements := if t.indexes.isEmpty then none else some t.indexStatements
    controlFile, objectRecord, columnRecords, indexRecords }

/-- The tables are rendered side by side, so that each of their faults may be the one that is
reported. -/
def renderAll (e : Encoder) (tables : List Table) (choice : FaultChoice := .first) :
    Except Fault (List Artifacts) :=
  choice.collect (tables.map (render e))

end Artifacts

end SchemaPackage
