import SchemaPackage.Column

/-!
The context in which columns are created. It counts creations, failed ones included, and makes
the snapshot column the first time that one is wanted; every later table gets the same one.
-/
namespace SchemaPackage

structure Context where
  nextOrder : Nat := 0
  snapshotColumn : Option Column := none

abbrev Build := ExceptT Fault (StateM Context)

/-- Makes something that takes the next order, whether or not the making succeeds. -/
def withOrder {α : Type} (make : Nat → Except Fault α) : Build α :=
  fun ctx => (make ctx.nextOrder, { ctx with nextOrder := ctx.nextOrder + 1 })

namespace Column

def create (name dataType : Text) : Build Column :=
  withOrder (ofNameAndType name dataType)

def createFrom (attributes : Attributes) : Build Column :=
  withOrder (ofAttributes attributes)

end Column

/-- The snapshot column of the context, which takes an order when it is made. -/
def Context.snapshot (ctx : Context) : Column × Context :=
  match ctx.snapshotColumn with
  | some column => (column, ctx)
  | none =>
    let column := Column.snapshot ctx.nextOrder
    (column, { nextOrder := ctx.nextOrder + 1, snapshotColumn := some column })

def trackedColumn : Build Column :=
  fun ctx => let (column, ctx) := ctx.snapshot; (.ok column, ctx)

end SchemaPackage
