import SchemaPackage.Proofs.DeclarationOrder
import SchemaPackage.Proofs.Text.Upper

/-!
What can be done to a table, and the tables that are reached by doing it. An operation that is
refused leaves the table as it was, except that attributes are set one after another up to the one
that is refused.
-/
namespace SchemaPackage

open Outcome

theorem normalizeName_eq_ok_iff {entity value name : Text} :
    normalizeName entity value = .ok name ↔
      value ≠ [] ∧ value.byteLength ≤ maxNameBytes ∧ name = Text.upper value := by
  unfold normalizeName
  simp only [List.isEmpty_iff]
  by_cases hempty : value = []
  · simp [hempty]
  · by_cases hlong : maxNameBytes < value.byteLength
    · simp [hempty, hlong, Nat.not_le.mpr hlong]
    · simp [hempty, hlong, Nat.not_lt.mp hlong, eq_comm]

namespace Table

/-- A change to a table that exists. -/
inductive Operation
  | set (field : Field) (value : Text)
  | assign (attributes : Attributes)
  | addColumn (c : Column)
  | addIndex (i : Index)

/-- A change that is made as a whole or not at all. -/
def attempt (t : Table) : Except Fault Table → Table × Option Fault
  | .ok u => (u, none)
  | .error fault => (t, some fault)

/-- What an operation makes of a table, and why it was refused if it was. -/
def perform (t : Table) : Operation → Table × Option Fault
  | .set field value => t.attempt (t.set field value)
  | .assign attributes => assignAll Table.assign attributes t
  | .addColumn c => (t.addColumn c, none)
  | .addIndex i => t.attempt (t.addIndex i)

/-- The table after operations in turn, whether or not they are refused. -/
def run (t : Table) (operations : List Operation) : Table :=
  operations.foldl (fun t o => (t.perform o).1) t

theorem run_append (t : Table) (earlier later : List Operation) :
    t.run (earlier ++ later) = (t.run earlier).run later := List.foldl_append

theorem run_concat (t : Table) (operations : List Operation) (o : Operation) :
    t.run (operations ++ [o]) = ((t.run operations).perform o).1 := run_append t operations [o]

/-- The tables that a creation gives in a context that creations have led to. -/
inductive Created : Table → Prop
  | create {ctx ctx' : Context} {name : Text} {tracked : Bool} {t : Table}
    (hctx : ctx.Reachable) (h : Table.create name tracked ctx = (.ok t, ctx')) : Created t
  | createFrom {ctx ctx' : Context} {attributes : Attributes} {tracked : Bool} {t : Table}
    (hctx : ctx.Reachable) (h : Table.createFrom attributes tracked ctx = (.ok t, ctx')) : Created t

/-- A new table whose snapshots are tracked. -/
def newTable : Table where
  name := "FOO"
  snapshotColumn := some (Column.snapshot 0)

theorem created_newTable : Created newTable := by
  have hcreate : Table.create "foo" true {} =
      (.ok newTable, { nextOrder := 1, snapshotColumn := some (Column.snapshot 0) }) := rfl
  exact .create .new hcreate

section Steps

variable {t u : Table}

/-- What holds before a change that may be refused, and after it if it is made. -/
theorem attempt_induction {P : Table → Prop} {x : Except Fault Table} (ht : P t)
    (hx : ∀ u, x = .ok u → P u) : P (t.attempt x).1 := by
  cases x with
  | error fault => exact ht
  | ok u => exact hx u rfl

theorem sameContents_perform_set (t : Table) (field : Field) (value : Text) :
    SameContents t (t.perform (.set field value)).1 :=
  attempt_induction (SameContents.refl t) fun _ h => sameContents_of_set h

theorem exists_perform_addIndex (t : Table) (i : Index) :
    ∃ indexes, (t.perform (.addIndex i)).1 = { t with indexes } := by
  refine attempt_induction (P := fun u => ∃ indexes, u = { t with indexes }) ⟨t.indexes, rfl⟩
    fun u h => ?_
  obtain ⟨_, _, _, _, rfl⟩ := addIndex_eq_ok h
  exact ⟨_, rfl⟩

/-- No operation but the addition of an index touches the indexes. -/
theorem indexes_perform {o : Operation} (ho : ∀ i, o ≠ .addIndex i) :
    (t.perform o).1.indexes = t.indexes := by
  cases o with
  | set field value => exact (sameContents_perform_set t field value).indexes
  | assign attributes => exact (sameContents_assignAll t attributes).indexes
  | addColumn c => rfl
  | addIndex i => exact absurd rfl (ho i)

/-- No operation but the addition of a column touches the columns. -/
theorem columns_perform {o : Operation} (ho : ∀ c, o ≠ .addColumn c) :
    (t.perform o).1.columns = t.columns := by
  cases o with
  | set field value => exact (sameContents_perform_set t field value).columns
  | assign attributes => exact (sameContents_assignAll t attributes).columns
  | addColumn c => exact absurd rfl (ho c)
  | addIndex i =>
    obtain ⟨_, h⟩ := exists_perform_addIndex t i
    rw [h]

theorem snapshotColumn_perform (t : Table) (o : Operation) :
    (t.perform o).1.snapshotColumn = t.snapshotColumn := by
  cases o with
  | set field value => exact (sameContents_perform_set t field value).snapshotColumn
  | assign attributes => exact (sameContents_assignAll t attributes).snapshotColumn
  | addColumn c => rfl
  | addIndex i =>
    obtain ⟨_, h⟩ := exists_perform_addIndex t i
    rw [h]

theorem upper_name_of_set {field : Field} {value : Text} (h : t.set field value = .ok u)
    (ht : Text.upper t.name = t.name) : Text.upper u.name = u.name := by
  cases field with
  | name =>
    obtain ⟨name, hname, rfl⟩ := except_map_eq_ok_iff.mp h
    obtain ⟨_, _, rfl⟩ := normalizeName_eq_ok_iff.mp hname
    exact Text.upper_upper value
  | transactions =>
    obtain ⟨transactions, _, rfl⟩ := except_map_eq_ok_iff.mp h
    exact ht
  | _ => cases h; exact ht

theorem upper_name_of_assign {key value : Text} (h : assign key value t = .ok u)
    (ht : Text.upper t.name = t.name) : Text.upper u.name = u.name := by
  rcases setByKey_eq_ok h with ⟨field, hset⟩ | rfl
  · exact upper_name_of_set hset ht
  · exact ht

theorem upper_name_assignAll (attributes : Attributes) (ht : Text.upper t.name = t.name) :
    Text.upper (assignAll assign attributes t).1.name = (assignAll assign attributes t).1.name :=
  assignAll_induction (P := fun u : Table => Text.upper u.name = u.name)
    (fun _ _ _ _ hassign h => upper_name_of_assign hassign h) attributes ht

theorem upper_name_perform (o : Operation) (ht : Text.upper t.name = t.name) :
    Text.upper (t.perform o).1.name = (t.perform o).1.name := by
  cases o with
  | set field value =>
    exact attempt_induction (P := fun u => Text.upper u.name = u.name) ht
      fun _ h => upper_name_of_set h ht
  | assign attributes => exact upper_name_assignAll attributes ht
  | addColumn c => exact ht
  | addIndex i =>
    obtain ⟨_, h⟩ := exists_perform_addIndex t i
    rw [h]
    exact ht

end Steps

section Runs

variable {t : Table}

/-- What holds at first and is kept by each operation holds after all of them. -/
theorem run_induction {P : Table → Prop} (hstep : ∀ u o, P u → P (u.perform o).1) (ht : P t)
    (operations : List Operation) : P (t.run operations) := by
  induction operations generalizing t with
  | nil => exact ht
  | cons o rest ih => exact ih (hstep t o ht)

theorem snapshotColumn_run (t : Table) (operations : List Operation) :
    (t.run operations).snapshotColumn = t.snapshotColumn :=
  run_induction (P := fun u => u.snapshotColumn = t.snapshotColumn)
    (fun u o hu => (snapshotColumn_perform u o).trans hu) rfl operations

/-- A table that is still empty. Its name is in upper case from the first. -/
structure Fresh (t : Table) : Prop where
  columns : t.columns = {}
  indexes : t.indexes = []
  snapshotColumn : t.snapshotColumn = none ∨ ∃ k, t.snapshotColumn = some (Column.snapshot k)
  upper_name : Text.upper t.name = t.name

theorem fresh_of_create {ctx ctx' : Context} {name : Text} {tracked : Bool}
    (hctx : ctx.Reachable) (h : Table.create name tracked ctx = (.ok t, ctx')) : t.Fresh := by
  obtain ⟨proper, hname, rfl, _⟩ := create_eq_ok h
  obtain ⟨_, _, rfl⟩ := normalizeName_eq_ok_iff.mp hname
  refine ⟨rfl, rfl, ?_, Text.upper_upper name⟩
  cases tracked with
  | false => exact Or.inl rfl
  | true =>
    obtain ⟨k, hk⟩ := hctx.snapshot
    exact Or.inr ⟨k, congrArg some hk⟩

/-- Attributes do not fill a table. -/
theorem Fresh.assignAll (ht : t.Fresh) (attributes : Attributes) :
    (assignAll Table.assign attributes t).1.Fresh := by
  have hsame := sameContents_assignAll t attributes
  constructor
  · rw [hsame.columns, ht.columns]
  · rw [hsame.indexes, ht.indexes]
  · rw [hsame.snapshotColumn]
    exact ht.snapshotColumn
  · exact upper_name_assignAll attributes ht.upper_name

theorem Created.fresh (ht : Created t) : t.Fresh := by
  cases ht with
  | create hctx h => exact fresh_of_create hctx h
  | createFrom hctx h =>
    obtain ⟨name, created, hcreate, hwhole⟩ := createFrom_eq_ok h
    rw [← whole_eq_ok hwhole]
    exact (fresh_of_create hctx hcreate).assignAll _

theorem Created.upper_name_run (ht : Created t) (operations : List Operation) :
    Text.upper (t.run operations).name = (t.run operations).name :=
  run_induction (P := fun u => Text.upper u.name = u.name) (fun _ o h => upper_name_perform o h)
    ht.fresh.upper_name operations

end Runs

end Table

end SchemaPackage
