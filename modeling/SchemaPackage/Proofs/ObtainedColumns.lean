import SchemaPackage.Proofs.Obtained
import SchemaPackage.Proofs.Text.Edges

/-!
What all columns have in common that can be obtained. A column is made of a name and a type and is
changed by setting its fields, and tables only hold the columns that they were given, beside the
standard snapshot column. So what is true of every column as it is made, and stays true when a field
is set, is true of every column that can be obtained and of all columns of every table.
-/
namespace SchemaPackage

open Outcome

/-- The property of all columns of a table, whose snapshot column is the standard one. -/
structure Table.Keeps (P : Column → Prop) (t : Table) : Prop where
  columns : ∀ c ∈ t.columns.toList, P c
  snapshotColumn : ∀ c ∈ t.snapshotColumn, ∃ order, c = Column.snapshot order

/-- The property of whatever is a column or holds columns. -/
def Item.Keeps (P : Column → Prop) : Item → Prop
  | column c => P c
  | table t => t.Keeps P
  | index _ => True
  | unit _ => True

section Obtained

variable {P : Column → Prop} {item : Item}

/-- The property of columns. Of a table only its snapshot column is spoken of, since its columns
are columns like others. -/
def Item.KeepsAlone (P : Column → Prop) : Item → Prop
  | column c => P c
  | table t => ∀ c ∈ t.snapshotColumn, ∃ order, c = Column.snapshot order
  | index _ => True
  | unit _ => True

theorem Item.kept_keepsAlone (hP : Column.Kept P) : Item.Kept (KeepsAlone P) where
  column := hP
  index := Index.kept_true
  unit := ProgramUnit.kept_true
  table := {
    new := fun _ hstandard => hstandard
    set := fun {_ _ t u} h ht => by
      change ∀ c ∈ u.snapshotColumn, ∃ order, c = Column.snapshot order
      rw [(Table.sameContents_of_set h).snapshotColumn]
      exact ht
    addColumn := fun _ _ ht => ht
    setIndexes := fun _ _ ht => ht }

theorem Obtained.keeps (hP : Column.Kept P) (h : Obtained item) : item.Keeps P := by
  have hall := h.all (Item.kept_keepsAlone hP)
  cases item with
  | column c => exact hall
  | table t => exact ⟨hall.columns, hall.self⟩
  | index i => trivial
  | unit u => trivial

/-- The snapshot column of a table that can be obtained is the standard one, and a declared column
in its statement is not called like it. -/
theorem Obtained.mem_sortedColumns {t : Table} {c : Column} (ht : Obtained (.table t))
    (hc : c ∈ t.sortedColumns) :
    (∃ order, c = Column.snapshot order) ∨ (c ∈ t.columns.toList ∧ c.name ≠ snapshotName) := by
  have hkeeps : t.Keeps fun _ => True := ht.keeps Column.kept_true
  rcases List.mem_append.mp hc with hleading | hdeclared
  · unfold Table.leadingColumn at hleading
    split at hleading
    · exact absurd hleading List.not_mem_nil
    · exact Or.inl (hkeeps.snapshotColumn c (Option.mem_toList.mp hleading))
  · obtain ⟨hmem, hname⟩ := List.mem_filter.mp hdeclared
    exact Or.inr ⟨hmem, bne_iff_ne.mp hname⟩

theorem ColumnSet.nodup_insert {s : ColumnSet} (c : Column)
    (hs : (s.toList.map Column.name).Nodup) :
    ((s.insert c).toList.map Column.name).Nodup := by
  have hperm : ((s.insert c).toList.map Column.name).Perm
      (c.name :: (s.toList.filter fun d => !c.sameName d).map Column.name) :=
    (place_perm c _).map Column.name
  rw [hperm.nodup_iff, List.nodup_cons]
  constructor
  · intro hmem
    obtain ⟨d, hd, hname⟩ := List.mem_map.mp hmem
    simp [Column.sameName, hname] at hd
  · exact hs.sublist (List.filter_sublist.map Column.name)

/-- No two declared columns have the same name. -/
def Item.HasApart : Item → Prop
  | table t => (t.columns.toList.map Column.name).Nodup
  | _ => True

theorem Item.kept_hasApart : Item.Kept Item.HasApart where
  column := Column.kept_true
  index := Index.kept_true
  unit := ProgramUnit.kept_true
  table := {
    new := fun _ _ => List.nodup_nil
    set := fun {_ _ t u} h ht => by
      change (u.columns.toList.map Column.name).Nodup
      rw [(Table.sameContents_of_set h).columns]
      exact ht
    addColumn := fun c _ ht => ColumnSet.nodup_insert c ht
    setIndexes := fun _ _ ht => ht }

theorem Obtained.hasApart (h : Obtained item) : item.HasApart := h.kept Item.kept_hasApart

/-- No two columns of a statement have the same name. -/
theorem Obtained.nodup_names {t : Table} (ht : Obtained (.table t)) :
    (t.sortedColumns.map Column.name).Nodup := by
  have hdeclared : (t.columns.toList.map Column.name).Nodup := ht.hasApart
  have hkeeps : t.Keeps fun _ => True := ht.keeps Column.kept_true
  have hothers := hdeclared.sublist ((List.filter_sublist (p := (·.name != snapshotName))).map
    Column.name)
  unfold Table.sortedColumns Table.leadingColumn
  split
  · simpa using hothers
  · cases hsnapshot : t.snapshotColumn with
    | none => simpa using hothers
    | some c =>
      obtain ⟨order, rfl⟩ := hkeeps.snapshotColumn c hsnapshot
      simp only [Option.toList_some, List.singleton_append, List.map_cons, List.nodup_cons]
      refine ⟨?_, hothers⟩
      simp [Column.snapshot]

end Obtained

namespace Column

/-- A column with no more than a name and a type. -/
def bare (name dataType : Text) (order : Nat) : Column := { blank order with name, dataType }

/-- A type is stored without white space around it. -/
theorem isTrimmed_setDataType {value : Text} {c d : Column} (h : c.setDataType value = .ok d) :
    Text.IsTrimmed d.dataType := by
  obtain ⟨_, _, rfl⟩ := except_map_eq_ok_iff.mp h
  exact (Text.isTrimmed_trim value).upper

theorem isTrimmed_set {field : Field} {value : Text} {c d : Column} (h : c.set field value = .ok d)
    (hc : Text.IsTrimmed c.dataType) : Text.IsTrimmed d.dataType := by
  cases field with
  | name =>
    obtain ⟨_, _, rfl⟩ := except_map_eq_ok_iff.mp h
    exact hc
  | dataType => exact isTrimmed_setDataType h
  | _ => cases h; exact hc

theorem kept_isTrimmed : Kept fun c => Text.IsTrimmed c.dataType where
  ofNameAndType h := by
    obtain ⟨_, _, htyped⟩ := except_bind_eq_ok_iff.mp h
    exact isTrimmed_setDataType htyped
  set := isTrimmed_set
  snapshot _ := show Text.IsTrimmed "NUMBER" by decide

end Column

end SchemaPackage
