import SchemaPackage.Artifacts
import SchemaPackage.Proofs.Dictionary.Calls
import SchemaPackage.Proofs.Load.Families
import SchemaPackage.Proofs.ObtainedColumns

/-!
Columns that cannot be loaded. They are all that can go wrong when the outputs for a table are made
with an encoder that knows both dictionary tables: records can always be written, and only a control
file names the types of columns to the loader. The fault is that of the first such column of the
table statement. The snapshot column is never one, whether declared or not.
-/
namespace SchemaPackage

open Outcome

namespace Column

/-- The column is read by an expression of its own, or its type is one that the loader reads. -/
def IsLoadable (c : Column) : Prop :=
  c.loaderExpression ≠ none ∨ ∃ family : TypeFamily, family.Covers (Text.trim c.dataType)

theorem isLoadable_iff {c : Column} :
    c.IsLoadable ↔ c.loaderExpression ≠ none ∨ loadClause? c.name c.dataType ≠ none := by
  simp only [IsLoadable, ← TypeFamily.ofType?_eq_some_iff]
  rw [← Option.ne_none_iff_exists', loadClause?, ne_eq (Option.map _ _), Option.map_eq_none_iff]

instance (c : Column) : Decidable c.IsLoadable := decidable_of_iff _ isLoadable_iff.symm

theorem fieldClause_cases (c : Column) :
    (c.IsLoadable ∧ ∃ clause, c.fieldClause = .ok clause) ∨
      (¬ c.IsLoadable ∧ c.fieldClause = .error (.unloadableType c.name c.dataType)) := by
  rw [isLoadable_iff, fieldClause]
  cases c.loaderExpression with
  | some expression => exact Or.inl ⟨Or.inl (Option.some_ne_none expression), _, rfl⟩
  | none =>
    cases loadClause? c.name c.dataType with
    | some clause => exact Or.inl ⟨Or.inr (Option.some_ne_none clause), clause, rfl⟩
    | none => exact Or.inr ⟨by simp, rfl⟩

theorem isLoadable_snapshot (order : Nat) : (snapshot order).IsLoadable := by
  have hnumber : loadClause? snapshotName "NUMBER" ≠ none := by decide
  exact isLoadable_iff.mpr (Or.inr hnumber)

/-- The first of the columns that cannot be loaded. -/
def IsFirstUnloadable (c : Column) (columns : List Column) : Prop :=
  ∃ before after, columns = before ++ c :: after ∧ (∀ d ∈ before, d.IsLoadable) ∧ ¬ c.IsLoadable

variable {c d : Column} {columns : List Column}

theorem IsFirstUnloadable.mem (h : c.IsFirstUnloadable columns) : c ∈ columns := by
  obtain ⟨before, after, rfl, _, _⟩ := h
  exact List.mem_append_right before List.mem_cons_self

theorem not_isFirstUnloadable_nil : ¬ c.IsFirstUnloadable [] := fun h =>
  List.not_mem_nil h.mem

theorem isFirstUnloadable_cons_iff :
    c.IsFirstUnloadable (d :: columns) ↔
      (¬ d.IsLoadable ∧ c = d) ∨ (d.IsLoadable ∧ c.IsFirstUnloadable columns) := by
  constructor
  · rintro ⟨before, after, heq, hbefore, hc⟩
    rcases List.cons_eq_append_iff.mp heq with ⟨rfl, hcons⟩ | ⟨rest, rfl, rfl⟩
    · cases hcons
      exact Or.inl ⟨hc, rfl⟩
    · obtain ⟨hd, hrest⟩ := List.forall_mem_cons.mp hbefore
      exact Or.inr ⟨hd, rest, after, rfl, hrest, hc⟩
  · rintro (⟨hd, rfl⟩ | ⟨hd, before, after, rfl, hbefore, hc⟩)
    · exact ⟨[], columns, rfl, fun _ h => absurd h List.not_mem_nil, hd⟩
    · exact ⟨d :: before, after, rfl, List.forall_mem_cons.mpr ⟨hd, hbefore⟩, hc⟩

theorem exists_isFirstUnloadable_iff :
    (∃ c : Column, c.IsFirstUnloadable columns) ↔ ∃ c ∈ columns, ¬ c.IsLoadable := by
  induction columns with
  | nil => simp [not_isFirstUnloadable_nil]
  | cons d rest ih =>
    simp only [isFirstUnloadable_cons_iff, exists_or, exists_and_left, exists_eq, and_true, ih,
      List.exists_mem_cons_iff]
    by_cases hd : d.IsLoadable <;> simp [hd]

end Column

namespace Table

variable {t : Table} {fault : Fault}

theorem fieldClauses_eq_error_iff {columns : List Column} :
    fieldClauses columns = .error fault ↔
      ∃ c : Column, c.IsFirstUnloadable columns ∧ fault = .unloadableType c.name c.dataType := by
  induction columns with
  | nil => simp [fieldClauses, Column.not_isFirstUnloadable_nil]
  | cons d rest ih =>
    simp only [fieldClauses, Column.isFirstUnloadable_cons_iff]
    rcases d.fieldClause_cases with ⟨hd, clause, hclause⟩ | ⟨hd, hclause⟩
    · simp only [hclause, except_map_eq_error_iff, ih, hd, not_true_eq_false, false_and, false_or,
        true_and]
    · simp only [hclause, hd, not_false_eq_true, true_and, false_and, or_false, exists_eq_left,
        Except.error.injEq]
      exact eq_comm

theorem controlFile_eq_error_iff :
    t.controlFile = .error fault ↔ (t.loadOnInstall = true ∨ t.loadOnUpgrade = true) ∧
      ∃ c : Column, c.IsFirstUnloadable t.sortedColumns ∧
        fault = .unloadableType c.name c.dataType := by
  rw [← Bool.or_eq_true, ← fieldClauses_eq_error_iff]
  change _ ↔ t.isLoaded = true ∧ _
  unfold controlFile controlFileFor
  cases t.isLoaded with
  | true => simp only [if_true, except_map_eq_error_iff, true_and]
  | false => simp

/-- A snapshot column that is declared stays out of the statement, and changes nothing there. -/
theorem sortedColumns_addColumn_of_snapshotName {c : Column} (hc : c.name = snapshotName)
    (t : Table) : (t.addColumn c).sortedColumns = t.sortedColumns := by
  have hplace : ∀ l : List Column, (ColumnSet.place c l).filter (·.name != snapshotName) =
      l.filter (·.name != snapshotName) := by
    intro l
    induction l with
    | nil => simp [ColumnSet.place, hc]
    | cons d rest ih =>
      rw [ColumnSet.place]
      split
      · simp [hc]
      · rw [List.filter_cons, List.filter_cons, ih]
  have hkept : (t.columns.toList.filter fun d => !c.sameName d).filter (·.name != snapshotName) =
      t.columns.toList.filter (·.name != snapshotName) := by
    rw [List.filter_filter]
    refine List.filter_congr fun d _ => ?_
    rw [Column.sameName, hc, bne, Bool.beq_comm (a := d.name), Bool.and_self]
  change t.leadingColumn ++ _ = t.leadingColumn ++ _
  rw [addColumn, ColumnSet.insert, hplace, hkept]

/-- The snapshot column that goes in front is loadable, so the column at fault is a declared one. -/
theorem mem_columns_of_isFirstUnloadable (ht : Obtained (.table t)) {c : Column}
    (hc : c.IsFirstUnloadable t.sortedColumns) :
    c ∈ t.columns.toList ∧ c.name ≠ snapshotName := by
  rcases ht.mem_sortedColumns hc.mem with ⟨order, rfl⟩ | hdeclared
  · obtain ⟨_, _, _, _, hnot⟩ := hc
    exact absurd (Column.isLoadable_snapshot order) hnot
  · exact hdeclared

end Table

namespace Artifacts

/-- All records can be written, so that the control file alone decides. -/
theorem render_eq_error_iff_controlFile {e : Encoder} (he : e.Valid)
    (hregistered : ∀ d, (e.table? d).isSome = true) {t : Table} {fault : Fault} :
    render e t = .error fault ↔ t.controlFile = .error fault := by
  obtain ⟨objects, hobjects⟩ := Option.isSome_iff_exists.mp (hregistered .objects)
  obtain ⟨columns, hcolumns⟩ := Option.isSome_iff_exists.mp (hregistered .tableColumns)
  simp only [render, Table.objectRecord, Encoder.objectRecord, Table.columnRecords,
    Encoder.columnRecords, Table.indexRecordText, Encoder.render_eq_ok he hobjects,
    Encoder.records_eq_ok he hobjects, Encoder.records_eq_ok he hcolumns]
  cases t.controlFile with
  | error first =>
    change (Except.error first : Except Fault Artifacts) = .error fault ↔ _
    rw [Except.error.injEq, Except.error.injEq]
  | ok controlFile => exact iff_of_false (fun h => nomatch h) (fun h => nomatch h)

/-- With both dictionary tables registered, the outputs for a table fail exactly if the table is
loaded and some column of its statement has neither an expression of its own nor a type that the
loader reads. The fault names the first such column and its type. To declare the snapshot column,
of whatever type, makes no difference, and neither it nor the one that goes in front is at fault. -/
theorem render_eq_error_iff_unloadable {order : ColumnOrder} {calls : List Encoder.Call}
    (hregistered : ∀ d, ((Encoder.run { order } calls).table? d).isSome = true) (t : Table) :
    (∀ fault, render (Encoder.run { order } calls) t = .error fault ↔
      (t.loadOnInstall = true ∨ t.loadOnUpgrade = true) ∧
        ∃ c : Column, c.IsFirstUnloadable t.sortedColumns ∧
          fault = .unloadableType c.name c.dataType) ∧
    ((∃ fault, render (Encoder.run { order } calls) t = .error fault) ↔
      (t.loadOnInstall = true ∨ t.loadOnUpgrade = true) ∧
        ∃ c ∈ t.sortedColumns, ¬ c.IsLoadable) ∧
    (∀ c : Column, c.name = snapshotName → ∀ fault,
      render (Encoder.run { order } calls) (t.addColumn c) = .error fault ↔
        render (Encoder.run { order } calls) t = .error fault) ∧
    (Obtained (.table t) → ∀ c : Column, c.IsFirstUnloadable t.sortedColumns →
      c ∈ t.columns.toList ∧ c.name ≠ snapshotName) := by
  have hfault : ∀ (t : Table) (fault : Fault),
      render (Encoder.run { order } calls) t = .error fault ↔
        (t.loadOnInstall = true ∨ t.loadOnUpgrade = true) ∧
          ∃ c : Column, c.IsFirstUnloadable t.sortedColumns ∧
            fault = .unloadableType c.name c.dataType := by
    intro t fault
    rw [render_eq_error_iff_controlFile ((Encoder.valid_empty order).run calls) hregistered,
      Table.controlFile_eq_error_iff]
  refine ⟨hfault t, ?_, fun c hc fault => ?_, fun ht c => Table.mem_columns_of_isFirstUnloadable ht⟩
  · rw [← Column.exists_isFirstUnloadable_iff]
    constructor
    · rintro ⟨fault, h⟩
      obtain ⟨hloaded, c, hc, _⟩ := (hfault t fault).mp h
      exact ⟨hloaded, c, hc⟩
    · rintro ⟨hloaded, c, hc⟩
      exact ⟨_, (hfault t _).mpr ⟨hloaded, c, hc, rfl⟩⟩
  · rw [hfault, hfault, Table.sortedColumns_addColumn_of_snapshotName hc]
    rfl

/-- Pictures and maps behind a note and a declared snapshot column. -/
def album : Table where
  name := "ALBUM"
  loadOnInstall := true
  columns := ⟨[Column.bare snapshotName "BLOB" 0, Column.bare "NOTE" "CLOB" 1,
    Column.bare "PICTURE" "BLOB" 2, Column.bare "MAP" "BFILE" 3]⟩

theorem obtained_album : Obtained (.table album) := by
  have hnew := obtained_table "ALBUM" (by decide) (by decide +kernel)
  have hloads : Table.set .loadOnInstall "yes" { name := Text.upper "ALBUM" } =
      .ok { name := "ALBUM", loadOnInstall := true } := by decide +kernel
  have hsnapshot : Column.ofNameAndType snapshotName "BLOB" 0 =
      .ok (.bare snapshotName "BLOB" 0) := by decide +kernel
  have hnote : Column.ofNameAndType "NOTE" "CLOB" 1 = .ok (.bare "NOTE" "CLOB" 1) := by
    decide +kernel
  have hpicture : Column.ofNameAndType "PICTURE" "BLOB" 2 = .ok (.bare "PICTURE" "BLOB" 2) := by
    decide +kernel
  have hmap : Column.ofNameAndType "MAP" "BFILE" 3 = .ok (.bare "MAP" "BFILE" 3) := by
    decide +kernel
  exact ((((hnew.setTable hloads).addColumn (obtained_column hsnapshot)).addColumn
    (obtained_column hnote)).addColumn (obtained_column hpicture)).addColumn
      (obtained_column hmap)

/-- An encoder that knows two dictionary tables, each without columns. -/
def registrations : List Encoder.Call :=
  [.register .objects { name := "DB_OBJECTS" },
   .register .tableColumns { name := "DB_TABLE_COLUMNS" }]

theorem render_album :
    (∀ d, ((Encoder.run {} registrations).table? d).isSome = true) ∧
      Obtained (.table album) ∧
      render (Encoder.run {} registrations) album = .error (.unloadableType "PICTURE" "BLOB") ∧
      ("PICTURE" : Text) ≠ snapshotName := by
  have hregistered : ∀ d, ((Encoder.run {} registrations).table? d).isSome = true := by
    intro d
    cases d <;> decide
  have hfirst : (Column.bare "PICTURE" "BLOB" 2).IsFirstUnloadable album.sortedColumns :=
    ⟨[.bare "NOTE" "CLOB" 1], [.bare "MAP" "BFILE" 3], rfl, by decide, by decide⟩
  obtain ⟨hfault, _, _, hdeclared⟩ := render_eq_error_iff_unloadable hregistered album
  exact ⟨hregistered, obtained_album, (hfault _).mpr ⟨Or.inl rfl, _, hfirst, rfl⟩,
    (hdeclared obtained_album _ hfirst).2⟩

end Artifacts

end SchemaPackage
