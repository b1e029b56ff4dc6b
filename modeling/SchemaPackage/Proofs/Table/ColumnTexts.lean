import SchemaPackage.Proofs.Dictionary.Reading
import SchemaPackage.Proofs.Outcome
import SchemaPackage.Table.Statement

/-!
Three texts about the columns of a table: its statement, its control file and its records in the
dictionary. They are put together apart from one another, but all of them go through the columns in
the same order. So the definition, the field clauses and the record of one number are about the same
column, and the record gives that number.
-/
namespace SchemaPackage

open Outcome

namespace Column

/-- The definition of a column without the comma that may follow it. -/
def definitionBody (c : Column) : Text :=
  "\"" ++ c.name ++ "\" " ++ c.dataType
    ++ Text.onlyIf (!c.defaultValue.isEmpty) (" DEFAULT " ++ c.defaultValue)
    ++ Text.onlyIf (!c.nullable) " NOT NULL"

theorem definition_eq (c : Column) : c.definition = c.definitionBody ++ [','] := rfl

end Column

/-- One comma, and then the name of a column or a space. -/
def StartsField (column clause : Text) : Prop :=
  ',' :: column ++ [' '] <+: clause ∨ [',', ' '] <+: clause

namespace StartsField

theorem append {column clause : Text} (h : StartsField column clause) (more : Text) :
    StartsField column (clause ++ more) :=
  h.imp (·.trans (List.prefix_append clause more)) (·.trans (List.prefix_append clause more))

theorem of_word (column : Text) {word : Text} (hword : [' '] <+: word) :
    StartsField column ("," ++ column ++ word) :=
  Or.inl ((List.prefix_append_right_inj (',' :: column)).mpr hword)

/-- Without the commas in front, just the first comma is gone. -/
theorem eq_cons_dropWhile {column clause : Text} (h : StartsField column clause)
    (hcolumn : column.head? ≠ some ',') : clause = ',' :: clause.dropWhile (· == ',') := by
  rcases h with ⟨more, rfl⟩ | ⟨more, rfl⟩
  · cases column with
    | nil => rfl
    | cons c rest =>
      have hc : (c == ',') = false := by
        rw [beq_eq_false_iff_ne]
        rintro rfl
        exact hcolumn rfl
      simp [hc]
  · rfl

end StartsField

theorem TypeFamily.startsField_clause (column : Text) (family : TypeFamily) :
    StartsField column (family.clause column) := by
  cases family with
  | sized size =>
    have hsize : StartsField column ("," ++ column ++ " CHAR(" ++ size) :=
      (StartsField.of_word column (by decide)).append size
    change StartsField column
      (if fitsOnePiece size then wholeTextClause column size else splitTextClause column size)
    split
    · unfold wholeTextClause
      repeat first | with_reducible exact hsize | apply StartsField.append
    · unfold splitTextClause
      repeat first | with_reducible exact hsize | apply StartsField.append
  | large =>
    have hindicator : StartsField column ", " := Or.inr (by decide)
    change StartsField column (largeClause column)
    unfold largeClause
    repeat first | with_reducible exact hindicator | apply StartsField.append
  | date => exact StartsField.of_word column (by decide)
  | timestamp => exact StartsField.of_word column (by decide)
  | _ => exact ((StartsField.of_word column (by decide)).append _).append _

theorem Column.startsField_fieldClause {c : Column} {clause : Text}
    (h : c.fieldClause = .ok clause) : StartsField c.name clause := by
  unfold fieldClause at h
  split at h
  next expression _ =>
    cases h
    exact (StartsField.of_word c.name (by decide)).append expression
  next =>
    split at h
    next hclause =>
      cases h
      obtain ⟨family, _, rfl⟩ := Option.map_eq_some_iff.mp hclause
      exact family.startsField_clause c.name
    next => cases h

namespace Table

theorem dropFinalComma_definitions (columns : List Column) :
    dropFinalComma (columns.map Column.definition) = columns.mapIdx fun k c =>
      c.definitionBody ++ Text.onlyIf (k + 1 < columns.length) [','] := by
  match columns with
  | [] => rfl
  | [c] =>
    change [c.definition.dropLast] = [c.definitionBody ++ []]
    rw [Column.definition_eq, List.dropLast_concat, List.append_nil]
  | c :: d :: rest =>
    have ih := dropFinalComma_definitions (d :: rest)
    change c.definition :: dropFinalComma ((d :: rest).map Column.definition) = _
    rw [ih, List.mapIdx_cons, Column.definition_eq]
    simp [Text.onlyIf]

theorem fieldClauses_eq_ok {columns : List Column} {clauses : List Text}
    (h : fieldClauses columns = .ok clauses) :
    clauses.length = columns.length ∧ ∀ (k : Nat) (c : Column), columns[k]? = some c →
      ∃ clause, clauses[k]? = some clause ∧ c.fieldClause = .ok clause := by
  induction columns generalizing clauses with
  | nil =>
    cases h
    refine ⟨rfl, fun k c hc => ?_⟩
    rw [List.getElem?_nil] at hc
    cases hc
  | cons c rest ih =>
    rw [fieldClauses] at h
    cases hclause : c.fieldClause with
    | error fault =>
      rw [hclause] at h
      cases h
    | ok clause =>
      rw [hclause] at h
      obtain ⟨more, hmore, rfl⟩ := except_map_eq_ok_iff.mp h
      obtain ⟨hlength, hclauses⟩ := ih hmore
      refine ⟨congrArg Nat.succ hlength, ?_⟩
      intro k d hd
      cases k with
      | zero =>
        cases hd
        exact ⟨clause, rfl, hclause⟩
      | succ k => exact hclauses k d hd

end Table

theorem Layout.lookup_zip_map {fields : List Text} {field : Text} (h : field ∈ fields)
    (value : Text → Text) : (fields.zip (fields.map value)).lookup field = some (value field) := by
  induction fields with
  | nil => cases h
  | cons f rest ih =>
    rw [List.map_cons, List.zip_cons_cons, List.lookup_cons]
    by_cases hf : field = f
    · subst f
      rw [beq_self_eq_true]
    · rw [beq_eq_false_iff_ne.mpr hf]
      exact ih ((List.mem_cons.mp h).resolve_left hf)

namespace Encoder

/-- What is recorded about the column of a table that has a number. -/
def numberedFields (table : Text) (number : Nat) (c : Column) : Attributes :=
  ("table_name", table) :: ("column_id", Text.decimal number) :: c.recordFields

theorem getElem?_columnFieldsFrom (table : Text) (first : Nat) (columns : List Column) (k : Nat) :
    (columnFieldsFrom table first columns)[k]? =
      columns[k]?.map (numberedFields table (first + k)) := by
  induction columns generalizing first k with
  | nil => rfl
  | cons c rest ih =>
    cases k with
    | zero => rfl
    | succ k =>
      rw [columnFieldsFrom, List.getElem?_cons_succ, List.getElem?_cons_succ, ih,
        Nat.add_right_comm, Nat.add_assoc]

theorem length_columnFieldsFrom (table : Text) (first : Nat) (columns : List Column) :
    (columnFieldsFrom table first columns).length = columns.length := by
  induction columns generalizing first with
  | nil => rfl
  | cons c rest ih => rw [columnFieldsFrom, List.length_cons, ih, List.length_cons]

/-- The fields without which a record does not say which column it is about. -/
def keyFields : List Text := ["table_name", "column_id", "column_name"]

/-- A dictionary table has a field for each of its columns but one that has the name of the snapshot
column. -/
theorem mem_fields_of_mem_keyFields {d : Table} (hname : isDictionaryObject d.name = true)
    (hfields : ∀ field ∈ keyFields, field ∈ d.columns.toList.map fun c => Text.lower c.name) :
    ∀ field ∈ keyFields, field ∈ (Layout.ofTable d).fields := by
  have hother : Text.lower snapshotName ∉ keyFields := by decide
  intro field hfield
  obtain ⟨c, hc, rfl⟩ := List.mem_map.mp (hfields field hfield)
  have hkept : (c.name != snapshotName) = true := by
    rw [bne_iff_ne]
    intro hsnapshot
    rw [hsnapshot] at hfield
    exact hother hfield
  refine List.mem_map.mpr ⟨c, ?_, rfl⟩
  rw [Table.sortedColumns, Table.leadingColumn, if_pos hname]
  exact List.mem_filter.mpr ⟨hc, hkept⟩

/-- What a record of the dictionary table `d` says in a field. -/
def recordValue? (d : Table) (values : List Text) (field : Text) : Option Text :=
  ((d.sortedColumns.map fun c => Text.lower c.name).zip values).lookup field

/-- A record made of the value of each field says that value. -/
theorem recordValue?_map {d : Table} {field : Text} (h : field ∈ (Layout.ofTable d).fields)
    (value : Text → Text) :
    recordValue? d ((Layout.ofTable d).fields.map value) field = some (value field) :=
  Layout.lookup_zip_map h value

/-- A record of the dictionary table `d` that is about a column, with the name of the column's table
and the column's number in it. -/
structure IsRecordOf (d : Table) (table : Text) (number : Nat) (c : Column) (values : List Text) :
    Prop where
  length : values.length = (Layout.ofTable d).fields.length
  tableName : recordValue? d values "table_name" = some table
  columnId : recordValue? d values "column_id" = some (Text.decimal number)
  columnName : recordValue? d values "column_name" = some c.name
  dataType : ("data_type" : Text) ∈ (Layout.ofTable d).fields →
    recordValue? d values "data_type" = some c.dataType
  nullable : ("nullable" : Text) ∈ (Layout.ofTable d).fields →
    recordValue? d values "nullable" = some (flagLetter c.nullable)

theorem isRecordOf_numberedFields {d : Table}
    (hfields : ∀ field ∈ keyFields, field ∈ (Layout.ofTable d).fields) (table : Text)
    (number : Nat) (c : Column) (columns : List Column) :
    IsRecordOf d table number c
      ((Layout.ofTable d).fields.map (valueIn columns (numberedFields table number c))) := by
  constructor
  · exact List.length_map _
  · exact recordValue?_map (hfields _ (by decide)) _
  · exact recordValue?_map (hfields _ (by decide)) _
  · exact recordValue?_map (hfields _ (by decide)) _
  · intro hfield
    exact recordValue?_map hfield _
  · intro hfield
    exact recordValue?_map hfield _

/-- The records about the columns of a table are read back one for each column, in order. -/
theorem decode?_columnRecords {e : Encoder} (he : e.Valid) {d : Table}
    (hd : e.table? .tableColumns = some d)
    (hfields : ∀ field ∈ keyFields, field ∈ (Layout.ofTable d).fields) (t : Table) :
    ∃ text records, t.columnRecords e = .ok text ∧ Reader.decode? text = some records ∧
      records.length = t.sortedColumns.length ∧
      ∀ (k : Nat) (c : Column), t.sortedColumns[k]? = some c →
        ∃ values, records[k]? = some values ∧ IsRecordOf d t.name (k + 1) c values := by
  have hsome : (Layout.ofTable d).fields ≠ [] := List.ne_nil_of_mem (hfields _ List.mem_cons_self)
  obtain ⟨_, rfl, htext, hread⟩ := decode?_records he hd (columnFields t.name t.sortedColumns)
  refine ⟨_, _, htext, hread hsome, ?_, ?_⟩
  · rw [List.length_map, columnFields, length_columnFieldsFrom]
  · intro k c hc
    refine ⟨_, ?_, isRecordOf_numberedFields hfields t.name (k + 1) c (e.order.columns d)⟩
    rw [List.getElem?_map, columnFields, getElem?_columnFieldsFrom, hc, Nat.add_comm 1]
    rfl

end Encoder

namespace Table

/-- What stands in a control file before the field clauses. -/
def controlOpening (target : Text) (direct : Bool) : List Text :=
  ["OPTIONS (SILENT=(HEADER, FEEDBACK), DIRECT=" ++ directText direct ++ ")",
    "LOAD DATA",
    "CHARACTERSET UTF8",
    "LENGTH SEMANTICS CHAR",
    "BYTEORDERMARK CHECK",
    "INFILE '" ++ target ++ ".DAT' \"STR '" ++ recordEndSpelling ++ "'\"",
    "APPEND",
    "INTO TABLE " ++ target,
    "FIELDS TERMINATED BY ',' OPTIONALLY ENCLOSED BY '\"' AND '\"'",
    "TRAILING NULLCOLS",
    "("]

theorem controlFileFor_of_controlFile {t : Table} {control : Text}
    (h : t.controlFile = .ok (some control)) : t.controlFileFor t.name = .ok control := by
  unfold controlFile at h
  split at h
  · obtain ⟨text, htext, hsome⟩ := except_map_eq_ok_iff.mp h
    rw [htext, Option.some.inj hsome]
  · cases h

/-- The field clauses of a column as the group of a control file that comes behind `k` others. The
first group goes without the commas in front, which is one comma unless the name of its column
begins with one. -/
def GroupBehind (k : Nat) (c : Column) (group : Text) : Prop :=
  ∃ clause, c.fieldClause = .ok clause ∧
    if k = 0 then
      group = clause.dropWhile (· == ',') ∧ (c.name.head? ≠ some ',' → clause = ',' :: group)
    else group = clause

theorem exists_groupBehind {columns : List Column} {clauses : List Text}
    (h : fieldClauses columns = .ok clauses) {k : Nat} {c : Column} (hc : columns[k]? = some c) :
    ∃ group, (dropFirstComma clauses)[k]? = some group ∧ GroupBehind k c group := by
  obtain ⟨clause, hget, hclause⟩ := (fieldClauses_eq_ok h).2 k c hc
  cases clauses with
  | nil =>
    rw [List.getElem?_nil] at hget
    cases hget
  | cons first more =>
    cases k with
    | zero =>
      cases hget
      have hstarts := Column.startsField_fieldClause hclause
      exact ⟨_, rfl, _, hclause, rfl, hstarts.eq_cons_dropWhile⟩
    | succ k => exact ⟨clause, hget, clause, hclause, rfl⟩

/-- The three texts about the columns of a table, as long as the dictionary table has the fields that
tell columns apart. There are as many definitions as records, and as groups of field clauses if there
is a control file. Those of the same number are about the same column: the record gives the number,
and the name, type and nullability that are in the definition. -/
theorem columnTexts_agree (order : ColumnOrder) (calls : List Encoder.Call) {d : Table}
    (hd : (Encoder.run { order } calls).table? .tableColumns = some d)
    (hfields : ∀ field ∈ Encoder.keyFields,
      field ∈ d.columns.toList.map fun c => Text.lower c.name) (t : Table) :
    ∃ text records lines,
      t.columnRecords (Encoder.run { order } calls) = .ok text ∧
      Reader.decode? text = some records ∧
      t.statement = Text.joined "\n" (("CREATE TABLE \"" ++ t.name ++ "\" (") :: lines
        ++ [(")" : Text), "ENABLE ROW MOVEMENT TABLESPACE &1;"]) ∧
      lines.length = t.sortedColumns.length ∧ records.length = lines.length ∧
      (∀ (k : Nat) (c : Column), t.sortedColumns[k]? = some c →
        lines[k]? = some (c.definitionBody ++ Text.onlyIf (k + 1 < lines.length) [',']) ∧
        ∃ values, records[k]? = some values ∧ Encoder.IsRecordOf d t.name (k + 1) c values) ∧
      (∀ control, t.controlFile = .ok (some control) → t.controlFileFor t.name = .ok control) ∧
      ∀ target control, t.controlFileFor target = .ok control → ∃ groups,
        control = Text.joined "\n"
          (controlOpening target t.loadsDirectly ++ groups ++ [(")" : Text)]) ∧
        groups.length = lines.length ∧
        ∀ (k : Nat) (c : Column), t.sortedColumns[k]? = some c →
          ∃ group, groups[k]? = some group ∧ GroupBehind k c group := by
  have hvalid : (Encoder.run { order } calls).Valid := (Encoder.valid_empty order).run calls
  have hname : isDictionaryObject d.name = true := by
    rw [hvalid .tableColumns d hd]
    exact Dictionary.tableColumns.isDictionaryObject_tableName
  have hlayout := Encoder.mem_fields_of_mem_keyFields hname hfields
  obtain ⟨text, records, htext, hread, hlength, hrecords⟩ :=
    Encoder.decode?_columnRecords hvalid hd hlayout t
  have hlines : (dropFinalComma (t.sortedColumns.map Column.definition)).length =
      t.sortedColumns.length := by
    rw [dropFinalComma_definitions, List.length_mapIdx]
  refine ⟨text, records, dropFinalComma (t.sortedColumns.map Column.definition), htext, hread, rfl,
    hlines, hlength.trans hlines.symm, ?_, fun _ => controlFileFor_of_controlFile, ?_⟩
  · intro k c hc
    rw [hlines, dropFinalComma_definitions, List.getElem?_mapIdx, hc]
    exact ⟨rfl, hrecords k c hc⟩
  · intro target control hcontrol
    obtain ⟨clauses, hclauses, rfl⟩ := except_map_eq_ok_iff.mp hcontrol
    refine ⟨dropFirstComma clauses, rfl, ?_, fun k c hc => exists_groupBehind hclauses hc⟩
    rw [hlines, ← (fieldClauses_eq_ok hclauses).1]
    cases clauses <;> rfl

/-- A dictionary table with the fields that tell columns apart, and one that has only a default. -/
def columnsTable : Table where
  name := "DB_TABLE_COLUMNS"
  columns := ⟨[{ Column.blank 0 with name := "COLUMN_ID" },
    { Column.blank 1 with name := "TABLE_NAME" },
    { Column.blank 2 with name := "RELEVANT", defaultValue := "'W'" },
    { Column.blank 3 with name := "COLUMN_NAME" }]⟩

/-- A loaded table with the snapshot column, and with a column that has a quote in its name. -/
def quotedTable : Table where
  name := "T"
  loadOnInstall := true
  columns := ⟨[{ Column.blank 1 with name := "A\"B", dataType := "DATE", nullable := false }]⟩
  snapshotColumn := some (Column.snapshot 0)

theorem columnTexts_agree_quotedTable :
    (Encoder.run {} [.register .tableColumns columnsTable]).table? .tableColumns =
        some columnsTable ∧
      (∀ field ∈ Encoder.keyFields,
        field ∈ columnsTable.columns.toList.map fun c => Text.lower c.name) ∧
      ∃ (text control : Text) (records : List (List Text)) (lines : List Text),
        quotedTable.columnRecords (Encoder.run {} [.register .tableColumns columnsTable]) =
          .ok text ∧
        Reader.decode? text = some records ∧ records.length = 2 ∧ lines.length = 2 ∧
        lines[1]? = some ("\"A\"B\" DATE NOT NULL" : Text) ∧
        (∃ values, records[1]? = some values ∧
          Encoder.recordValue? columnsTable values "column_id" = some ("2" : Text) ∧
          Encoder.recordValue? columnsTable values "column_name" = some ("A\"B" : Text)) ∧
        quotedTable.controlFile = .ok (some control) ∧
        ∃ groups : List Text,
          control = Text.joined "\n" (controlOpening "T" true ++ groups ++ [(")" : Text)]) ∧
          groups.length = 2 ∧
          ∃ group, groups[0]? = some group ∧ GroupBehind 0 (Column.snapshot 0) group := by
  have hregistered : (Encoder.run {} [.register .tableColumns columnsTable]).table? .tableColumns =
      some columnsTable := rfl
  have hfields : ∀ field ∈ Encoder.keyFields,
      field ∈ columnsTable.columns.toList.map fun c => Text.lower c.name := by decide +kernel
  obtain ⟨control, hcontrol⟩ : ∃ control, quotedTable.controlFile = .ok (some control) := ⟨_, rfl⟩
  obtain ⟨text, records, lines, htext, hread, _, hlines, hrecords, hcolumns, hloaded, hgroups⟩ :=
    columnTexts_agree .creation _ hregistered hfields quotedTable
  obtain ⟨hline, values, hvalues, hrecord⟩ := hcolumns 1 _ rfl
  obtain ⟨groups, hjoined, hlength, hgroup⟩ := hgroups _ _ (hloaded control hcontrol)
  rw [hlines] at hrecords hline hlength
  exact ⟨hregistered, hfields, text, control, records, lines, htext, hread, hrecords, hlines, hline,
    ⟨values, hvalues, hrecord.columnId, hrecord.columnName⟩, hcontrol, groups, hjoined, hlength,
    hgroup 0 _ rfl⟩

end Table

end SchemaPackage
