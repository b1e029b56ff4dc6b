import SchemaPackage.Proofs.Load.Families
import SchemaPackage.Proofs.ObtainedColumns
import SchemaPackage.Proofs.Table.DataFields

/-!
The load mode of a control file. It is settled by the types of all columns that the table holds, the
clauses by the types of the columns in its statement. Each goes by a list of types. Of the three
types of large texts two rule out the direct path; the third, which is that of documents, does not.
-/
namespace SchemaPackage

open Outcome Text

theorem Text.infix_joined_of_mem {sep t : Text} {l : List Text} (h : t ∈ l) :
    t <:+: joined sep l := by
  match l with
  | [u] =>
    obtain rfl := List.mem_singleton.mp h
    exact List.infix_rfl
  | u :: next :: rest =>
    rw [joined_cons_cons, List.append_assoc]
    rcases List.mem_cons.mp h with rfl | h
    · exact (List.prefix_append _ _).isInfix
    · have hrest : t <:+: joined sep (next :: rest) := infix_joined_of_mem h
      exact hrest.trans ((List.suffix_append sep _).trans (List.suffix_append u _)).isInfix

namespace Column

variable {c : Column} {clause : Text}

theorem isLarge_iff :
    c.IsLarge ↔ c.loaderExpression = none ∧ trim c.dataType ∈ TypeFamily.largeNames := by
  rw [IsLarge, TypeFamily.ofType?_eq_some_iff]
  simp [TypeFamily.Covers, TypeFamily.Allows, TypeFamily.names, TypeFamily.largeNames]

theorem fieldClause_of_isLarge (hc : c.IsLarge) : c.fieldClause = .ok (largeClause c.name) := by
  rw [fieldClause, hc.1, loadClause?, hc.2]
  rfl

/-- The snapshot column has numbers. -/
theorem not_isLarge_snapshot (order : Nat) : ¬ (snapshot order).IsLarge := by
  have hnumber : ("NUMBER" : Text) ∉ TypeFamily.largeNames := by decide
  exact fun hlarge => hnumber (isLarge_iff.mp hlarge).2

end Column

namespace Table

variable {t : Table} {target control : Text}

/-- The first line of a control file. -/
def optionsLine (direct : Bool) : Text :=
  "OPTIONS (SILENT=(HEADER, FEEDBACK), DIRECT=" ++ directText direct ++ ")"

/-- The control file begins with the options for this mode. -/
def StatesMode (control : Text) (direct : Bool) : Prop :=
  optionsLine direct ++ ("\n" : Text) <+: control

theorem statesMode_controlFileFor (h : t.controlFileFor target = .ok control) :
    StatesMode control t.loadsDirectly := by
  obtain ⟨clauses, _, rfl⟩ := except_map_eq_ok_iff.mp h
  rw [StatesMode, controlText, List.cons_append, List.cons_append, List.cons_append,
    List.cons_append, joined_cons_cons]
  exact List.prefix_append _ _

/-- A control file states one mode. -/
theorem StatesMode.unique (h : StatesMode control true) : ¬ StatesMode control false := by
  intro h'
  have hbegins := List.prefix_or_prefix_of_prefix h h'
  revert hbegins
  decide

theorem statesMode_false_iff (h : t.controlFileFor target = .ok control) :
    StatesMode control false ↔ ∃ c ∈ t.columns.toList, c.dataType ∈ indirectTypes := by
  have hmode := statesMode_controlFileFor h
  have hany : (∃ c ∈ t.columns.toList, c.dataType ∈ indirectTypes) ↔ t.loadsDirectly = false := by
    simp [loadsDirectly]
  rw [hany]
  cases hdirect : t.loadsDirectly with
  | true =>
    rw [hdirect] at hmode
    simp [hmode.unique]
  | false =>
    rw [hdirect] at hmode
    simp [hmode]

theorem exists_mem_fieldClauses {columns : List Column} {clauses : List Text}
    (h : fieldClauses columns = .ok clauses) {c : Column} (hc : c ∈ columns) :
    ∃ clause ∈ clauses, c.fieldClause = .ok clause := by
  obtain ⟨k, hk⟩ := List.mem_iff_getElem?.mp hc
  obtain ⟨clause, hclause, heq⟩ := (fieldClauses_eq_ok h).2 k c hk
  exact ⟨clause, List.mem_of_getElem? hclause, heq⟩

theorem exists_mem_dropFirstComma {clauses : List Text} {clause : Text} (h : clause ∈ clauses) :
    ∃ line ∈ dropFirstComma clauses, clause.dropWhile (· == ',') <:+ line := by
  cases clauses with
  | nil => cases h
  | cons first more =>
    rcases List.mem_cons.mp h with rfl | h
    · exact ⟨_, List.mem_cons_self, List.suffix_rfl⟩
    · exact ⟨clause, List.mem_cons_of_mem _ h, List.dropWhile_suffix _⟩

/-- The clause of a column stands in the control file, apart from its comma if it is the first. -/
theorem infix_controlFileFor (h : t.controlFileFor target = .ok control) {c : Column}
    (hc : c ∈ t.sortedColumns) {clause : Text} (hclause : c.fieldClause = .ok clause) :
    clause.dropWhile (· == ',') <:+: control := by
  obtain ⟨clauses, hclauses, rfl⟩ := except_map_eq_ok_iff.mp h
  obtain ⟨clause', hmem, hclause'⟩ := exists_mem_fieldClauses hclauses hc
  obtain rfl : clause' = clause := Except.ok.inj (hclause'.symm.trans hclause)
  obtain ⟨line, hline, hsuffix⟩ := exists_mem_dropFirstComma hmem
  refine hsuffix.isInfix.trans (infix_joined_of_mem ?_)
  exact List.mem_append_left _ (List.mem_append_right _ hline)

/-- A control file asks for the conventional path exactly if the table holds a column of one of three
types, and for the direct path otherwise. So it asks for the conventional path if a column in it is
loaded as a large text, unless that is a document. -/
theorem statesMode_of_isLarge (ht : Obtained (.table t))
    (h : t.controlFileFor target = .ok control) :
    (StatesMode control false ↔
      ∃ c ∈ t.columns.toList, c.dataType ∈ (["CLOB", "BLOB", "LONG"] : List Text)) ∧
    (StatesMode control true ↔ ¬ StatesMode control false) ∧
    ∀ c ∈ t.sortedColumns, c.IsLarge →
      c.fieldClause = .ok (largeClause c.name) ∧
      (largeClause c.name).dropWhile (· == ',') <:+: control ∧
      (c.dataType ≠ "XMLTYPE" →
        (c.dataType = "CLOB" ∨ c.dataType = "LONG") ∧ StatesMode control false) := by
  refine ⟨statesMode_false_iff h, ⟨StatesMode.unique, fun hnot => ?_⟩, fun c hc hlarge => ?_⟩
  · have hmode := statesMode_controlFileFor h
    cases hdirect : t.loadsDirectly with
    | true => exact hdirect ▸ hmode
    | false => exact absurd (hdirect ▸ hmode) hnot
  · have hclause := Column.fieldClause_of_isLarge hlarge
    refine ⟨hclause, infix_controlFileFor h hc hclause, fun hother => ?_⟩
    obtain ⟨order, rfl⟩ | ⟨hmem, _⟩ := ht.mem_sortedColumns hc
    · exact absurd hlarge (Column.not_isLarge_snapshot order)
    have htrimmed : IsTrimmed c.dataType := (ht.keeps Column.kept_isTrimmed).columns c hmem
    have htype := (Column.isLarge_iff.mp hlarge).2
    rw [htrimmed.trim_eq] at htype
    have hmode : c.dataType ∈ indirectTypes → StatesMode control false := fun hindirect =>
      (statesMode_false_iff h).mpr ⟨c, hmem, hindirect⟩
    rcases List.mem_cons.mp htype with hclob | htype
    · exact ⟨Or.inl hclob, hmode (hclob ▸ by decide)⟩
    · rcases List.mem_cons.mp htype with hlong | htype
      · exact ⟨Or.inr hlong, hmode (hlong ▸ by decide)⟩
      · exact absurd (List.mem_singleton.mp htype) hother

/-- A table of one column. -/
def single (dataType : Text) : Table where
  name := "T"
  columns := ⟨[Column.bare "DOC" dataType 0]⟩

theorem obtained_single {dataType : Text}
    (h : Column.ofNameAndType "DOC" dataType 0 = .ok (.bare "DOC" dataType 0)) :
    Obtained (.table (single dataType)) :=
  (obtained_table "T" (by decide) (by decide +kernel)).addColumn (obtained_column h)

theorem statesMode_single_clob :
    ∃ control, Obtained (.table (single "CLOB")) ∧
      (single "CLOB").controlFileFor "T" = .ok control ∧
      Column.bare "DOC" "CLOB" 0 ∈ (single "CLOB").sortedColumns ∧
      (Column.bare "DOC" "CLOB" 0).IsLarge ∧ (Column.bare "DOC" "CLOB" 0).dataType ≠ "XMLTYPE" ∧
      StatesMode control false := by
  have hobtained : Obtained (.table (single "CLOB")) := obtained_single (by decide +kernel)
  obtain ⟨control, hcontrol⟩ : ∃ control, (single "CLOB").controlFileFor "T" = .ok control :=
    ⟨_, rfl⟩
  have hmem : Column.bare "DOC" "CLOB" 0 ∈ (single "CLOB").sortedColumns := by decide
  have hlarge : (Column.bare "DOC" "CLOB" 0).IsLarge := by decide
  have hother : (Column.bare "DOC" "CLOB" 0).dataType ≠ "XMLTYPE" := by decide
  obtain ⟨_, _, hmode⟩ := statesMode_of_isLarge hobtained hcontrol
  exact ⟨control, hobtained, hcontrol, hmem, hlarge, hother, ((hmode _ hmem hlarge).2.2 hother).2⟩

/-- A document is loaded as a large text, by the direct path. -/
theorem statesMode_single_document :
    ∃ control, Obtained (.table (single "XMLTYPE")) ∧
      (single "XMLTYPE").controlFileFor "T" = .ok control ∧
      ∃ c ∈ (single "XMLTYPE").sortedColumns, c.IsLarge ∧
        c.fieldClause = .ok (largeClause c.name) ∧
        StatesMode control true ∧ ¬ StatesMode control false := by
  have hobtained : Obtained (.table (single "XMLTYPE")) := obtained_single (by decide +kernel)
  obtain ⟨control, hcontrol⟩ : ∃ control, (single "XMLTYPE").controlFileFor "T" = .ok control :=
    ⟨_, rfl⟩
  have hdirect : (single "XMLTYPE").loadsDirectly = true := by decide
  have hmode := hdirect ▸ statesMode_controlFileFor hcontrol
  have hmem : Column.bare "DOC" "XMLTYPE" 0 ∈ (single "XMLTYPE").sortedColumns := by decide
  have hlarge : (Column.bare "DOC" "XMLTYPE" 0).IsLarge := by decide
  have hclause := Column.fieldClause_of_isLarge hlarge
  exact ⟨control, hobtained, hcontrol, _, hmem, hlarge, hclause, hmode, hmode.unique⟩

end Table

end SchemaPackage
