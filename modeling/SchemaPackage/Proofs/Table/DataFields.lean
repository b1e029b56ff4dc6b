import SchemaPackage.Proofs.Table.ColumnTexts
import SchemaPackage.Proofs.Text.Edges
import SchemaPackage.Proofs.Text.Entries

/-!
The data fields that control files list. A column is loaded from one field of its own name, unless
its type is for large texts and it has no expression of its own: such a column comes with an
indicator field in front. What is written between the brackets of a control file is one line for
each field.
-/
namespace SchemaPackage

open Outcome Text

namespace Text

variable {sep : Text}

theorem joined_middle {front a b back : List Text} (hfront : front ≠ []) (ha : a ≠ []) (hb : b ≠ [])
    (hback : back ≠ []) (h : joined sep a = joined sep b) :
    joined sep (front ++ a ++ back) = joined sep (front ++ b ++ back) := by
  have hleft : ∀ l : List Text, front ++ l ≠ [] := fun l hnil =>
    hfront (List.append_eq_nil_iff.mp hnil).1
  rw [joined_append (hleft a) hback, joined_append (hleft b) hback, joined_append hfront ha,
    joined_append hfront hb, h]

/-- What is dropped from the front of the first line is dropped from the front of all lines. -/
theorem joined_dropWhile_cons {p : Char → Bool} (hp : p '\n' = false) (line : Text)
    (more : List Text) :
    joined "\n" (line.dropWhile p :: more) = (joined "\n" (line :: more)).dropWhile p := by
  cases more with
  | nil => rfl
  | cons next more =>
    have hline : ("\n" : Text) ++ joined "\n" (next :: more) = '\n' :: joined "\n" (next :: more) :=
      rfl
    rw [joined_cons_cons, joined_cons_cons, List.append_assoc, List.append_assoc,
      List.dropWhile_append, hline]
    split
    next hempty =>
      rw [List.isEmpty_iff.mp hempty, List.dropWhile_cons, hp]
      rfl
    next => rfl

end Text

/-- A data field that a control file lists: what stands in front of its name, the name, and what is
said about the field behind it. -/
structure DataField where
  gap : Text
  name : Text
  content : Text

namespace DataField

def text (f : DataField) : Text := f.gap ++ f.name ++ f.content

/-- The line of a field that is not the first. -/
def line (f : DataField) : Text := "," ++ f.text

/-- The lines of all fields: only the first goes without a comma. -/
def lines : List DataField → List Text
  | [] => []
  | f :: rest => f.text :: rest.map line

/-- The field without the commas that its name begins with, unless something stands in front. -/
def bare (f : DataField) : DataField :=
  if f.gap = [] then { f with name := f.name.dropWhile (· == ',') } else f

/-- The fields as they are listed: the commas in front of the first go with those of its name. -/
def bareFirst : List DataField → List DataField
  | [] => []
  | f :: rest => f.bare :: rest

theorem bare_eq_self {f : DataField} (h : f.gap = [] → f.name.head? ≠ some ',') : f.bare = f := by
  unfold bare
  split
  next hgap =>
    rw [dropWhile_of_head]
    intro c hc
    have hne := h hgap
    rw [Option.mem_def.mp hc] at hne
    simpa using hne
  next => rfl

theorem dropWhile_line {f : DataField} (hgap : f.gap = [] ∨ f.gap = " ")
    (hcontent : [' '] <+: f.content) : f.line.dropWhile (· == ',') = f.bare.text := by
  have hline : f.line.dropWhile (· == ',') = f.text.dropWhile (· == ',') := rfl
  obtain ⟨more, hmore⟩ := hcontent
  have hkept : f.content.dropWhile (· == ',') = f.content := by
    rw [← hmore]
    rfl
  rw [hline, text, bare]
  rcases hgap with hgap | hgap
  · rw [if_pos hgap, text, hgap, List.nil_append, List.nil_append, List.dropWhile_append]
    split
    next hcommas => rw [List.isEmpty_iff.mp hcommas, hkept, List.nil_append]
    next => rfl
  · rw [if_neg (by rw [hgap]; decide), text, hgap]
    rfl

end DataField

namespace TypeFamily

/-- What is said about the field of a text that the loader converts in one piece. -/
def wholeTextContent (column size : Text) : Text :=
  " CHAR(" ++ size ++ ") \"TO_CHAR(:" ++ column ++ ")\""

def splitTextContent (column size : Text) : Text :=
  " CHAR(" ++ size ++ ") \"TO_CHAR(SUBSTR(:" ++ column ++ ",1," ++ Text.decimal pieceLimit
    ++ "))||TO_CHAR(SUBSTR(:" ++ column ++ "," ++ Text.decimal (pieceLimit + 1) ++ "))\""

def largeContent (column : Text) : Text :=
  " CHAR(" ++ Text.decimal largeFieldSize
    ++ ") ENCLOSED BY '<start_lob>' AND '<end_lob>' NULLIF " ++ indicatorName column ++ "='Y'"

/-- The data fields that the clause of a family lists. -/
def dataFields (column : Text) : TypeFamily → List DataField
  | sized size =>
    [⟨[], column, if fitsOnePiece size then wholeTextContent column size
      else splitTextContent column size⟩]
  | number => [⟨[], column, " \"TO_NUMBER(:" ++ column ++ ")\""⟩]
  | date => [⟨[], column, " DATE \"YYYY-MM-DD HH24:MI:SS\""⟩]
  | timestamp => [⟨[], column, " TIMESTAMP \"YYYY-MM-DD HH24:MI:SS:FF3\""⟩]
  | large => [⟨" ", indicatorName column, " FILTER CHAR"⟩, ⟨[], column, largeContent column⟩]
  | rowAddress => [⟨[], column, " CHAR(30) \"TO_CHAR(:" ++ column ++ ")\""⟩]
  | binary => [⟨[], column, " \"HEXTORAW(:" ++ column ++ ")\""⟩]

theorem splitTextClause_eq (column size : Text) :
    splitTextClause column size = "," ++ (column ++ splitTextContent column size) := by
  unfold splitTextClause splitTextContent
  -- The numbers in the clause are not to be worked out.
  generalize Text.decimal = digits
  simp only [List.append_assoc]

theorem largeClause_eq (column : Text) :
    largeClause column = "," ++ (" " ++ (indicatorName column ++ " FILTER CHAR")) ++ "\n"
      ++ ("," ++ (column ++ largeContent column)) := by
  have hindicator : (", " : Text) = "," ++ " " := rfl
  have hbreak : (" FILTER CHAR\n," : Text) = " FILTER CHAR" ++ ("\n" ++ ",") := rfl
  unfold largeClause largeContent
  generalize Text.decimal = digits
  simp only [hindicator, hbreak, List.append_assoc]

theorem clause_eq_joined (column : Text) (family : TypeFamily) :
    family.clause column = joined "\n" ((family.dataFields column).map DataField.line) := by
  cases family with
  | sized size =>
    change (if fitsOnePiece size then wholeTextClause column size else splitTextClause column size)
      = ("," : Text) ++ (column ++ if fitsOnePiece size then wholeTextContent column size
        else splitTextContent column size)
    split
    · unfold wholeTextClause wholeTextContent
      simp only [List.append_assoc]
    · exact splitTextClause_eq column size
  | large =>
    change largeClause column = _
    rw [largeClause_eq]
    simp only [dataFields, List.map_cons, List.map_nil, joined, DataField.line, DataField.text,
      List.append_assoc, List.nil_append]
  | _ =>
    simp only [clause, dataFields, List.map_cons, List.map_nil, joined, DataField.line,
      DataField.text, List.nil_append, List.append_assoc]

theorem names_dataFields (column : Text) (family : TypeFamily) :
    (family.dataFields column).map DataField.name =
      if family = large then [indicatorName column, column] else [column] := by
  cases family <;> rfl

/-- A field has the name of its column, or it is the indicator field, which a space stands in
front of. -/
theorem starts_of_mem_dataFields {column : Text} {family : TypeFamily} {f : DataField}
    (hf : f ∈ family.dataFields column) :
    (f.gap = [] ∧ f.name = column ∨ f.gap = " " ∧ f.name = indicatorName column) ∧
      [' '] <+: f.content := by
  cases family with
  | sized size =>
    obtain rfl := List.mem_singleton.mp hf
    refine ⟨Or.inl ⟨rfl, rfl⟩, ?_⟩
    dsimp only
    split <;> exact List.prefix_append [' '] _
  | large =>
    rcases List.mem_cons.mp hf with rfl | hf
    · exact ⟨Or.inr ⟨rfl, rfl⟩, List.prefix_append [' '] _⟩
    · obtain rfl := List.mem_singleton.mp hf
      exact ⟨Or.inl ⟨rfl, rfl⟩, List.prefix_append [' '] _⟩
  | _ =>
    obtain rfl := List.mem_singleton.mp hf
    exact ⟨Or.inl ⟨rfl, rfl⟩, List.prefix_append [' '] _⟩

end TypeFamily

namespace Column

/-- The data fields that the clause of a column lists; there are none if its type cannot be
loaded. -/
def dataFields (c : Column) : List DataField :=
  match c.loaderExpression with
  | some expression => [⟨[], c.name, " " ++ expression⟩]
  | none =>
    match TypeFamily.ofType? c.dataType with
    | some family => family.dataFields c.name
    | none => []

/-- The column is loaded as a large text. -/
def IsLarge (c : Column) : Prop :=
  c.loaderExpression = none ∧ TypeFamily.ofType? c.dataType = some .large
deriving Decidable

/-- The names of the data fields that a column is loaded from. -/
def dataNames (c : Column) : List Text :=
  if c.IsLarge then [indicatorName c.name, c.name] else [c.name]

theorem fieldClause_eq_joined {c : Column} {clause : Text} (h : c.fieldClause = .ok clause) :
    clause = joined "\n" (c.dataFields.map DataField.line) ∧
      c.dataFields.map DataField.name = c.dataNames := by
  unfold fieldClause at h
  cases hexpression : c.loaderExpression with
  | some expression =>
    rw [hexpression] at h
    cases h
    have hsmall : ¬ c.IsLarge := fun hlarge => by
      have := hlarge.1
      rw [hexpression] at this
      cases this
    rw [dataNames, if_neg hsmall, dataFields, hexpression]
    refine ⟨?_, rfl⟩
    simp only [List.map_cons, List.map_nil, joined, DataField.line, DataField.text,
      List.nil_append, List.append_assoc]
  | none =>
    rw [hexpression] at h
    dsimp only at h
    split at h
    next hclause =>
      cases h
      obtain ⟨family, hfamily, rfl⟩ := Option.map_eq_some_iff.mp hclause
      have hlarge : c.IsLarge ↔ family = .large := by
        rw [IsLarge, hexpression, hfamily, Option.some.injEq]
        exact and_iff_right rfl
      rw [dataFields, hexpression, hfamily, dataNames]
      refine ⟨family.clause_eq_joined c.name, ?_⟩
      simp only [hlarge]
      exact family.names_dataFields c.name
    next => cases h

theorem starts_of_mem_dataFields {c : Column} {f : DataField} (hf : f ∈ c.dataFields) :
    (f.gap = [] ∧ f.name = c.name ∨ f.gap = " " ∧ f.name = indicatorName c.name) ∧
      [' '] <+: f.content := by
  unfold dataFields at hf
  split at hf
  · obtain rfl := List.mem_singleton.mp hf
    exact ⟨Or.inl ⟨rfl, rfl⟩, List.prefix_append [' '] _⟩
  · split at hf
    · exact TypeFamily.starts_of_mem_dataFields hf
    · cases hf

theorem dataNames_ne_nil (c : Column) : c.dataNames ≠ [] := by
  unfold dataNames
  split <;> exact List.cons_ne_nil _ _

theorem dataFields_ne_nil {c : Column} {clause : Text} (h : c.fieldClause = .ok clause) :
    c.dataFields ≠ [] := by
  have hnames := (fieldClause_eq_joined h).2
  intro hnil
  rw [hnil] at hnames
  exact c.dataNames_ne_nil hnames.symm

end Column

namespace Table

/-- The data fields that the control file of a table lists. -/
def dataFields (t : Table) : List DataField := t.sortedColumns.flatMap Column.dataFields

theorem fieldClauses_cons_eq_ok {c : Column} {rest : List Column} {clauses : List Text}
    (h : fieldClauses (c :: rest) = .ok clauses) :
    ∃ clause more, clauses = clause :: more ∧ c.fieldClause = .ok clause ∧
      fieldClauses rest = .ok more := by
  rw [fieldClauses] at h
  cases hclause : c.fieldClause with
  | error fault =>
    rw [hclause] at h
    cases h
  | ok clause =>
    rw [hclause] at h
    obtain ⟨more, hmore, rfl⟩ := except_map_eq_ok_iff.mp h
    exact ⟨clause, more, rfl, rfl, hmore⟩

theorem fieldClauses_eq_joined {columns : List Column} {clauses : List Text}
    (h : fieldClauses columns = .ok clauses) :
    joined "\n" clauses = joined "\n" ((columns.flatMap Column.dataFields).map DataField.line) ∧
      (columns.flatMap Column.dataFields).map DataField.name =
        columns.flatMap Column.dataNames := by
  induction columns generalizing clauses with
  | nil =>
    cases h
    exact ⟨rfl, rfl⟩
  | cons c rest ih =>
    obtain ⟨clause, more, rfl, hclause, hmore⟩ := fieldClauses_cons_eq_ok h
    obtain ⟨hjoined, hnames⟩ := ih hmore
    obtain ⟨hlines, hc⟩ := Column.fieldClause_eq_joined hclause
    have hfields : c.dataFields.map DataField.line ≠ [] :=
      fun hnil => Column.dataFields_ne_nil hclause (List.map_eq_nil_iff.mp hnil)
    rw [List.flatMap_cons, List.map_append, List.map_append, List.flatMap_cons, hc, hnames]
    refine ⟨?_, rfl⟩
    cases rest with
    | nil =>
      cases hmore
      rw [List.flatMap_nil, List.map_nil, List.append_nil]
      exact hlines
    | cons next rest =>
      obtain ⟨clause', more', rfl, hclause', _⟩ := fieldClauses_cons_eq_ok hmore
      have hrest : ((next :: rest).flatMap Column.dataFields).map DataField.line ≠ [] := by
        rw [List.flatMap_cons, List.map_append]
        intro hnil
        exact Column.dataFields_ne_nil hclause'
          (List.map_eq_nil_iff.mp (List.append_eq_nil_iff.mp hnil).1)
      rw [joined_cons_cons, joined_append hfields hrest, hjoined, ← hlines]

/-- The clauses of a control file, line by line. -/
theorem joined_dropFirstComma {columns : List Column} {clauses : List Text}
    (h : fieldClauses columns = .ok clauses) :
    joined "\n" (dropFirstComma clauses) =
      joined "\n" (DataField.lines (DataField.bareFirst (columns.flatMap Column.dataFields))) := by
  have hjoined := (fieldClauses_eq_joined h).1
  cases columns with
  | nil =>
    cases h
    rfl
  | cons c rest =>
    obtain ⟨clause, more, rfl, hclause, _⟩ := fieldClauses_cons_eq_ok h
    obtain ⟨f, others, hf⟩ := List.exists_cons_of_ne_nil (Column.dataFields_ne_nil hclause)
    have hmem : f ∈ c.dataFields := hf ▸ List.mem_cons_self
    obtain ⟨hstart, hcontent⟩ := Column.starts_of_mem_dataFields hmem
    have htext : f.line.dropWhile (· == ',') = f.bare.text :=
      DataField.dropWhile_line (hstart.imp And.left And.left) hcontent
    rw [List.flatMap_cons, hf, List.cons_append, List.map_cons] at hjoined
    rw [List.flatMap_cons, hf, List.cons_append, DataField.bareFirst, DataField.lines,
      dropFirstComma, joined_dropWhile_cons rfl, hjoined, ← joined_dropWhile_cons rfl, htext]

/-- The data fields of a table as its control file lists them. -/
def listedFields (t : Table) : List DataField := DataField.bareFirst t.dataFields

theorem controlFileFor_eq_listed {target control : Text} {t : Table}
    (h : t.controlFileFor target = .ok control) :
    control = joined "\n" (controlOpening target t.loadsDirectly ++ DataField.lines t.listedFields
        ++ [(")" : Text)]) := by
  obtain ⟨clauses, hclauses, rfl⟩ := except_map_eq_ok_iff.mp h
  have hlines := joined_dropFirstComma hclauses
  unfold listedFields dataFields
  cases hcolumns : t.sortedColumns with
  | nil =>
    rw [hcolumns] at hclauses
    cases hclauses
    rfl
  | cons c rest =>
    rw [hcolumns] at hclauses hlines
    obtain ⟨clause, more, rfl, hclause, _⟩ := fieldClauses_cons_eq_ok hclauses
    obtain ⟨f, others, hf⟩ := List.exists_cons_of_ne_nil (Column.dataFields_ne_nil hclause)
    refine joined_middle (List.cons_ne_nil _ _) (List.cons_ne_nil _ _) ?_ (List.cons_ne_nil _ _)
      hlines
    rw [List.flatMap_cons, hf]
    exact List.cons_ne_nil _ _

/-- The names of all data fields, each without a part of it being dropped. -/
theorem names_dataFields_of_controlFileFor {target control : Text} {t : Table}
    (h : t.controlFileFor target = .ok control) :
    t.dataFields.map DataField.name = t.sortedColumns.flatMap Column.dataNames := by
  obtain ⟨clauses, hclauses, _⟩ := except_map_eq_ok_iff.mp h
  exact (fieldClauses_eq_joined hclauses).2

/-- Where the name of the first column does not begin with a comma, nothing of a name is dropped. -/
theorem listedFields_eq_dataFields {target control : Text} {t : Table}
    (h : t.controlFileFor target = .ok control)
    (hfirst : ∀ c ∈ t.sortedColumns.head?, c.name.head? ≠ some ',') :
    t.listedFields = t.dataFields := by
  obtain ⟨clauses, hclauses, _⟩ := except_map_eq_ok_iff.mp h
  unfold listedFields dataFields
  cases hcolumns : t.sortedColumns with
  | nil => rfl
  | cons c rest =>
    rw [hcolumns] at hclauses hfirst
    obtain ⟨clause, more, rfl, hclause, _⟩ := fieldClauses_cons_eq_ok hclauses
    obtain ⟨f, others, hf⟩ := List.exists_cons_of_ne_nil (Column.dataFields_ne_nil hclause)
    have hmem : f ∈ c.dataFields := hf ▸ List.mem_cons_self
    rw [List.flatMap_cons, hf, List.cons_append, DataField.bareFirst, DataField.bare_eq_self]
    intro hgap
    rcases (Column.starts_of_mem_dataFields hmem).1 with ⟨_, hname⟩ | ⟨hspace, _⟩
    · rw [hname]
      exact hfirst c rfl
    · rw [hgap] at hspace
      cases hspace

theorem controlFileFor_eq_joined {target control : Text} {t : Table}
    (h : t.controlFileFor target = .ok control)
    (hfirst : ∀ c ∈ t.sortedColumns.head?, c.name.head? ≠ some ',') :
    control = joined "\n" (controlOpening target t.loadsDirectly ++ DataField.lines t.dataFields
        ++ [(")" : Text)]) ∧
      t.dataFields.map DataField.name = t.sortedColumns.flatMap Column.dataNames := by
  have htext := controlFileFor_eq_listed h
  rw [listedFields_eq_dataFields h hfirst] at htext
  exact ⟨htext, names_dataFields_of_controlFileFor h⟩

end Table

end SchemaPackage
