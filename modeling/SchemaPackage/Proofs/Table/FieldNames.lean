import SchemaPackage.Proofs.ObtainedColumns
import SchemaPackage.Proofs.Table.FieldLists
import SchemaPackage.Proofs.Text.Lengths

/-!
The names of the data fields in a control file. No two columns have the same name, but a column that
is loaded as a large text brings a second name with it, made of the first characters of its own and
a mark. Nothing keeps that name apart from other names. So the names are distinct exactly if no
column has a name that is made for an indicator field, and no two large texts begin alike. The
name that is made has no more characters than a name may have bytes.
-/
namespace SchemaPackage

open Text

/-- An indicator field's name fits unless the name of the column takes all bytes that a name may
have and has fewer characters. -/
theorem byteLength_indicatorName_le {name : Text} (h : name.byteLength ≤ maxNameBytes)
    (hroom : name.byteLength < maxNameBytes ∨ maxNameBytes ≤ name.length) :
    (indicatorName name).byteLength ≤ maxNameBytes := by
  have hsplit : byteLength (name.take indicatorLength) + byteLength (name.drop indicatorLength) =
      name.byteLength := by
    rw [← byteLength_append, List.take_append_drop]
  have hmark : byteLength ("#" : Text) = 1 := by decide
  have hrest := length_le_byteLength (name.drop indicatorLength)
  rw [List.length_drop] at hrest
  rw [indicatorName, byteLength_append, hmark]
  unfold indicatorLength maxNameBytes at *
  omega

theorem length_indicatorName_le (name : Text) : (indicatorName name).length ≤ maxNameBytes := by
  have hmark : ("#" : Text).length = 1 := by decide
  rw [indicatorName, List.length_append, List.length_take, hmark]
  unfold indicatorLength maxNameBytes
  omega

theorem indicatorName_eq_iff {name other : Text} :
    indicatorName name = indicatorName other ↔
      name.take indicatorLength = other.take indicatorLength := by
  simp [indicatorName]

namespace Column

variable {c : Column}

/-- The column as a list of fields begins with it: without the commas that its name begins with,
unless an indicator field stands in front. -/
def atFront (c : Column) : Column :=
  if c.IsLarge then c else { c with name := c.name.dropWhile (· == ',') }

theorem dataFields_of_isLarge (h : c.IsLarge) :
    c.dataFields = TypeFamily.large.dataFields c.name := by
  rw [dataFields, h.1, h.2]

/-- Any other column is loaded from the one field of its name. -/
theorem dataFields_of_not_isLarge (h : ¬ c.IsLarge) {clause : Text}
    (hclause : c.fieldClause = .ok clause) :
    ∃ content, c.dataFields = [⟨[], c.name, content⟩] := by
  have hsome := dataFields_ne_nil hclause
  unfold dataFields at hsome ⊢
  split
  next expression _ => exact ⟨_, rfl⟩
  next hexpression =>
    simp only [hexpression] at hsome
    split
    next family hfamily =>
      cases family with
      | large => exact absurd ⟨hexpression, hfamily⟩ h
      | _ => exact ⟨_, rfl⟩
    next hnone =>
      rw [hnone] at hsome
      exact absurd rfl hsome

theorem names_bareFirst {clause : Text} (hclause : c.fieldClause = .ok clause)
    (more : List DataField) :
    (DataField.bareFirst (c.dataFields ++ more)).map DataField.name =
      c.atFront.dataNames ++ more.map DataField.name := by
  by_cases hlarge : c.IsLarge
  · rw [dataFields_of_isLarge hlarge, atFront, if_pos hlarge, dataNames, if_pos hlarge]
    simp [TypeFamily.dataFields, DataField.bareFirst, DataField.bare]
  · obtain ⟨content, hfields⟩ := dataFields_of_not_isLarge hlarge hclause
    -- whether a column is a large text does not depend on its name
    have hbare : ¬ ({ c with name := c.name.dropWhile (· == ',') } : Column).IsLarge := hlarge
    rw [hfields, atFront, if_neg hlarge, dataNames, if_neg hbare]
    simp [DataField.bareFirst, DataField.bare]

/-- The names of all fields: those of the columns, and those made for indicator fields. -/
theorem flatMap_dataNames_perm (columns : List Column) :
    (columns.flatMap dataNames).Perm
      (columns.map name ++ (columns.filter (·.IsLarge)).map fun c => indicatorName c.name) := by
  induction columns with
  | nil => exact List.Perm.refl _
  | cons c rest ih =>
    by_cases hlarge : c.IsLarge
    · rw [List.flatMap_cons, dataNames, if_pos hlarge,
        List.filter_cons_of_pos (by simpa using hlarge), List.map_cons, List.map_cons]
      exact ((List.Perm.swap _ _ _).trans ((ih.cons _).cons _)).trans
        (List.Perm.cons _ List.perm_middle.symm)
    · rw [List.flatMap_cons, dataNames, if_neg hlarge,
        List.filter_cons_of_neg (by simpa using hlarge)]
      exact ih.cons _

/-- No indicator field is called like a column or like another indicator field. -/
structure IndicatorsApart (columns : List Column) : Prop where
  names : ∀ c ∈ columns, c.IsLarge → ∀ d ∈ columns, d.name ≠ indicatorName c.name
  beginnings : ((columns.filter (·.IsLarge)).map fun c => c.name.take indicatorLength).Nodup

theorem nodup_flatMap_dataNames_iff {columns : List Column} :
    (columns.flatMap dataNames).Nodup ↔
      (columns.map name).Nodup ∧ IndicatorsApart columns := by
  have hbeginnings : ((columns.filter (·.IsLarge)).map fun c => indicatorName c.name).Nodup ↔
      ((columns.filter (·.IsLarge)).map fun c => c.name.take indicatorLength).Nodup := by
    simp only [List.Nodup, List.pairwise_map, ne_eq, indicatorName_eq_iff]
  rw [(flatMap_dataNames_perm columns).nodup_iff, List.nodup_append, hbeginnings]
  constructor
  · intro ⟨hnames, hbegin, hapart⟩
    refine ⟨hnames, fun c hc hlarge d hd => ?_, hbegin⟩
    apply hapart d.name (List.mem_map_of_mem hd)
    exact List.mem_map.mpr ⟨c, List.mem_filter.mpr ⟨hc, by simpa using hlarge⟩, rfl⟩
  · intro ⟨hnames, h⟩
    refine ⟨hnames, h.beginnings, fun name hname other hother => ?_⟩
    obtain ⟨d, hd, rfl⟩ := List.mem_map.mp hname
    obtain ⟨c, hc, rfl⟩ := List.mem_map.mp hother
    obtain ⟨hc, hlarge⟩ := List.mem_filter.mp hc
    exact h.names c hc (by simpa using hlarge) d hd

theorem byteLength_atFront_le (c : Column) : c.atFront.name.byteLength ≤ c.name.byteLength := by
  unfold atFront
  split
  · exact le_rfl
  · exact byteLength_le_of_suffix (List.dropWhile_suffix _)

theorem atFront_eq_self (h : c.IsLarge ∨ c.name.head? ≠ some ',') : c.atFront = c := by
  unfold atFront
  split
  next => rfl
  next hsmall =>
    have hhead := h.resolve_left hsmall
    have hname : c.name.dropWhile (· == ',') = c.name := by
      apply dropWhile_of_head
      intro d hd
      rw [Option.mem_def.mp hd] at hhead
      simpa using hhead
    rw [hname]

end Column

namespace Table

variable {t : Table} {target control : Text}

/-- The columns under the names that a control file lists them by. -/
def listedColumns (t : Table) : List Column :=
  match t.sortedColumns with
  | [] => []
  | c :: rest => c.atFront :: rest

theorem names_listedFields (h : t.controlFileFor target = .ok control) :
    t.listedFields.map DataField.name = t.listedColumns.flatMap Column.dataNames := by
  obtain ⟨clauses, hclauses, _⟩ := Outcome.except_map_eq_ok_iff.mp h
  unfold listedFields dataFields listedColumns
  cases hcolumns : t.sortedColumns with
  | nil => rfl
  | cons c rest =>
    rw [hcolumns] at hclauses
    obtain ⟨clause, more, rfl, hclause, hmore⟩ := fieldClauses_cons_eq_ok hclauses
    rw [List.flatMap_cons, Column.names_bareFirst hclause, (fieldClauses_eq_joined hmore).2]
    rfl

theorem byteLength_listedColumns_le {limit : Nat}
    (h : ∀ c ∈ t.sortedColumns, c.name.byteLength ≤ limit) :
    ∀ c ∈ t.listedColumns, c.name.byteLength ≤ limit := by
  unfold listedColumns
  split
  next => exact fun c hc => absurd hc List.not_mem_nil
  next c rest hcolumns =>
    rw [hcolumns, List.forall_mem_cons] at h
    exact List.forall_mem_cons.mpr ⟨c.byteLength_atFront_le.trans h.1, h.2⟩

/-- As no two columns have the same name, only the one at the front can be listed like another. -/
theorem nodup_names_listedColumns_iff (h : (t.sortedColumns.map Column.name).Nodup) :
    (t.listedColumns.map Column.name).Nodup ↔
      ∀ c ∈ t.listedColumns.head?, ∀ d ∈ t.sortedColumns.tail, d.name ≠ c.name := by
  unfold listedColumns
  cases hcolumns : t.sortedColumns with
  | nil => simp
  | cons c rest =>
    rw [hcolumns, List.map_cons, List.nodup_cons] at h
    simp [h.2]

theorem listedColumns_eq_sortedColumns
    (h : ∀ c ∈ t.sortedColumns.head?, c.IsLarge ∨ c.name.head? ≠ some ',') :
    t.listedColumns = t.sortedColumns := by
  unfold listedColumns
  split
  next hnone => rw [hnone]
  next c rest hcolumns =>
    rw [hcolumns] at h ⊢
    rw [Column.atFront_eq_self (h c rfl)]

/-- The names of the fields that a control file lists, for a table whose columns have names within
the limit. They are those of the columns and of the indicator fields, where the first column may
lose commas in front of its name. They are distinct exactly if that makes it no other column's name
and the indicator fields have names for themselves. All names of columns are within the limit, and
so is that of an indicator field, which never has more characters than the limit has bytes, unless
the name of its column takes all bytes with fewer characters. -/
theorem nodup_fieldNames_iff (ht : Obtained (.table t))
    (hstored : ∀ c ∈ t.sortedColumns, c.name.byteLength ≤ maxNameBytes)
    (h : t.controlFileFor target = .ok control) :
    control = joined "\n" (controlOpening target t.loadsDirectly ++ DataField.lines t.listedFields
        ++ [(")" : Text)]) ∧
      t.listedFields.map DataField.name = t.listedColumns.flatMap Column.dataNames ∧
      ((t.listedFields.map DataField.name).Nodup ↔
        (∀ c ∈ t.listedColumns.head?, ∀ d ∈ t.sortedColumns.tail, d.name ≠ c.name) ∧
          Column.IndicatorsApart t.listedColumns) ∧
      ((∀ c ∈ t.sortedColumns.head?, c.IsLarge ∨ c.name.head? ≠ some ',') →
        t.listedColumns = t.sortedColumns ∧
          ((t.listedFields.map DataField.name).Nodup ↔
            Column.IndicatorsApart t.sortedColumns)) ∧
      ∀ c ∈ t.listedColumns, c.name.byteLength ≤ maxNameBytes ∧
        (indicatorName c.name).length ≤ maxNameBytes ∧
        (c.name.byteLength < maxNameBytes ∨ maxNameBytes ≤ c.name.length →
          (indicatorName c.name).byteLength ≤ maxNameBytes) := by
  have hnames := names_listedFields h
  refine ⟨controlFileFor_eq_listed h, hnames, ?_, fun hfront => ?_, fun c hc => ?_⟩
  · rw [hnames, Column.nodup_flatMap_dataNames_iff, nodup_names_listedColumns_iff ht.nodup_names]
  · have hcolumns := listedColumns_eq_sortedColumns hfront
    refine ⟨hcolumns, ?_⟩
    rw [hnames, Column.nodup_flatMap_dataNames_iff, hcolumns]
    exact and_iff_right ht.nodup_names
  · have hlimit := byteLength_listedColumns_le hstored c hc
    exact ⟨hlimit, length_indicatorName_le c.name, byteLength_indicatorName_le hlimit⟩

/-- A table of two columns. -/
def pair (first second : Column) : Table where
  name := "T"
  columns := ⟨[first, second]⟩

theorem obtained_pair {c d : Column} (hc : Obtained (.column c)) (hd : Obtained (.column d))
    (hname : c.name ≠ d.name) (horder : c.order < d.order) :
    Obtained (.table (pair c d)) := by
  have hraised : Text.upper ['T'] = ['T'] := by decide
  have hother : c.sameName d = false ∧ d.sameName c = false := by
    simp [Column.sameName, hname, hname.symm]
  have hlater : ¬ d.order < c.order := by omega
  have hpair : (({ name := Text.upper "T" } : Table).addColumn c).addColumn d = pair c d := by
    simp [addColumn, ColumnSet.insert, ColumnSet.place, pair, hother, hlater, hraised]
  have hnew := obtained_table "T" (by decide) (by decide +kernel)
  exact hpair ▸ (hnew.addColumn hc).addColumn hd

theorem obtained_bare_pair {name other dataType type : Text}
    (h : Column.ofNameAndType name dataType 0 = .ok (.bare name dataType 0))
    (h' : Column.ofNameAndType other type 1 = .ok (.bare other type 1)) (hne : name ≠ other) :
    Obtained (.table (pair (.bare name dataType 0) (.bare other type 1))) :=
  obtained_pair (obtained_column h) (obtained_column h') hne Nat.zero_lt_one

/-- Two large texts, one of them with a name of thirty letters. -/
def longNames : Table :=
  pair (.bare "DESCRIPTION_OF_THE_MAIN_ENTRY1" "CLOB" 0) (.bare "DOC" "CLOB" 1)

theorem nodup_fieldNames_longNames :
    ∃ control, Obtained (.table longNames) ∧
      (∀ c ∈ longNames.sortedColumns, c.name.byteLength ≤ maxNameBytes) ∧
      longNames.controlFileFor "T" = .ok control ∧
      longNames.listedFields.map DataField.name =
        ["DESCRIPTION_OF_THE_MAIN_ENTRY#", "DESCRIPTION_OF_THE_MAIN_ENTRY1", "DOC#", "DOC"] ∧
      (longNames.listedFields.map DataField.name).Nodup ∧
      (indicatorName "DESCRIPTION_OF_THE_MAIN_ENTRY1").byteLength ≤ maxNameBytes := by
  have hobtained : Obtained (.table longNames) :=
    obtained_bare_pair (by decide +kernel) (by decide +kernel) (by decide)
  have hstored : ∀ c ∈ longNames.sortedColumns, c.name.byteLength ≤ maxNameBytes := by
    decide +kernel
  obtain ⟨control, hcontrol⟩ : ∃ control, longNames.controlFileFor "T" = .ok control := ⟨_, rfl⟩
  obtain ⟨_, hnames, _, hdistinct, hlengths⟩ := nodup_fieldNames_iff hobtained hstored hcontrol
  obtain ⟨hcolumns, hdistinct⟩ := hdistinct (by decide)
  have hapart : Column.IndicatorsApart longNames.sortedColumns :=
    ⟨by decide +kernel, by decide +kernel⟩
  have hlong := hlengths (.bare "DESCRIPTION_OF_THE_MAIN_ENTRY1" "CLOB" 0) (by decide +kernel)
  refine ⟨control, hobtained, hstored, hcontrol, ?_, hdistinct.mpr hapart,
    hlong.2.2 (Or.inr (by decide))⟩
  rw [hnames]
  decide +kernel

/-- A large text beside a number that is called like its indicator field. -/
def markedName : Table := pair (.bare "DOC" "CLOB" 0) (.bare "DOC#" "NUMBER" 1)

/-- A large text whose name has fifteen letters and thirty bytes, beside a number. -/
def accentedName : Table :=
  pair (.bare (List.replicate 15 'É') "CLOB" 0) (.bare "NUMBER_OF_PAGES" "NUMBER" 1)

/-- In the first table an indicator field is called like a column; in the second it has a name of
more bytes than a column may have. -/
theorem fieldNames_clash :
    (∃ control, Obtained (.table markedName) ∧
      (∀ c ∈ markedName.sortedColumns, c.name.byteLength ≤ maxNameBytes) ∧
      markedName.controlFileFor "T" = .ok control ∧
      listedNames control = ["DOC#", "DOC", "DOC#"] ∧ ¬ (listedNames control).Nodup) ∧
    ∃ control, Obtained (.table accentedName) ∧
      (∀ c ∈ accentedName.sortedColumns, c.name.byteLength ≤ maxNameBytes) ∧
      accentedName.controlFileFor "T" = .ok control ∧
      ∃ name ∈ listedNames control, name = List.replicate 15 'É' ++ ['#'] ∧
        maxNameBytes < name.byteLength := by
  have hmarked : Obtained (.table markedName) :=
    obtained_bare_pair (by decide +kernel) (by decide +kernel) (by decide)
  have haccented : Obtained (.table accentedName) :=
    obtained_bare_pair (by decide +kernel) (by decide +kernel) (by decide)
  constructor
  · obtain ⟨control, hcontrol, hlisted⟩ : ∃ control,
        markedName.controlFileFor "T" = .ok control ∧
          listedNames control = ["DOC#", "DOC", "DOC#"] := ⟨_, rfl, by decide +kernel⟩
    refine ⟨control, hmarked, by decide +kernel, hcontrol, hlisted, ?_⟩
    rw [hlisted]
    decide
  · obtain ⟨control, hcontrol, hlisted⟩ : ∃ control,
        accentedName.controlFileFor "T" = .ok control ∧
          List.replicate 15 'É' ++ ['#'] ∈ listedNames control := ⟨_, rfl, by decide +kernel⟩
    exact ⟨control, haccented, by decide +kernel, hcontrol, _, hlisted, rfl, by decide +kernel⟩

end Table

end SchemaPackage
