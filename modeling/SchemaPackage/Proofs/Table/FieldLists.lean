import SchemaPackage.Proofs.Disk.Places
import SchemaPackage.Proofs.Table.DataFields

/-!
Lists of data fields, read back from the control files that they are written in. Records of the
dictionary have one value for each column, so a control file and the records of its table go
together exactly when no column comes with an indicator field.
-/
namespace SchemaPackage

open Outcome Text

namespace Text

/-- A name that a reader of control files can tell from what stands around it. -/
structure IsWord (name : Text) : Prop where
  ne_nil : name ≠ []
  no_comma : ',' ∉ name
  no_space : ' ' ∉ name
  no_newline : '\n' ∉ name

instance : DecidablePred IsWord := fun name =>
  decidable_of_iff (name ≠ [] ∧ ',' ∉ name ∧ ' ' ∉ name ∧ '\n' ∉ name)
    ⟨fun ⟨hnil, hcomma, hspace, hnewline⟩ => ⟨hnil, hcomma, hspace, hnewline⟩,
      fun h => ⟨h.ne_nil, h.no_comma, h.no_space, h.no_newline⟩⟩

end Text

namespace TypeFamily

theorem mem_size? {t size : Text} (h : size? t = some size) :
    ∀ c ∈ size, isDecimalDigit c = true := by
  unfold size? at h
  split at h
  · dsimp only at h
    split at h
    next d digits _ hdigits _ =>
      rw [← Option.some.inj h, ← hdigits]
      exact fun c hc => List.mem_takeWhile_imp hc
    next => cases h
  · cases h

theorem newline_notMem_of_ofType? {dataType size : Text}
    (h : ofType? dataType = some (.sized size)) : '\n' ∉ size := by
  obtain ⟨test, htest, hfamily⟩ := List.exists_of_findSome?_eq_some h
  simp only [tests, List.mem_cons, List.not_mem_nil, or_false] at htest
  rcases htest with rfl | rfl | rfl | rfl | rfl | rfl | rfl
  · obtain ⟨size', hsize, heq⟩ := Option.map_eq_some_iff.mp hfamily
    obtain ⟨name, _, hname⟩ := List.exists_of_findSome?_eq_some hsize
    obtain ⟨rest, _, hrest⟩ := Option.bind_eq_some_iff.mp hname
    cases heq
    intro hnewline
    have hdigit := mem_size? hrest _ hnewline
    exact absurd hdigit (by decide)
  · unfold number? at hfamily
    split at hfamily <;> cases hfamily
  · unfold date? at hfamily
    split at hfamily <;> cases hfamily
  · unfold timestamp? at hfamily
    split at hfamily <;> cases hfamily
  · unfold large? at hfamily
    split at hfamily <;> cases hfamily
  · unfold rowAddress? at hfamily
    split at hfamily <;> cases hfamily
  · obtain ⟨size', _, hbinary⟩ := Option.map_eq_some_iff.mp hfamily
    cases hbinary

theorem newline_notMem_content {column : Text} (hcolumn : '\n' ∉ column) {family : TypeFamily}
    (hsize : ∀ size, family = sized size → '\n' ∉ size) {f : DataField}
    (hf : f ∈ family.dataFields column) : '\n' ∉ f.content := by
  have hlimit : '\n' ∉ Text.decimal pieceLimit := by decide
  have hnext : '\n' ∉ Text.decimal (pieceLimit + 1) := by decide
  have hlargeSize : '\n' ∉ Text.decimal largeFieldSize := by decide
  have hindicator : '\n' ∉ indicatorName column := by
    rw [indicatorName, List.mem_append, not_or]
    exact ⟨fun h => hcolumn (List.mem_of_mem_take h), by decide⟩
  cases family with
  | sized size =>
    have hsize := hsize size rfl
    obtain rfl := List.mem_singleton.mp hf
    dsimp only
    split
    · unfold wholeTextContent
      simp only [List.mem_append, hcolumn, hsize, or_false]
      decide
    · unfold splitTextContent
      simp only [List.mem_append, hcolumn, hsize, hlimit, hnext, or_false]
      decide
  | large =>
    rcases List.mem_cons.mp hf with rfl | hf
    · change '\n' ∉ (" FILTER CHAR" : Text)
      decide
    · obtain rfl := List.mem_singleton.mp hf
      dsimp only
      unfold largeContent
      simp only [List.mem_append, hindicator, hlargeSize, or_false]
      decide
  | date =>
    obtain rfl := List.mem_singleton.mp hf
    change '\n' ∉ (" DATE \"YYYY-MM-DD HH24:MI:SS\"" : Text)
    decide
  | timestamp =>
    obtain rfl := List.mem_singleton.mp hf
    change '\n' ∉ (" TIMESTAMP \"YYYY-MM-DD HH24:MI:SS:FF3\"" : Text)
    decide
  | _ =>
    obtain rfl := List.mem_singleton.mp hf
    simp only [List.mem_append, hcolumn, or_false]
    decide

end TypeFamily

namespace DataField

/-- Its name can be read from its line. -/
structure IsPlain (f : DataField) : Prop where
  gap : ∀ c ∈ f.gap, c = ' '
  name : IsWord f.name
  content : [' '] <+: f.content
  oneLine : '\n' ∉ f.content

/-- The name that a line lists: what stands up to the next space, behind a comma and a space that
may be in front of it. -/
def nameIn (line : Text) : Text :=
  ((line.dropWhile (· == ',')).dropWhile (· == ' ')).takeWhile (· != ' ')

variable {f : DataField}

theorem nameIn_text (hf : f.IsPlain) : nameIn f.text = f.name := by
  obtain ⟨first, rest, hfirst⟩ := List.exists_cons_of_ne_nil hf.name.ne_nil
  have hmem : first ∈ f.name := hfirst ▸ List.mem_cons_self
  have hcomma : first ≠ ',' := fun h => hf.name.no_comma (h ▸ hmem)
  have hspace : first ≠ ' ' := fun h => hf.name.no_space (h ▸ hmem)
  have hcommas : f.text.dropWhile (· == ',') = f.text := by
    rw [text, List.append_assoc, hfirst]
    cases hgap : f.gap with
    | nil => simp [hcomma]
    | cons c gap =>
      obtain rfl := hf.gap c (by rw [hgap]; exact List.mem_cons_self)
      rfl
  have hspaces : f.text.dropWhile (· == ' ') = f.name ++ f.content := by
    rw [text, List.append_assoc, List.dropWhile_append_of_pos (by simpa using hf.gap), hfirst]
    simp [hspace]
  have hword : ∀ c ∈ f.name, (c != ' ') = true := by
    intro c hc
    rw [bne_iff_ne]
    exact fun h => hf.name.no_space (h ▸ hc)
  obtain ⟨more, hmore⟩ := hf.content
  rw [nameIn, hcommas, hspaces, ← hmore, List.takeWhile_append_of_pos hword]
  simp

theorem nameIn_line (hf : f.IsPlain) : nameIn f.line = f.name := nameIn_text hf

theorem IsPlain.newline_notMem_text (hf : f.IsPlain) : '\n' ∉ f.text := by
  have hgap : '\n' ∉ f.gap := fun h => absurd (hf.gap _ h) (by decide)
  rw [text, List.mem_append, List.mem_append, not_or, not_or]
  exact ⟨⟨hgap, hf.name.no_newline⟩, hf.oneLine⟩

/-- The line of a field is not the one that ends the list. -/
theorem IsPlain.space_mem_text (hf : f.IsPlain) : ' ' ∈ f.text :=
  List.mem_append_right _ (hf.content.subset List.mem_cons_self)

end DataField

namespace Column

/-- Its clause can be read line by line. -/
def IsPlain (c : Column) : Prop :=
  IsWord c.name ∧ ∀ expression ∈ c.loaderExpression, '\n' ∉ expression
deriving Decidable

theorem isPlain_of_mem_dataFields {c : Column} (hc : c.IsPlain) {f : DataField}
    (hf : f ∈ c.dataFields) : f.IsPlain := by
  have hindicator : IsWord (indicatorName c.name) := by
    have hkept {d : Char} (hd : d ∉ c.name) (hmark : d ∉ ("#" : Text)) :
        d ∉ indicatorName c.name := by
      rw [indicatorName, List.mem_append, not_or]
      exact ⟨fun h => hd (List.mem_of_mem_take h), hmark⟩
    exact ⟨by simp [indicatorName], hkept hc.1.no_comma (by decide),
      hkept hc.1.no_space (by decide), hkept hc.1.no_newline (by decide)⟩
  obtain ⟨hstart, hcontent⟩ := starts_of_mem_dataFields hf
  constructor
  · rcases hstart with ⟨hgap, _⟩ | ⟨hgap, _⟩ <;> simp [hgap]
  · rcases hstart with ⟨_, hname⟩ | ⟨_, hname⟩ <;> rw [hname]
    · exact hc.1
    · exact hindicator
  · exact hcontent
  · unfold dataFields at hf
    split at hf
    next expression hexpression =>
      obtain rfl := List.mem_singleton.mp hf
      simpa using hc.2 expression hexpression
    next =>
      split at hf
      next family hfamily =>
        refine TypeFamily.newline_notMem_content hc.1.no_newline ?_ hf
        rintro size rfl
        exact TypeFamily.newline_notMem_of_ofType? hfamily
      next => cases hf

end Column

namespace Table

/-- The names of the data fields that a control file lists, one line for each, between the line of
the opening bracket and that of the closing one. -/
def listedNames (control : Text) : List Text :=
  (((split '\n' control).dropWhile (· != ("(" : Text))).tail.takeWhile
    (· != (")" : Text))).map DataField.nameIn

theorem newline_notMem_controlOpening {target : Text} (htarget : '\n' ∉ target) (direct : Bool) :
    ∀ line ∈ controlOpening target direct, '\n' ∉ line := by
  have hdirect : '\n' ∉ directText direct := by
    cases direct <;> decide
  have hspelling : '\n' ∉ recordEndSpelling := by decide
  simp only [controlOpening, List.forall_mem_cons, List.mem_append, htarget, hdirect, hspelling,
    or_false]
  decide

theorem mem_lines {fields : List DataField} {line : Text} (h : line ∈ DataField.lines fields) :
    ∃ f ∈ fields, line = f.text ∨ line = f.line := by
  cases fields with
  | nil => cases h
  | cons f rest =>
    rcases List.mem_cons.mp h with rfl | h
    · exact ⟨f, List.mem_cons_self, Or.inl rfl⟩
    · obtain ⟨g, hg, rfl⟩ := List.mem_map.mp h
      exact ⟨g, List.mem_cons_of_mem f hg, Or.inr rfl⟩

theorem map_nameIn_lines {fields : List DataField} (h : ∀ f ∈ fields, f.IsPlain) :
    (DataField.lines fields).map DataField.nameIn = fields.map DataField.name := by
  cases fields with
  | nil => rfl
  | cons f rest =>
    rw [DataField.lines, List.map_cons, List.map_cons, List.map_map,
      DataField.nameIn_text (h f List.mem_cons_self)]
    exact congrArg (List.cons f.name) (List.map_congr_left fun g hg =>
      DataField.nameIn_line (h g (List.mem_cons_of_mem f hg)))

theorem listedNames_joined {target : Text} (htarget : '\n' ∉ target) (direct : Bool)
    {fields : List DataField} (h : ∀ f ∈ fields, f.IsPlain) :
    listedNames (joined "\n" (controlOpening target direct ++ DataField.lines fields
      ++ [(")" : Text)])) = fields.map DataField.name := by
  have hline : ∀ line ∈ DataField.lines fields, '\n' ∉ line ∧ ' ' ∈ line := by
    intro line hline
    obtain ⟨f, hf, rfl | rfl⟩ := mem_lines hline
    · exact ⟨(h f hf).newline_notMem_text, (h f hf).space_mem_text⟩
    · have htext := (h f hf).newline_notMem_text
      exact ⟨by simpa [DataField.line] using htext,
        List.mem_append_right _ (h f hf).space_mem_text⟩
  have hsplit : split '\n' (joined "\n" (controlOpening target direct ++ DataField.lines fields
      ++ [(")" : Text)])) = controlOpening target direct ++ DataField.lines fields
        ++ [(")" : Text)] := by
    refine split_joined (by simp) ?_
    intro line hmem
    rcases List.mem_append.mp hmem with hmem | hmem
    · rcases List.mem_append.mp hmem with hmem | hmem
      · exact newline_notMem_controlOpening htarget direct line hmem
      · exact (hline line hmem).1
    · obtain rfl := List.mem_singleton.mp hmem
      decide
  obtain ⟨front, hopening, hfront⟩ : ∃ front,
      controlOpening target direct = front ++ [("(" : Text)] ∧
        ∀ line ∈ front, (line != ("(" : Text)) = true := by
    refine ⟨(controlOpening target direct).dropLast, rfl, ?_⟩
    simp [controlOpening]
  rw [listedNames, hsplit, hopening, List.append_assoc, List.append_assoc,
    List.dropWhile_append_of_pos hfront]
  have hrest : ([("(" : Text)] ++ (DataField.lines fields ++ [(")" : Text)])).dropWhile
      (· != ("(" : Text)) = ("(" : Text) :: (DataField.lines fields ++ [(")" : Text)]) := rfl
  rw [hrest, List.tail_cons, List.takeWhile_append_of_pos]
  · have hend : [(")" : Text)].takeWhile (· != (")" : Text)) = [] := rfl
    rw [hend, List.append_nil, map_nameIn_lines h]
  · intro line hmem
    rw [bne_iff_ne]
    rintro rfl
    exact absurd (hline _ hmem).2 (by decide)

theorem length_flatMap_dataNames (columns : List Column) :
    (columns.flatMap Column.dataNames).length =
      columns.length + columns.countP fun c => decide c.IsLarge := by
  induction columns with
  | nil => rfl
  | cons c rest ih =>
    have hc : c.dataNames.length = 1 + if c.IsLarge then 1 else 0 := by
      unfold Column.dataNames
      split <;> rfl
    rw [List.flatMap_cons, List.length_append, ih, hc, List.length_cons, List.countP_cons]
    simp only [decide_eq_true_eq]
    omega

/-- A record has a value for every data field exactly when no column is loaded as a large text. -/
theorem names_eq_fields_iff {t : Table} :
    (t.sortedColumns.flatMap Column.dataNames).map Text.lower = (Layout.ofTable t).fields ↔
      ∀ c ∈ t.sortedColumns, ¬ c.IsLarge := by
  constructor
  · intro h
    have hlength := congrArg List.length h
    rw [List.length_map, length_flatMap_dataNames, Layout.ofTable, List.length_map] at hlength
    have hnone := List.countP_eq_zero.mp (Nat.add_eq_left.mp hlength)
    simpa only [decide_eq_true_eq] using hnone
  · intro h
    have hnames : t.sortedColumns.flatMap Column.dataNames = t.sortedColumns.map Column.name := by
      rw [← List.flatMap_singleton' (t.sortedColumns.map Column.name), List.flatMap_map]
      refine List.flatMap_congr fun c hc => ?_
      rw [Column.dataNames, if_neg (h c hc)]
    rw [hnames, List.map_map]
    rfl

/-- The control file of a registered dictionary table for any target, as long as the name of its
first column does not begin with a comma. It lists one data field for each column, in the order of
the columns, and an indicator field in front of each column that is loaded as a large text. So the
fields are those of a record, in number and order, exactly when there is no such column. -/
theorem controlFields_of_registered (order : ColumnOrder) (calls : List Encoder.Call)
    {k : Dictionary} {t : Table} (ht : (Encoder.run { order } calls).table? k = some t)
    {target control : Text}
    (hcontrol : t.controlFileFor target = .ok control)
    (hfirst : ∀ c ∈ t.sortedColumns.head?, c.name.head? ≠ some ',') :
    control = joined "\n" (controlOpening target t.loadsDirectly ++ DataField.lines t.dataFields
        ++ [(")" : Text)]) ∧
      t.dataFields.map DataField.name = t.sortedColumns.flatMap Column.dataNames ∧
      ('\n' ∉ target → (∀ c ∈ t.sortedColumns, c.IsPlain) →
        listedNames control = t.dataFields.map DataField.name) ∧
      (t.dataFields.map (fun f => Text.lower f.name) = (Layout.ofTable t).fields ↔
        ∀ c ∈ t.sortedColumns, ¬ c.IsLarge) ∧
      ∀ given, (Encoder.run { order } calls).render k given =
        .ok (recordOf ((Layout.ofTable t).fields.map
          (Encoder.valueIn (order.columns t) given))) := by
  have hvalid : (Encoder.run { order } calls).Valid := (Encoder.valid_empty order).run calls
  have hrender := Encoder.render_eq_ok hvalid ht
  rw [Encoder.order_run] at hrender
  obtain ⟨htext, hnames⟩ := controlFileFor_eq_joined hcontrol hfirst
  refine ⟨htext, hnames, ?_, ?_, hrender⟩
  · intro htarget hplain
    rw [htext]
    refine listedNames_joined htarget _ fun f hf => ?_
    obtain ⟨c, hc, hf⟩ := List.mem_flatMap.mp hf
    exact Column.isPlain_of_mem_dataFields (hplain c hc) hf
  · have hlower : t.dataFields.map (fun f => Text.lower f.name) =
        (t.sortedColumns.flatMap Column.dataNames).map Text.lower := by
      rw [← hnames, List.map_map]
      rfl
    rw [hlower, names_eq_fields_iff]

/-- A dictionary table with a column of a large type, which has an expression of its own or not. -/
def notedTable (expression : Option Text) : Table where
  name := "DB_OBJECTS"
  columns := ⟨[{ Column.blank 0 with name := "TABLE_NAME", dataType := "VARCHAR2(30)" },
    { Column.blank 1 with name := "NOTES", dataType := "CLOB", loaderExpression := expression },
    { Column.blank 2 with name := "RELEASE", dataType := "VARCHAR2( 4000 )" }]⟩

theorem controlFields_notedTable :
    (Encoder.run {} [.register .objects (notedTable (some "CHAR(9)"))]).table? .objects =
        some (notedTable (some "CHAR(9)")) ∧
      ∃ control, (notedTable (some "CHAR(9)")).controlFileFor "DB_OBJECTS_UPGRADE" = .ok control ∧
        listedNames control = ["TABLE_NAME", "NOTES", "RELEASE"] ∧
        (notedTable (some "CHAR(9)")).dataFields.map (fun f => Text.lower f.name) =
          (Layout.ofTable (notedTable (some "CHAR(9)"))).fields := by
  have hregistered : (Encoder.run {} [.register .objects (notedTable (some "CHAR(9)"))]).table?
      .objects = some (notedTable (some "CHAR(9)")) := rfl
  obtain ⟨control, hcontrol⟩ : ∃ control,
      (notedTable (some "CHAR(9)")).controlFileFor "DB_OBJECTS_UPGRADE" = .ok control := ⟨_, rfl⟩
  have hplain : ∀ c ∈ (notedTable (some "CHAR(9)")).sortedColumns, c.IsPlain := by decide +kernel
  have hsmall : ∀ c ∈ (notedTable (some "CHAR(9)")).sortedColumns, ¬ c.IsLarge := by
    decide +kernel
  obtain ⟨_, hnames, hlisted, hfields, _⟩ :=
    controlFields_of_registered .creation _ hregistered hcontrol (by decide +kernel)
  refine ⟨hregistered, control, hcontrol, ?_, hfields.mpr hsmall⟩
  rw [hlisted (by decide) hplain, hnames]
  rfl

def commaTable : Table where
  name := "DB_OBJECTS"
  columns := ⟨[{ Column.blank 0 with name := ",A", dataType := "DATE" }]⟩

/-- Without an expression of its own, a large text takes two data fields, and a record has one value
for it. The name of the first column is listed without the commas that it begins with. -/
theorem controlFields_differ :
    (∃ control, (Encoder.run {} [.register .objects (notedTable none)]).table? .objects =
        some (notedTable none) ∧
      (notedTable none).controlFileFor "DB_OBJECTS" = .ok control ∧
      listedNames control = ["TABLE_NAME", "NOTES#", "NOTES", "RELEASE"] ∧
      (listedNames control).map Text.lower ≠ (Layout.ofTable (notedTable none)).fields) ∧
    ∃ control, (Encoder.run {} [.register .objects commaTable]).table? .objects =
        some commaTable ∧
      commaTable.controlFileFor "DB_OBJECTS" = .ok control ∧
      listedNames control = ["A"] ∧
      (listedNames control).map Text.lower ≠ (Layout.ofTable commaTable).fields :=
  ⟨⟨_, rfl, rfl, by decide +kernel, by decide +kernel⟩,
    ⟨_, rfl, rfl, by decide +kernel, by decide +kernel⟩⟩

end Table

end SchemaPackage
