import Mathlib.Data.List.DropRight
import Mathlib.Data.List.Nodup
import SchemaPackage.Proofs.Dictionary.Calls

/-!
A reader of records. It goes through a text character by character and knows from the quotes
whether a comma or the end of a record is meant as such or stands inside a value. Values are read
back as they were given, whatever characters they hold, and records on end are told apart.
-/
namespace SchemaPackage

theorem Text.joined_cons_cons (sep t u : Text) (rest : List Text) :
    Text.joined sep (t :: u :: rest) = t ++ sep ++ Text.joined sep (u :: rest) :=
  rfl

/-- Where a reader stands: where a value has to start, inside a value, behind a quote that closes
the value unless another one follows, or within the end of a record. -/
inductive Place
  | outside
  | inside (value : Text)
  | behind (value : Text)
  | ending (due : Text)

/-- The records read so far, and the values of the record that is being read. -/
structure Reader where
  records : List (List Text) := []
  values : List Text := []
  place : Place := .outside

namespace Reader

/-- The end of a record is due, as far as it is not read yet. -/
def expect (r : Reader) : Text → Reader
  | [] => { records := r.records ++ [r.values] }
  | due => { r with place := .ending due }

def step? (r : Reader) (c : Char) : Option Reader :=
  match r.place with
  | .outside => if c = '"' then some { r with place := .inside [] } else none
  | .inside value =>
    if c = '"' then some { r with place := .behind value }
    else some { r with place := .inside (value ++ [c]) }
  | .behind value =>
    if c = '"' then some { r with place := .inside (value ++ ['"']) }
    else if c = ',' then some { r with values := r.values ++ [value], place := .outside }
    else if recordEnd.head? = some c then
      some (expect { r with values := r.values ++ [value] } recordEnd.tail)
    else none
  | .ending due => if due.head? = some c then some (r.expect due.tail) else none

def read? (r : Reader) : Text → Option Reader
  | [] => some r
  | c :: rest => (r.step? c).bind fun next => next.read? rest

/-- All records of a text that ends with one. -/
def decode? (t : Text) : Option (List (List Text)) :=
  (read? {} t).bind fun r =>
    match r.place, r.values with
    | .outside, [] => some r.records
    | _, _ => none

theorem read?_append (r : Reader) (t more : Text) :
    r.read? (t ++ more) = (r.read? t).bind fun next => next.read? more := by
  induction t generalizing r with
  | nil => rfl
  | cons c rest ih => simp only [List.cons_append, read?, ih, Option.bind_assoc]

/-- Inside a value, only a single quote is no part of it. -/
theorem read?_escapeValue (r : Reader) (taken value : Text) (h : r.place = .inside taken) :
    r.read? (escapeValue value) = some { r with place := .inside (taken ++ value) } := by
  induction value generalizing r taken with
  | nil =>
    obtain ⟨records, values, place⟩ := r
    cases h
    simp [escapeValue, read?]
  | cons c rest ih =>
    by_cases hc : c = '"'
    · subst c
      have hnext := ih { r with place := .inside (taken ++ ['"']) } (taken ++ ['"']) rfl
      simpa [escapeValue, read?, step?, h] using hnext
    · have hnext := ih { r with place := .inside (taken ++ [c]) } (taken ++ [c]) rfl
      simpa [escapeValue, read?, step?, h, hc] using hnext

theorem read?_quoteValue (r : Reader) (value : Text) (h : r.place = .outside) :
    r.read? (quoteValue (escapeValue value)) = some { r with place := .behind value } := by
  have hinside := read?_escapeValue { r with place := .inside [] } [] value rfl
  have hquote : quoteValue (escapeValue value) = '"' :: (escapeValue value ++ ['"']) := rfl
  simp only [hquote, read?, step?, h, if_true, Option.bind_some, read?_append, hinside]
  rfl

/-- Values between commas are taken in one after another; the last stays open for the quote that
might follow. -/
theorem read?_joined (r : Reader) (first : Text) (rest : List Text) (h : r.place = .outside) :
    r.read? (Text.joined "," ((first :: rest).map fun value => quoteValue (escapeValue value))) =
      some { r with
        values := r.values ++ (first :: rest).dropLast
        place := .behind ((first :: rest).getLast (List.cons_ne_nil first rest)) } := by
  induction rest generalizing r first with
  | nil => simpa [Text.joined] using read?_quoteValue r first h
  | cons second rest ih =>
    have hrest := ih { r with values := r.values ++ [first] } second h
    have hcomma : ({ r with place := .behind first } : Reader).step? ',' =
        some { r with values := r.values ++ [first] } := by
      obtain ⟨records, values, place⟩ := r
      cases h
      rfl
    rw [List.map_cons, List.map_cons, Text.joined_cons_cons, List.append_assoc, read?_append,
      read?_quoteValue r first h, Option.bind_some]
    change (Reader.step? _ ',').bind _ = _
    rw [hcomma]
    simpa using hrest

theorem read?_expect (r : Reader) (due : Text) :
    (r.expect due).read? due = some { records := r.records ++ [r.values] } := by
  induction due generalizing r with
  | nil => rfl
  | cons c rest ih =>
    have hnext := ih { r with place := .ending (c :: rest) }
    simpa [expect, read?, step?] using hnext

/-- Behind a value, the end of a record closes the record. -/
theorem read?_recordEnd (r : Reader) (last : Text) (h : r.place = .behind last) :
    r.read? recordEnd = some { records := r.records ++ [r.values ++ [last]] } := by
  have hcons : recordEnd = '#' :: recordEnd.tail := rfl
  have hstep : r.step? '#' = some (expect { r with values := r.values ++ [last] }
      recordEnd.tail) := by
    rw [step?, h]
    rfl
  rw [hcons, read?, hstep, Option.bind_some]
  exact read?_expect { r with values := r.values ++ [last] } recordEnd.tail

/-- A record of at least one value is taken in as a whole. -/
theorem read?_recordOf (r : Reader) (values : List Text) (hvalues : values ≠ [])
    (hplace : r.place = .outside) (hempty : r.values = []) :
    r.read? (recordOf values) = some { records := r.records ++ [values] } := by
  cases values with
  | nil => exact absurd rfl hvalues
  | cons first rest =>
    rw [recordOf, read?_append, read?_joined r first rest hplace, Option.bind_some,
      read?_recordEnd _ _ rfl, hempty, List.nil_append, List.dropLast_concat_getLast]

/-- Records on end are taken in one by one. -/
theorem decode?_flatMap (all : List (List Text)) (h : ∀ values ∈ all, values ≠ []) :
    decode? (all.flatMap recordOf) = some all := by
  have hread : ∀ records, read? { records } (all.flatMap recordOf) =
      some { records := records ++ all } := by
    induction all with
    | nil => simp [read?]
    | cons values rest ih =>
      intro records
      have hfirst := read?_recordOf { records } values (h values List.mem_cons_self) rfl rfl
      have hrest := ih (fun v hv => h v (List.mem_cons_of_mem values hv)) (records ++ [values])
      rw [List.flatMap_cons, read?_append, hfirst, Option.bind_some, hrest, List.append_assoc,
        List.singleton_append]
  simp [decode?, hread]

end Reader

namespace Encoder

/-- The records of a registered table, one for each list of fields, with a value for each field of
the table. They can be read back if there are any fields. -/
theorem decode?_records {e : Encoder} (he : e.Valid) {k : Dictionary} {t : Table}
    (ht : e.table? k = some t) (all : List Attributes) :
    ∃ records, records = all.map (fun given =>
        (Layout.ofTable t).fields.map (valueIn (e.order.columns t) given)) ∧
      e.records k all = .ok (records.flatMap recordOf) ∧
      ((Layout.ofTable t).fields ≠ [] →
        Reader.decode? (records.flatMap recordOf) = some records) := by
  refine ⟨_, rfl, ?_, fun hfields => Reader.decode?_flatMap _ ?_⟩
  · rw [List.flatMap_map]
    exact records_eq_ok he ht all
  · intro values hvalues
    obtain ⟨given, _, rfl⟩ := List.mem_map.mp hvalues
    exact fun hnone => hfields (List.map_eq_nil_iff.mp hnone)

/-- What a record says about a column: the value given for it, or else its default without any
single quotes in front or behind. -/
def fieldValue (fields : Attributes) (c : Column) : Text :=
  (fields.lookup (Text.lower c.name)).getD
    ((c.defaultValue.dropWhile (· == '\'')).rdropWhile (· == '\''))

/-- No other column of the table has the field of this one. -/
def OwnsField (t : Table) (c : Column) : Prop :=
  ∀ d ∈ t.columns.toList, Text.lower d.name = Text.lower c.name → d = c

/-- A column that shares its field with no other finds its own default, whatever the order of the
columns. -/
theorem lookup_defaults_of_ownsField {t : Table} {c : Column} (hown : OwnsField t c)
    (hc : c ∈ t.columns.toList) (order : ColumnOrder) :
    (defaults (order.columns t)).lookup (Text.lower c.name) = some (unquoted c.defaultValue) := by
  have hmem (d : Column) : d ∈ order.columns t ↔ d ∈ t.columns.toList := (order.perm t).mem_iff
  rw [lookup_defaults]
  cases hfound : (order.columns t).find? fun d => Text.lower c.name == Text.lower d.name with
  | none => exact absurd (beq_self_eq_true _) (List.find?_eq_none.mp hfound c ((hmem c).mpr hc))
  | some d =>
    have hfield := List.find?_some hfound
    have hsame : d = c := hown d ((hmem d).mp (List.mem_of_find?_eq_some hfound))
      (beq_iff_eq.mp hfield).symm
    rw [hsame]
    rfl

theorem ownsField_of_nodup {t : Table} {c : Column}
    (hdistinct : (t.columns.toList.map fun c => Text.lower c.name).Nodup)
    (hc : c ∈ t.columns.toList) : OwnsField t c :=
  fun _ hd hfield => List.inj_on_of_nodup_map hdistinct hd hc hfield

theorem map_valueIn {t : Table} (hname : isDictionaryObject t.name = true)
    (hdistinct : (t.columns.toList.map fun c => Text.lower c.name).Nodup) (order : ColumnOrder)
    (fields : Attributes) :
    (Layout.ofTable t).fields.map (valueIn (order.columns t) fields) =
      t.sortedColumns.map (fieldValue fields) := by
  simp only [Layout.ofTable, List.map_map]
  apply List.map_congr_left
  intro c hc
  have hmem := Table.mem_columns_of_mem_sortedColumns hname hc
  have hdefault := lookup_defaults_of_ownsField (ownsField_of_nodup hdistinct hmem) hmem order
  simp only [Function.comp, valueIn, fieldValue, List.lookup_append, hdefault]
  cases fields.lookup (Text.lower c.name) <;> rfl

/-- Records of the dictionary are read back without loss. Each one gives the value of every
column of the registered table, in order, and nothing of what else was given. -/
theorem decode?_objectRecords (order : ColumnOrder) (calls : List Call) (t : Table)
    (ht : (run { order } calls).table? .objects = some t)
    (hfields : (Layout.ofTable t).fields ≠ [])
    (hdistinct : (t.columns.toList.map fun c => Text.lower c.name).Nodup)
    (all : List Attributes) :
    ∃ records, all.mapM (run { order } calls).objectRecord = .ok records ∧
      Reader.decode? records.flatten =
        some (all.map fun fields => t.sortedColumns.map (fieldValue fields)) := by
  have hvalid : (run { order } calls).Valid := (valid_empty order).run calls
  have hname : isDictionaryObject t.name = true := by
    rw [hvalid .objects t ht]
    exact Dictionary.objects.isDictionaryObject_tableName
  have hrecord : (run { order } calls).objectRecord =
      fun fields => pure (recordOf (t.sortedColumns.map (fieldValue fields))) := by
    funext fields
    rw [← map_valueIn hname hdistinct (run { order } calls).order]
    exact render_eq_ok hvalid ht fields
  refine ⟨_, by rw [hrecord, List.mapM_pure]; rfl, ?_⟩
  have hnonempty : ∀ values ∈ all.map fun fields => t.sortedColumns.map (fieldValue fields),
      values ≠ [] := by
    intro values hvalues
    obtain ⟨fields, _, rfl⟩ := List.mem_map.mp hvalues
    simpa [Layout.ofTable] using hfields
  have hread := Reader.decode?_flatMap _ hnonempty
  rwa [List.flatMap_map, List.flatMap_def] at hread

/-- A dictionary table with a default in quotes. -/
def quotedDefaultTable : Table where
  name := "DB_OBJECTS"
  columns := ⟨[{ Column.blank 0 with name := "TABLE_NAME" },
    { Column.blank 1 with name := "LOGGING", defaultValue := "'N'" }]⟩

theorem decode?_objectRecords_delimiters :
    ∃ records,
      ([[("table_name", "a\",\"b"), ("other", "c")],
        [("logging", "#$EOR$#\r\n"), ("table_name", "\"")]] : List Attributes).mapM
          (run {} [.register .objects quotedDefaultTable]).objectRecord = .ok records ∧
      Reader.decode? records.flatten =
        some ([["a\",\"b", "N"], ["\"", "#$EOR$#\r\n"]] : List (List Text)) :=
  decode?_objectRecords .creation [.register .objects quotedDefaultTable] quotedDefaultTable rfl
    (by decide) (by decide) _

end Encoder

end SchemaPackage
