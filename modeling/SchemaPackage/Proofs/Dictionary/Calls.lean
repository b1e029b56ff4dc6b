import SchemaPackage.Dictionary.Encoder

/-!
Sequences of calls of an encoder. Only a registration that succeeds changes what later calls
find. Every registered table has the name of its dictionary table, so no record of it lacks a
value: an encoder refuses to write records only for a table that was never registered.
-/
namespace SchemaPackage

theorem Dictionary.isDictionaryObject_tableName (d : Dictionary) :
    isDictionaryObject d.tableName = true := by
  cases d <;> decide

/-- Dictionary tables have no column beside the declared ones. -/
theorem Table.mem_columns_of_mem_sortedColumns {t : Table} {c : Column}
    (hname : isDictionaryObject t.name = true) (hc : c ∈ t.sortedColumns) :
    c ∈ t.columns.toList := by
  simp only [sortedColumns, leadingColumn, hname, if_true, List.nil_append] at hc
  exact (List.mem_filter.mp hc).1

/-- The record of a list of values, none of them escaped yet. -/
def recordOf (values : List Text) : Text :=
  Text.joined "," (values.map fun value => quoteValue (escapeValue value)) ++ recordEnd

namespace Layout

/-- A record can be written as soon as every field has a value. -/
theorem valuesOf_eq_ok (table : Text) {values : Attributes} (value : Text → Text)
    {fields : List Text} (h : ∀ f ∈ fields, values.lookup f = some (value f)) :
    valuesOf table values fields = .ok (fields.map value) := by
  induction fields with
  | nil => rfl
  | cons f rest ih =>
    have hf : values.lookup f = some (value f) := h f List.mem_cons_self
    have hrest := ih fun g hg => h g (List.mem_cons_of_mem f hg)
    simp only [valuesOf, hf, hrest]
    rfl

end Layout

namespace Encoder

@[simp] theorem table?_put_self (e : Encoder) (d : Dictionary) (t : Table) :
    (e.put d t).table? d = some t := by
  cases d <;> rfl

theorem table?_put_of_ne (e : Encoder) {d d' : Dictionary} (t : Table) (h : d' ≠ d) :
    (e.put d t).table? d' = e.table? d' := by
  cases d <;> cases d' <;> first | rfl | exact absurd rfl h

@[simp] theorem order_put (e : Encoder) (d : Dictionary) (t : Table) :
    (e.put d t).order = e.order := by
  cases d <;> rfl

/-- What a registration demands, and what it changes. -/
theorem register_eq_ok_iff {e e' : Encoder} {d : Dictionary} {t : Table} :
    e.register d t = .ok e' ↔
      t.name = d.tableName ∧
      (∀ old, e.table? d = some old → Layout.ofTable old = Layout.ofTable t) ∧
      e' = e.put d t := by
  by_cases hname : t.name = d.tableName
  · cases hold : e.table? d with
    | none => simp [register, hname, hold, eq_comm]
    | some old =>
      by_cases hlayout : Layout.ofTable old = Layout.ofTable t
      · simp [register, hname, hold, hlayout, eq_comm]
      · simp [register, hname, hold, hlayout]
  · simp [register, hname]

/-- What is registered for a dictionary table is a table of that name. -/
def Valid (e : Encoder) : Prop :=
  ∀ d t, e.table? d = some t → t.name = d.tableName

theorem valid_empty (order : ColumnOrder) : Valid { order } := by
  intro d t h
  cases d <;> cases h

theorem Valid.register {e e' : Encoder} {d : Dictionary} {t : Table} (he : e.Valid)
    (h : e.register d t = .ok e') : e'.Valid := by
  obtain ⟨hname, _, rfl⟩ := register_eq_ok_iff.mp h
  intro d' t' ht'
  by_cases hd : d' = d
  · subst d'
    rw [table?_put_self] at ht'
    cases ht'
    exact hname
  · rw [table?_put_of_ne e t hd] at ht'
    exact he d' t' ht'

/-- The value that a record has in a field: the given one, and otherwise the default of the first of
the columns that the field belongs to. -/
def valueIn (columns : List Column) (fields : Attributes) (field : Text) : Text :=
  ((fields ++ defaults columns).lookup field).getD []

/-- The default under a field is that of the first column that the field belongs to. -/
theorem lookup_defaults (columns : List Column) (field : Text) :
    (defaults columns).lookup field =
      (columns.find? fun c => field == Text.lower c.name).map fun c => unquoted c.defaultValue := by
  induction columns with
  | nil => rfl
  | cons c rest ih =>
    rw [defaults, List.map_cons, List.lookup_cons, List.find?_cons]
    cases field == Text.lower c.name with
    | true => rfl
    | false => exact ih

/-- Every column leaves a default under its field. -/
theorem exists_lookup_defaults {columns : List Column} {c : Column} (hc : c ∈ columns) :
    ∃ value, (defaults columns).lookup (Text.lower c.name) = some value := by
  rw [← Option.isSome_iff_exists, List.lookup_isSome_iff]
  exact ⟨_, List.mem_map_of_mem hc, beq_self_eq_true _⟩

theorem lookup_escaped (fields : Attributes) (key : Text) :
    (fields.map fun f => (f.1, escapeValue f.2)).lookup key =
      (fields.lookup key).map escapeValue := by
  induction fields with
  | nil => rfl
  | cons f rest ih =>
    obtain ⟨name, value⟩ := f
    cases h : key == name <;> simp [List.lookup_cons, h, ih]

/-- A registered table has a value for each of its fields, whatever values are given. -/
theorem render_eq_ok {e : Encoder} (he : e.Valid) {d : Dictionary} {t : Table}
    (ht : e.table? d = some t) (fields : Attributes) :
    e.render d fields =
      .ok (recordOf ((Layout.ofTable t).fields.map (valueIn (e.order.columns t) fields))) := by
  have hname : isDictionaryObject t.name = true := by
    rw [he d t ht]
    exact d.isDictionaryObject_tableName
  have hvalue : ∀ f ∈ (Layout.ofTable t).fields,
      ((fields ++ defaults (e.order.columns t)).map fun f => (f.1, escapeValue f.2)).lookup f =
        some (escapeValue (valueIn (e.order.columns t) fields f)) := by
    intro f hf
    obtain ⟨c, hc, rfl⟩ := List.mem_map.mp hf
    have hmem : c ∈ e.order.columns t :=
      (e.order.perm t).mem_iff.mpr (Table.mem_columns_of_mem_sortedColumns hname hc)
    obtain ⟨value, hvalue⟩ := exists_lookup_defaults hmem
    rw [lookup_escaped, valueIn, List.lookup_append, hvalue]
    cases fields.lookup (Text.lower c.name) <;> rfl
  have hvalues := Layout.valuesOf_eq_ok (Layout.ofTable t).table _ hvalue
  simp only [render, ht, Layout.render, hvalues, Except.map, recordOf, List.map_map]
  rfl

theorem records_eq_ok {e : Encoder} (he : e.Valid) {d : Dictionary} {t : Table}
    (ht : e.table? d = some t) (all : List Attributes) :
    e.records d all =
      .ok (all.flatMap fun fields =>
        recordOf ((Layout.ofTable t).fields.map (valueIn (e.order.columns t) fields))) := by
  induction all with
  | nil => rfl
  | cons fields rest ih =>
    simp only [records, render_eq_ok he ht, ih, Except.map, List.flatMap_cons]

/-- What can be asked of an encoder. -/
inductive Call
  | register (d : Dictionary) (t : Table)
  | objectRecord (fields : Attributes)
  | columnRecords (table : Text) (columns : List Column)

/-- The answer to a call; a registration that succeeds has nothing to say. -/
def answer (e : Encoder) : Call → Except Fault Text
  | .register d t => (e.register d t).map fun _ => []
  | .objectRecord fields => e.objectRecord fields
  | .columnRecords table columns => e.columnRecords table columns

/-- The encoder that later calls meet. -/
def after (e : Encoder) : Call → Encoder
  | .register d t =>
    match e.register d t with
    | .ok next => next
    | .error _ => e
  | .objectRecord _ => e
  | .columnRecords _ _ => e

def run (e : Encoder) (calls : List Call) : Encoder := calls.foldl after e

def answers (e : Encoder) : List Call → List (Except Fault Text)
  | [] => []
  | call :: rest => e.answer call :: answers (e.after call) rest

theorem run_append (e : Encoder) (calls more : List Call) :
    run e (calls ++ more) = run (run e calls) more :=
  List.foldl_append

theorem Valid.after {e : Encoder} (he : e.Valid) (call : Call) : (e.after call).Valid := by
  cases call with
  | register d t =>
    cases h : e.register d t with
    | ok next => simpa only [Encoder.after, h] using he.register h
    | error fault => simpa only [Encoder.after, h] using he
  | objectRecord fields => exact he
  | columnRecords table columns => exact he

theorem Valid.run {e : Encoder} (he : e.Valid) (calls : List Call) : (e.run calls).Valid := by
  induction calls generalizing e with
  | nil => exact he
  | cons call rest ih => exact ih (he.after call)

theorem order_after (e : Encoder) (call : Call) : (e.after call).order = e.order := by
  cases call with
  | register d t =>
    cases h : e.register d t with
    | ok next =>
      obtain ⟨_, _, rfl⟩ := register_eq_ok_iff.mp h
      simp only [after, h, order_put]
    | error fault => simp only [after, h]
  | objectRecord fields => rfl
  | columnRecords table columns => rfl

/-- No call changes the order that columns are gone through. -/
@[simp] theorem order_run (e : Encoder) (calls : List Call) : (run e calls).order = e.order := by
  induction calls generalizing e with
  | nil => rfl
  | cons call rest ih => exact (ih (e.after call)).trans (order_after e call)

end Encoder

end SchemaPackage
