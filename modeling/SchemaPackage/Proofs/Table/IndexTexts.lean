import SchemaPackage.Proofs.Package.Rendering
import SchemaPackage.Proofs.Table.ColumnTexts
import SchemaPackage.Proofs.Table.IndexColumns

/-!
The two texts about the indexes of a table: their statements and their records in the dictionary. An
index has a statement only if its name, its table and its columns are known, while a record is
written for it in any case. In a described table they are known of all indexes. So both texts go
through the same indexes in the same order and say the same about each, and there are statements to
write exactly if some index element of the description lists columns.
-/
namespace SchemaPackage

open Markup Outcome

namespace Index

/-- What there is to say about an index of which everything is known. -/
structure Entry where
  kind : IndexKind
  name : Text
  table : Text
  columns : Text
deriving DecidableEq

/-- The statement creates the index. -/
def Entry.IsCreatedBy (e : Entry) (statement : Text) : Prop :=
  Creates statement e.kind e.name e.table e.columns

/-- What a record says about it, under the fields of the dictionary. -/
def Entry.recordFields (e : Entry) : Attributes :=
  [("table_name", e.name),
   ("table_type", match e.kind with
    | .primary => "PRIMARY"
    | .unique => "UNIQUE"
    | .nonUnique => "NON-UNIQUE"),
   ("hist_table_name", e.table), ("parameter", e.columns)]

theorem Entry.recordFields_eq (e : Entry) : e.recordFields =
    ([("table_name", e.name), ("table_type", e.kind.name), ("hist_table_name", e.table),
      ("parameter", e.columns)] : Attributes) := by
  unfold recordFields IndexKind.name
  cases e.kind <;> rfl

/-- What there is to say about the index, once everything is known. -/
def entry? (i : Index) : Option Entry :=
  match i.name, i.tableName, i.columns with
  | some name, some table, some columns => some { kind := i.kind, name, table, columns }
  | _, _, _ => none

theorem exists_isCreatedBy {i : Index} {e : Entry} (h : i.entry? = some e) :
    ∃ statement, i.statement? = some statement ∧ e.IsCreatedBy statement := by
  unfold entry? at h
  split at h
  next name table columns hname htable hcolumns =>
    cases h
    exact exists_creates hname htable hcolumns
  next => cases h

/-- The columns of the statement begin or end with the declared ones. -/
theorem columns_ne_nil {i : Index} {declared columns : Text}
    (hdeclared : i.declaredColumns = some declared) (hne : declared ≠ [])
    (h : i.columns = some columns) : columns ≠ [] := by
  rw [columns_eq hdeclared, Option.some.injEq] at h
  subst columns
  split
  · exact List.append_ne_nil_of_right_ne_nil _ hne
  · exact hne

end Index

namespace Table

open Encoder

variable {t : Table} {entries : List Index.Entry}

/-- All of what there is to say about the indexes of a table, one entry for each. -/
def HasEntries (t : Table) (entries : List Index.Entry) : Prop :=
  t.indexes.map Index.entry? = entries.map some

theorem exists_hasEntries {P : Index.Entry → Prop}
    (h : ∀ i ∈ t.indexes, ∃ e, i.entry? = some e ∧ P e) :
    ∃ entries, t.HasEntries entries ∧ ∀ e ∈ entries, P e := by
  unfold HasEntries
  generalize t.indexes = indexes at h
  induction indexes with
  | nil => exact ⟨[], rfl, fun e he => absurd he List.not_mem_nil⟩
  | cons i rest ih =>
    obtain ⟨e, he, hP⟩ := h i List.mem_cons_self
    obtain ⟨entries, hentries, hall⟩ := ih fun j hj => h j (List.mem_cons_of_mem i hj)
    refine ⟨e :: entries, ?_, List.forall_mem_cons.mpr ⟨hP, hall⟩⟩
    rw [List.map_cons, List.map_cons, he, hentries]

theorem HasEntries.getElem? (h : t.HasEntries entries) {k : Nat} {e : Index.Entry}
    (he : entries[k]? = some e) : ∃ i, t.indexes[k]? = some i ∧ i.entry? = some e := by
  have hk := congrArg (·[k]?) h
  simp only [List.getElem?_map, he, Option.map_some] at hk
  exact Option.map_eq_some_iff.mp hk

theorem HasEntries.length (h : t.HasEntries entries) : entries.length = t.indexes.length := by
  have hlength := congrArg List.length h
  simpa only [List.length_map] using hlength.symm

/-- No index goes without a statement. -/
theorem statements_of_hasEntries (h : t.HasEntries entries) :
    ∃ statements, t.indexes.map Index.statement? = statements.map some ∧
      (∀ statement ∈ statements, statement ≠ []) ∧
      List.Forall₂ Index.Entry.IsCreatedBy entries statements := by
  unfold HasEntries at h
  generalize t.indexes = indexes at h
  induction entries generalizing indexes with
  | nil =>
    obtain rfl := List.map_eq_nil_iff.mp h
    exact ⟨[], rfl, fun _ hmem => absurd hmem List.not_mem_nil, .nil⟩
  | cons e rest ih =>
    obtain ⟨i, more, rfl, he, hmore⟩ := List.map_eq_cons_iff.mp h
    obtain ⟨statement, hstatement, hcreates⟩ := Index.exists_isCreatedBy he
    obtain ⟨statements, hstatements, hsome, hcreated⟩ := ih more hmore
    refine ⟨statement :: statements, ?_, List.forall_mem_cons.mpr ⟨hcreates.ne_nil, hsome⟩,
      .cons hcreates hcreated⟩
    rw [List.map_cons, List.map_cons, hstatement, hstatements]

theorem indexStatements_eq_joined {statements : List Text}
    (h : t.indexes.map Index.statement? = statements.map some) :
    t.indexStatements = Text.joined "\n" statements := by
  have hkept : t.indexes.filterMap Index.statement? =
      (t.indexes.map Index.statement?).filterMap id := by
    rw [List.filterMap_map]
    rfl
  rw [indexStatements, hkept, h]
  simp

/-- The fields that the record of an index is made from say what its statement says, as long as the
index is for the table by its present name. -/
theorem lookup_indexFields {i : Index} {e : Index.Entry} (h : i.entry? = some e)
    (htable : e.table = t.name) :
    ∀ f ∈ e.recordFields, (t.indexFields i).lookup f.1 = some f.2 := by
  unfold Index.entry? at h
  split at h
  next name table columns hname htableName hcolumns =>
    cases h
    subst htable
    rw [Index.Entry.recordFields_eq]
    simp [indexFields, hname, hcolumns, List.lookup_cons]
  next => cases h

/-- The records about the indexes of a table, one for each in order. -/
theorem indexRecordText_of_hasEntries {e : Encoder} (he : e.Valid) {d : Table}
    (hd : e.table? .objects = some d) (h : t.HasEntries entries)
    (htable : ∀ i ∈ entries, i.table = t.name) :
    ∃ records, t.indexRecordText e = .ok (records.flatMap recordOf) ∧
      (d.sortedColumns ≠ [] → Reader.decode? (records.flatMap recordOf) = some records) ∧
      records.length = entries.length ∧
      ∀ (k : Nat) (i : Index.Entry), entries[k]? = some i → ∃ values, records[k]? = some values ∧
        ∀ f ∈ i.recordFields, (f.1 ∈ d.sortedColumns.map fun c => Text.lower c.name) →
          recordValue? d values f.1 = some f.2 := by
  obtain ⟨_, rfl, htext, hread⟩ := decode?_records he hd t.indexRecords
  refine ⟨_, htext, fun hsome => hread (mt List.map_eq_nil_iff.mp hsome), ?_, ?_⟩
  · rw [List.length_map, indexRecords, List.length_map, h.length]
  · intro k entry hk
    obtain ⟨i, hi, hentry⟩ := h.getElem? hk
    refine ⟨_, by rw [List.getElem?_map, indexRecords, List.getElem?_map, hi]; rfl, ?_⟩
    intro f hf hlaid
    have hlookup := lookup_indexFields hentry (htable entry (List.mem_of_getElem? hk)) f hf
    rw [recordValue?_map hlaid, valueIn, List.lookup_append, hlookup]
    rfl

end Table

namespace Description

open Table

/-- Everything is known of an index that a described table holds. -/
theorem exists_entry_of_tableOf {tracked : Bool} {e : Element} {t : Table} {ctx ctx' : Context}
    (hctx : ctx.Reachable) (h : tableOf tracked e ctx = (.ok t, ctx')) :
    ∀ i ∈ t.indexes, ∃ entry, i.entry? = some entry ∧ entry.table = t.name ∧
      entry.columns ≠ [] := by
  intro i hi
  obtain ⟨hname, _, _⟩ := (indexesSound_of_tableOf hctx h).complete i hi
  have htable : i.tableName = some t.name := tableName_of_tableOf hctx h i hi
  obtain ⟨element, _, hdeclared, hne⟩ := listed_of_tableOf hctx h i hi
  obtain ⟨name, hname⟩ := Option.isSome_iff_exists.mp hname
  obtain ⟨columns, hcolumns⟩ : ∃ columns, i.columns = some columns :=
    ⟨_, Index.columns_eq hdeclared⟩
  refine ⟨{ kind := i.kind, name, table := t.name, columns }, ?_, rfl,
    Index.columns_ne_nil hdeclared hne hcolumns⟩
  rw [Index.entry?, hname, htable, hcolumns]

theorem indexes_ne_nil_of_addIndex {t u : Table} {i : Index} (h : t.addIndex i = .ok u) :
    u.indexes ≠ [] := by
  obtain ⟨_, _, _, _, rfl⟩ := addIndex_eq_ok h
  exact List.ne_nil_of_mem (self_mem_placeIndex _ _)

theorem indexes_ne_nil_of_addIndexElement {t u : Table} {e : Element}
    (h : addIndexElement t e = .ok u) :
    u.indexes ≠ [] ↔ t.indexes ≠ [] ∨ indexColumns e ≠ [] := by
  rcases addIndexElement_cases h with ⟨hnone, rfl⟩ | ⟨hsome, i, _, hadd⟩
  · simp [hnone]
  · simp [hsome, indexes_ne_nil_of_addIndex hadd]

/-- A table has indexes as soon as one of the elements lists columns. -/
theorem indexes_ne_nil_of_addIndexes {elements : List Element} {t u : Table}
    (h : addIndexes t elements = .ok u) :
    u.indexes ≠ [] ↔ t.indexes ≠ [] ∨ ∃ e ∈ elements, indexColumns e ≠ [] := by
  induction elements generalizing t with
  | nil =>
    cases h
    simp
  | cons e rest ih =>
    obtain ⟨next, he, hrest⟩ := addIndexes_cons_eq_ok h
    rw [ih hrest, indexes_ne_nil_of_addIndexElement he]
    simp [or_assoc]

theorem indexes_ne_nil_of_tableOf {tracked : Bool} {e : Element} {t : Table} {ctx ctx' : Context}
    (hctx : ctx.Reachable) (h : tableOf tracked e ctx = (.ok t, ctx')) :
    t.indexes ≠ [] ↔ ∃ i ∈ members "indexes" "index" e, indexColumns i ≠ [] := by
  obtain ⟨created, ctx₁, filled, hcreate, hfill, hindexes⟩ := tableOf_eq_ok h
  have hempty : filled.indexes = [] := by
    rw [indexes_of_addColumns hfill, indexes_withDocumentation]
    exact (Created.createFrom hctx hcreate).fresh.indexes
  simpa [hempty] using indexes_ne_nil_of_addIndexes hindexes

theorem indexStatements_of_render {e : Encoder} {t : Table} {a : Artifacts}
    (h : Artifacts.render e t = .ok a) :
    a.indexStatements = if t.indexes = [] then none else some t.indexStatements := by
  obtain ⟨_, _, _, _, _, _, _, _, rfl⟩ := Artifacts.render_eq_ok h
  simp [List.isEmpty_iff]

/-- The indexes of a described table. Everything is known of each, none lacks columns, and all are
for the table by its name. The one text has the statement of each index, which creates it by its
kind, name, table and columns, and the other has one record for each, with the same name, kind, table
and columns in every field that the dictionary has for them. Statements are written out exactly if
some index element of the description lists columns. -/
theorem indexTexts_of_parseTable {path : Path} {text : Text} {tracked : Bool} {t : Table}
    {root : Element} {ctx ctx' : Context} (hctx : ctx.Reachable)
    (hroot : document? text = some root)
    (h : parseTable path text tracked ctx = (.ok (some t), ctx')) :
    ∃ entries statements, t.HasEntries entries ∧
      (∀ e ∈ entries, e.table = t.name ∧ e.columns ≠ []) ∧
      t.indexes.map Index.statement? = statements.map some ∧
      (∀ statement ∈ statements, statement ≠ []) ∧
      t.indexStatements = Text.joined "\n" statements ∧
      List.Forall₂ Index.Entry.IsCreatedBy entries statements ∧
      (∀ order calls d, (Encoder.run { order } calls).table? .objects = some d →
        ∃ records,
          t.indexRecordText (Encoder.run { order } calls) = .ok (records.flatMap recordOf) ∧
          (d.sortedColumns ≠ [] → Reader.decode? (records.flatMap recordOf) = some records) ∧
          records.length = entries.length ∧
          ∀ (k : Nat) (e : Index.Entry), entries[k]? = some e →
            ∃ values, records[k]? = some values ∧
              ∀ f ∈ e.recordFields, (f.1 ∈ d.sortedColumns.map fun c => Text.lower c.name) →
                Encoder.recordValue? d values f.1 = some f.2) ∧
      ∀ encoder a, Artifacts.render encoder t = .ok a →
        (∃ i ∈ members "indexes" "index" root, indexColumns i ≠ []) ∧
            a.indexStatements = some t.indexStatements ∨
          (∀ i ∈ members "indexes" "index" root, indexColumns i = []) ∧
            a.indexStatements = none := by
  have htable := parseTable_eq_ok hroot h
  obtain ⟨entries, hentries, hknown⟩ := exists_hasEntries (exists_entry_of_tableOf hctx htable)
  obtain ⟨statements, hstatements, hsome, hcreated⟩ := statements_of_hasEntries hentries
  refine ⟨entries, statements, hentries, hknown, hstatements, hsome,
    indexStatements_eq_joined hstatements, hcreated, ?_, ?_⟩
  · intro order calls d hd
    exact indexRecordText_of_hasEntries ((Encoder.valid_empty order).run calls) hd hentries
      fun e he => (hknown e he).1
  · intro encoder a ha
    have hindexes := indexes_ne_nil_of_tableOf hctx htable
    rw [indexStatements_of_render ha]
    by_cases hnone : t.indexes = []
    · right
      simpa [hnone] using hindexes
    · left
      exact ⟨hindexes.mp hnone, if_neg hnone⟩

/-- What is found out about the table of a text by reading it. -/
theorem exists_parseTable {α : Type} {f : Table → α} {a : α} {path : Path} {text : Text}
    {tracked : Bool} {ctx : Context}
    (h : (parseTable path text tracked ctx).1.map (Option.map f) = .ok (some a)) :
    ∃ root t ctx', document? text = some root ∧
      parseTable path text tracked ctx = (.ok (some t), ctx') ∧ f t = a := by
  obtain ⟨t?, ht, hmap⟩ := except_map_eq_ok_iff.mp h
  obtain ⟨t, rfl, hf⟩ := Option.map_eq_some_iff.mp hmap
  have hparse : parseTable path text tracked ctx =
      (.ok (some t), (parseTable path text tracked ctx).2) := Prod.ext ht rfl
  obtain ⟨root, hroot, _⟩ := parseTable_eq_tableOf? hparse
  exact ⟨root, t, _, hroot, hparse, hf⟩

/-- A table with a primary key, an index over an expression, and an index that takes the place of
another one. -/
def replacedIndexText : Text :=
  "<table name=\"t\"><indexes>" ++
  "<index type=\"primary\"><columns><column name=\"b\"/></columns></index>" ++
  "<index name=\"f\"/>" ++
  "<index name=\"u\" type=\"unique\"><columns><column name=\"c\"/></columns></index>" ++
  "<index name=\"u\"><columns><column name=\"b\"/><column name=\"c\"/></columns></index>" ++
  "</indexes></table>"

/-- A dictionary table with the fields that say what an index is. -/
def indexDictionary : Table where
  name := "DB_OBJECTS"
  columns := ⟨[{ Column.blank 0 with name := "TABLE_NAME" },
    { Column.blank 1 with name := "TABLE_TYPE" }, { Column.blank 2 with name := "PARAMETER" }]⟩

def replacedIndexEntries : List Index.Entry :=
  [{ kind := .primary, name := "PK_T", table := "T", columns := "SNAPSHOT_ID,B" },
   { kind := .nonUnique, name := "U", table := "T", columns := "B,C" }]

def replacedIndexStatements : Text :=
  "ALTER TABLE T ADD CONSTRAINT PK_T PRIMARY KEY(SNAPSHOT_ID,B) USING INDEX TABLESPACE &1;\n" ++
  "CREATE INDEX U ON T (B,C) TABLESPACE &1;"

theorem indexTexts_of_replacedIndexText :
    ∃ root t ctx, Context.Reachable {} ∧ document? replacedIndexText = some root ∧
      parseTable ⟨[]⟩ replacedIndexText true {} = (.ok (some t), ctx) ∧
      t.HasEntries replacedIndexEntries ∧
      t.indexStatements = replacedIndexStatements ∧
      ∃ records values,
        t.indexRecordText (Encoder.run {} [.register .objects indexDictionary]) =
          .ok (records.flatMap recordOf) ∧
        Reader.decode? (records.flatMap recordOf) = some records ∧ records.length = 2 ∧
        records[1]? = some values ∧
        Encoder.recordValue? indexDictionary values "parameter" = some ("B,C" : Text) := by
  have hread : (parseTable ⟨[]⟩ replacedIndexText true {}).1.map
      (Option.map fun t => t.indexes.map Index.entry?) =
        .ok (some (replacedIndexEntries.map some)) := by decide +kernel
  obtain ⟨root, t, ctx, hroot, hparse, hheld⟩ := exists_parseTable hread
  obtain ⟨entries, statements, hentries, _, _, _, hstatements, hcreated, hrecords, _⟩ :=
    indexTexts_of_parseTable .new hroot hparse
  obtain rfl : entries = replacedIndexEntries :=
    (List.map_inj_right fun _ _ => Option.some.inj).mp (hentries.symm.trans hheld)
  have htexts : Text.joined "\n" statements = replacedIndexStatements := by
    cases hcreated with
    | cons hkey hmore =>
      cases hmore with
      | cons hindex hnone =>
        cases hnone
        -- A statement for an index can only be the one for its kind.
        cases (hkey : Index.Creates _ .primary "PK_T" "T" "SNAPSHOT_ID,B")
        cases (hindex : Index.Creates _ .nonUnique "U" "T" "B,C")
        decide +kernel
  obtain ⟨records, htext, hdecoded, hlength, hsaid⟩ :=
    hrecords .creation [.register .objects indexDictionary] indexDictionary rfl
  obtain ⟨values, hvalues, hfields⟩ := hsaid 1 _ rfl
  exact ⟨root, t, ctx, .new, hroot, hparse, hentries, hstatements.trans htexts, records, values,
    htext, hdecoded (by decide), hlength, hvalues,
    hfields ("parameter", "B,C") (by decide) (by decide)⟩

end Description

end SchemaPackage
