import SchemaPackage.Proofs.Table.Described
import SchemaPackage.Proofs.Text.Entries

/-!
The columns of indexes. A primary key of a tracked table outside the dictionary gets the snapshot
column in front of its own, unless these have its name anywhere in their text; so a key with a
column whose name only has it as a part goes without. The indexes of a described table are about
its columns whenever their elements name declared columns, but for a declared column that has the
name of the snapshot column: where the table has no snapshot column, its statement leaves that out.
-/
namespace SchemaPackage

namespace Index

/-- The list has the snapshot column as an entry, in whatever case it is written. -/
def NamesSnapshot (columns : Text) : Prop :=
  ∃ entry ∈ Text.entries columns, Text.upper entry = snapshotName

/-- An entry of the list has the name of the snapshot column as a part, if not as the whole. -/
def ContainsSnapshot (columns : Text) : Prop :=
  ∃ entry ∈ Text.entries columns, snapshotName <:+: Text.upper entry

instance (columns : Text) : Decidable (NamesSnapshot columns) :=
  inferInstanceAs (Decidable (∃ entry ∈ Text.entries columns, Text.upper entry = snapshotName))

instance (columns : Text) : Decidable (ContainsSnapshot columns) :=
  inferInstanceAs (Decidable (∃ entry ∈ Text.entries columns, snapshotName <:+: Text.upper entry))

theorem comma_notMem_snapshotName : ',' ∉ snapshotName := by decide

theorem mentionsSnapshot_iff {columns : Text} :
    mentionsSnapshot columns = true ↔ ContainsSnapshot columns := by
  have hnone : (snapshotName.all fun c => !Text.isBlank c) = true := by decide
  have hblank : ∀ c ∈ snapshotName, Text.isBlank c = false := by
    intro c hc
    rw [← Bool.not_eq_true']
    exact List.all_eq_true.mp hnone c hc
  rw [mentionsSnapshot, Text.occursIn_iff]
  exact Text.infix_upper_iff_exists_mem_entries comma_notMem_snapshotName hblank columns

theorem entries_snapshotName_append (columns : Text) :
    Text.entries (snapshotName ++ "," ++ columns) = snapshotName :: Text.entries columns := by
  have htrim : Text.trim snapshotName = snapshotName := by decide
  have hcomma : snapshotName ++ ("," : Text) ++ columns = snapshotName ++ ',' :: columns := by
    rw [List.append_assoc]
    rfl
  rw [hcomma, Text.entries, Text.split_append_cons,
    Text.split_of_notMem comma_notMem_snapshotName, List.singleton_append, List.map_cons, htrim]
  rfl

theorem columns_eq {i : Index} {declared : Text} (hdeclared : i.declaredColumns = some declared) :
    i.columns = some
      (if i.leadsWithSnapshot declared then snapshotName ++ "," ++ declared else declared) := by
  rw [columns, hdeclared]
  rfl

theorem leadsWithSnapshot_iff {i : Index} {declared : Text} :
    i.leadsWithSnapshot declared = true ↔
      i.kind = .primary ∧ i.tracked = true ∧ ¬ ContainsSnapshot declared ∧
        isDictionaryObject (i.tableName.getD []) = false := by
  rw [← mentionsSnapshot_iff]
  simp [leadsWithSnapshot, and_assoc]

/-- A primary key of a tracked table outside the dictionary. Its columns are the declared ones,
behind the snapshot column if no declared one contains the name of that. So the snapshot column is
one of its columns, unless some declared column contains its name and none has it. -/
theorem columns_of_trackedKey {i : Index} {declared : Text} (hkind : i.kind = .primary)
    (htracked : i.tracked = true) (hdeclared : i.declaredColumns = some declared)
    (htable : isDictionaryObject (i.tableName.getD []) = false) :
    ∃ columns, i.columns = some columns ∧
      (ContainsSnapshot declared → columns = declared) ∧
      (¬ ContainsSnapshot declared → columns = snapshotName ++ "," ++ declared ∧
        Text.entries columns = snapshotName :: Text.entries declared) ∧
      (NamesSnapshot columns ↔ (ContainsSnapshot declared → NamesSnapshot declared)) := by
  refine ⟨_, columns_eq hdeclared, ?_⟩
  by_cases hcontains : ContainsSnapshot declared
  · have hkeeps : ¬ i.leadsWithSnapshot declared = true := by
      intro hleads
      exact (leadsWithSnapshot_iff.mp hleads).2.2.1 hcontains
    rw [if_neg hkeeps]
    refine ⟨fun _ => rfl, fun hnot => absurd hcontains hnot, ?_⟩
    constructor
    · intro hnames _
      exact hnames
    · intro hnames
      exact hnames hcontains
  · have hleads : i.leadsWithSnapshot declared = true :=
      leadsWithSnapshot_iff.mpr ⟨hkind, htracked, hcontains, htable⟩
    have hentries := entries_snapshotName_append declared
    have hraised : Text.upper snapshotName = snapshotName := by decide
    rw [if_pos hleads]
    refine ⟨fun h => absurd h hcontains, fun _ => ⟨rfl, hentries⟩, ?_⟩
    constructor
    · intro _ h
      exact absurd h hcontains
    · intro _
      refine ⟨snapshotName, ?_, hraised⟩
      rw [hentries]
      exact List.mem_cons_self

/-- A key that names the snapshot column behind a column that only contains its name. -/
def mixedKey : Index where
  kind := .primary
  tableName := some "FOO"
  declaredColumns := some "old_snapshot_id, Snapshot_Id"
  tracked := true

theorem columns_of_trackedKey_mixedKey :
    mixedKey.kind = .primary ∧ mixedKey.tracked = true ∧
      mixedKey.declaredColumns = some "old_snapshot_id, Snapshot_Id".toList ∧
      isDictionaryObject (mixedKey.tableName.getD []) = false ∧
      mixedKey.columns = some "old_snapshot_id, Snapshot_Id".toList ∧
      NamesSnapshot "old_snapshot_id, Snapshot_Id" := by
  have htable : isDictionaryObject (mixedKey.tableName.getD []) = false := by decide +kernel
  have hcontains : ContainsSnapshot "old_snapshot_id, Snapshot_Id" := by decide +kernel
  obtain ⟨columns, hcolumns, hkept, _, hnames⟩ :=
    columns_of_trackedKey (i := mixedKey) rfl rfl rfl htable
  rw [hkept hcontains] at hcolumns hnames
  exact ⟨rfl, rfl, rfl, htable, hcolumns, hnames.mpr fun _ => by decide +kernel⟩

/-- A key with a column whose name only contains that of the snapshot column. -/
def lookalikeKey : Index where
  kind := .primary
  tableName := some "FOO"
  declaredColumns := some "MY_SNAPSHOT_ID2"
  tracked := true

/-- It goes without the snapshot column. -/
theorem not_namesSnapshot_lookalikeKey :
    lookalikeKey.kind = .primary ∧ lookalikeKey.tracked = true ∧
      isDictionaryObject (lookalikeKey.tableName.getD []) = false ∧
      ∃ columns, lookalikeKey.columns = some columns ∧ ¬ NamesSnapshot columns := by
  refine ⟨rfl, rfl, by decide +kernel, "MY_SNAPSHOT_ID2".toList, by decide +kernel, ?_⟩
  decide +kernel

end Index

namespace Table

open Outcome

theorem declaredColumns_of_namedIndex {t : Table} {i named : Index}
    (h : t.namedIndex i = .ok named) : named.declaredColumns = i.declaredColumns := by
  unfold namedIndex at h
  split at h
  · cases h
    rfl
  · obtain ⟨name, _, rfl⟩ := except_map_eq_ok_iff.mp h
    rfl

/-- Whatever name an index gets, the table holds it with the columns that it was declared with. -/
theorem mem_indexes_of_addIndex {t u : Table} {i j : Index} (h : t.addIndex i = .ok u)
    (hj : j ∈ u.indexes) : j ∈ t.indexes ∨ j.declaredColumns = i.declaredColumns := by
  obtain ⟨named, bound, hnamed, hbound, rfl⟩ := addIndex_eq_ok h
  obtain ⟨_, _, rfl⟩ := except_map_eq_ok_iff.mp hbound
  have hkept := declaredColumns_of_namedIndex hnamed
  rcases mem_placeIndex hj with rfl | hj
  · exact Or.inr hkept
  · exact Or.inl hj

/-- A declared column is one of the statement's columns unless it has the name of the snapshot
column, which only the snapshot column itself can have there. -/
theorem mem_names_sortedColumns_iff {t : Table} {name : Text}
    (hleading : ∀ c ∈ t.leadingColumn, c.name = snapshotName)
    (hname : name = snapshotName ∨ name ∈ t.columns.toList.map Column.name) :
    name ∈ t.sortedColumns.map Column.name ↔ (name = snapshotName → t.leadingColumn ≠ []) := by
  rw [sortedColumns, List.map_append, List.mem_append, List.mem_map, List.mem_map]
  constructor
  · rintro (⟨c, hc, _⟩ | ⟨c, hc, rfl⟩) hsnapshot
    · exact List.ne_nil_of_mem hc
    · have hother := (List.mem_filter.mp hc).2
      rw [bne_iff_ne] at hother
      exact absurd hsnapshot hother
  · intro h
    by_cases hsnapshot : name = snapshotName
    · obtain ⟨c, hc⟩ := List.exists_mem_of_ne_nil _ (h hsnapshot)
      exact Or.inl ⟨c, hc, (hleading c hc).trans hsnapshot.symm⟩
    · obtain ⟨c, hc, rfl⟩ := List.mem_map.mp (hname.resolve_left hsnapshot)
      exact Or.inr ⟨c, List.mem_filter.mpr ⟨hc, bne_iff_ne.mpr hsnapshot⟩, rfl⟩

end Table

namespace Description

open Markup Outcome Table

/-- The names that the elements of one index list, in upper case. -/
def listedColumns (e : Element) : List Text :=
  ((members "columns" "column" e).filterMap (·.attribute? "name")).map Text.upper

/-- The names that all index elements of a description list. -/
def indexColumnNames (e : Element) : List Text :=
  (members "indexes" "index" e).flatMap fun i =>
    (members "columns" "column" i).filterMap (·.attribute? "name")

theorem indexColumns_eq_joined (e : Element) :
    indexColumns e = Text.joined "," (listedColumns e) := rfl

theorem listedColumns_ne_nil {e : Element} (h : indexColumns e ≠ []) : listedColumns e ≠ [] := by
  intro hnone
  rw [indexColumns_eq_joined, hnone] at h
  exact h rfl

/-- An element without columns is passed over, and any other gives an index that is declared with
them. -/
theorem addIndexElement_cases {t u : Table} {e : Element} (h : addIndexElement t e = .ok u) :
    indexColumns e = [] ∧ u = t ∨ indexColumns e ≠ [] ∧
      ∃ i : Index, i.declaredColumns = some (indexColumns e) ∧ t.addIndex i = .ok u := by
  refine (addIndexElement_eq_ok h).imp_right ?_
  rintro ⟨hsome, _, declared, _, hdeclared, hadd⟩
  obtain ⟨_, _, rfl⟩ := except_map_eq_ok_iff.mp hdeclared
  exact ⟨hsome, _, rfl, hadd⟩

/-- Every index of a table is declared with the columns that one of the elements lists. -/
theorem listed_of_addIndexes {elements : List Element} {t u : Table}
    (h : addIndexes t elements = .ok u) :
    ∀ j ∈ u.indexes, j ∈ t.indexes ∨
      ∃ e ∈ elements, j.declaredColumns = some (indexColumns e) ∧ indexColumns e ≠ [] := by
  induction elements generalizing t with
  | nil =>
    cases h
    exact fun j hj => Or.inl hj
  | cons e rest ih =>
    intro j hj
    obtain ⟨next, he, hrest⟩ := addIndexes_cons_eq_ok h
    rcases ih hrest j hj with hnext | ⟨e', he', hlisted⟩
    · rcases addIndexElement_cases he with ⟨_, rfl⟩ | ⟨hne, i, hi, hadd⟩
      · exact Or.inl hnext
      · rcases mem_indexes_of_addIndex hadd hnext with hold | hnew
        · exact Or.inl hold
        · exact Or.inr ⟨e, List.mem_cons_self, hnew.trans hi, hne⟩
    · exact Or.inr ⟨e', List.mem_cons_of_mem _ he', hlisted⟩

theorem indexes_of_addColumns {elements : List Element} {t u : Table} {ctx ctx' : Context}
    (h : addColumns t elements ctx = (.ok u, ctx')) : u.indexes = t.indexes := by
  induction elements generalizing t ctx with
  | nil =>
    cases h
    rfl
  | cons e rest ih =>
    obtain ⟨c, next, _, hrest⟩ := bind_eq_ok_iff.mp h
    exact (ih hrest).trans rfl

theorem indexes_withDocumentation (t : Table) (e : Element) :
    (withDocumentation t e).indexes = t.indexes := by
  unfold withDocumentation
  split <;> rfl

theorem listed_of_tableOf {tracked : Bool} {e : Element} {t : Table} {ctx ctx' : Context}
    (hctx : ctx.Reachable) (h : tableOf tracked e ctx = (.ok t, ctx')) :
    ∀ j ∈ t.indexes, ∃ i ∈ members "indexes" "index" e,
      j.declaredColumns = some (indexColumns i) ∧ indexColumns i ≠ [] := by
  obtain ⟨created, ctx₁, filled, hcreate, hfill, hindexes⟩ := tableOf_eq_ok h
  have hempty : filled.indexes = [] := by
    rw [indexes_of_addColumns hfill, indexes_withDocumentation]
    exact (Created.createFrom hctx hcreate).fresh.indexes
  intro j hj
  rcases listed_of_addIndexes hindexes j hj with hold | hlisted
  · rw [hempty] at hold
    exact absurd hold List.not_mem_nil
  · exact hlisted

theorem parseTable_eq_ok {path : Path} {text : Text} {tracked : Bool} {t : Table}
    {root : Element} {ctx ctx' : Context} (hroot : document? text = some root)
    (h : parseTable path text tracked ctx = (.ok (some t), ctx')) :
    tableOf tracked root ctx = (.ok t, ctx') := by
  rw [parseTable, hroot] at h
  rcases tableOf?_eq_ok h with ⟨u, hu, htable⟩ | ⟨hnone, _⟩
  · cases hu
    exact htable
  · cases hnone

theorem isTracked_of_tableOf {tracked : Bool} {e : Element} {t : Table} {ctx ctx' : Context}
    (h : tableOf tracked e ctx = (.ok t, ctx')) : t.isTracked = tracked := by
  rw [isTracked, (columns_of_tableOf h).1]
  cases tracked <;> rfl

theorem indexesSound_of_tableOf {tracked : Bool} {e : Element} {t : Table} {ctx ctx' : Context}
    (hctx : ctx.Reachable) (h : tableOf tracked e ctx = (.ok t, ctx')) : t.IndexesSound := by
  obtain ⟨created, operations, hcreated, rfl⟩ := reached_of_tableOf hctx h
  exact hcreated.indexesSound_run operations

/-- The columns of an index, as far as the table is concerned: those that an element lists, possibly
behind the snapshot column of the table. -/
theorem exists_columns_of_tableOf {tracked : Bool} {e : Element} {t : Table} {ctx ctx' : Context}
    (hctx : ctx.Reachable) (h : tableOf tracked e ctx = (.ok t, ctx')) {j : Index}
    (hj : j ∈ t.indexes) :
    ∃ i ∈ members "indexes" "index" e, listedColumns i ≠ [] ∧
      (j.columns = some (Text.joined "," (listedColumns i)) ∨
        j.columns = some (Text.joined "," (snapshotName :: listedColumns i)) ∧
          t.leadingColumn ≠ []) := by
  obtain ⟨i, hi, hdeclared, hsome⟩ := listed_of_tableOf hctx h j hj
  have hne : listedColumns i ≠ [] := listedColumns_ne_nil hsome
  rw [indexColumns_eq_joined] at hdeclared
  refine ⟨i, hi, hne, ?_⟩
  rw [Index.columns_eq hdeclared]
  by_cases hleads : j.leadsWithSnapshot (Text.joined "," (listedColumns i)) = true
  · have htable : j.tableName = some t.name := tableName_of_tableOf hctx h j hj
    have hsound : t.IndexesSound := indexesSound_of_tableOf hctx h
    obtain ⟨_, htracked, _, hordinary⟩ := Index.leadsWithSnapshot_iff.mp hleads
    rw [htable, Option.getD_some] at hordinary
    rw [(hsound.complete j hj).2.2] at htracked
    obtain ⟨first, more, hlisted⟩ := List.exists_cons_of_ne_nil hne
    refine Or.inr ⟨?_, leadingColumn_ne_nil_iff.mpr ⟨htracked, hordinary⟩⟩
    rw [if_pos hleads, hlisted]
    rfl
  · rw [if_neg hleads]
    exact Or.inl rfl

theorem name_of_mem_leadingColumn {tracked : Bool} {e : Element} {t : Table} {ctx ctx' : Context}
    (hctx : ctx.Reachable) (h : tableOf tracked e ctx = (.ok t, ctx')) :
    ∀ c ∈ t.leadingColumn, c.name = snapshotName := by
  intro c hc
  obtain ⟨k, hk⟩ := hctx.snapshot
  rw [leadingColumn, (columns_of_tableOf h).1, hk] at hc
  split at hc
  · exact absurd hc List.not_mem_nil
  · cases tracked with
    | false => exact absurd hc List.not_mem_nil
    | true =>
      rw [List.mem_singleton.mp hc]
      rfl

/-- A described table whose index elements name declared columns only. The columns of each index
are columns of the table's statement, except that a table without a snapshot column has none of
that name, even if one is declared. They can be told apart as long as no name has a comma. -/
theorem indexColumns_of_parseTable {path : Path} {text : Text} {tracked : Bool} {t : Table}
    {root : Element} {ctx ctx' : Context} (hctx : ctx.Reachable)
    (hroot : document? text = some root)
    (h : parseTable path text tracked ctx = (.ok (some t), ctx'))
    (hdeclared : ∀ name ∈ indexColumnNames root,
      Text.upper name ∈ t.columns.toList.map Column.name) :
    ∀ j ∈ t.indexes, ∃ names, names ≠ [] ∧ j.columns = some (Text.joined "," names) ∧
      (∀ name ∈ names, name ∈ t.sortedColumns.map Column.name ↔
        (name = snapshotName → tracked = true ∧ isDictionaryObject t.name = false)) ∧
      ((∀ name ∈ indexColumnNames root, ',' ∉ Text.upper name) →
        Text.split ',' (Text.joined "," names) = names) := by
  have htable := parseTable_eq_ok hroot h
  have hleading : t.leadingColumn ≠ [] ↔ tracked = true ∧ isDictionaryObject t.name = false := by
    rw [leadingColumn_ne_nil_iff, isTracked_of_tableOf htable]
  have hlisted : ∀ i ∈ members "indexes" "index" root, ∀ name ∈ listedColumns i,
      ∃ written ∈ indexColumnNames root, name = Text.upper written := by
    intro i hi name hname
    obtain ⟨written, hwritten, rfl⟩ := List.mem_map.mp hname
    exact ⟨written, List.mem_flatMap.mpr ⟨i, hi, hwritten⟩, rfl⟩
  intro j hj
  obtain ⟨i, hi, hne, hcolumns⟩ := exists_columns_of_tableOf hctx htable hj
  obtain ⟨names, hnames, hjoined, hmem⟩ : ∃ names, names ≠ [] ∧
      j.columns = some (Text.joined "," names) ∧
      ∀ name ∈ names, name = snapshotName ∨ name ∈ listedColumns i := by
    rcases hcolumns with hcolumns | ⟨hcolumns, _⟩
    · exact ⟨_, hne, hcolumns, fun name hname => Or.inr hname⟩
    · exact ⟨_, List.cons_ne_nil _ _, hcolumns, fun name hname => List.mem_cons.mp hname⟩
  refine ⟨names, hnames, hjoined, ?_, ?_⟩
  · intro name hname
    rw [← hleading]
    apply mem_names_sortedColumns_iff (name_of_mem_leadingColumn hctx htable)
    refine (hmem name hname).imp id fun hlist => ?_
    obtain ⟨written, hwritten, rfl⟩ := hlisted i hi name hlist
    exact hdeclared written hwritten
  · intro hcommas
    apply Text.split_joined hnames
    intro name hname
    rcases hmem name hname with rfl | hlist
    · exact Index.comma_notMem_snapshotName
    · obtain ⟨written, hwritten, rfl⟩ := hlisted i hi name hlist
      exact hcommas written hwritten

/-- What a document says of the columns of a table and its indexes, and what becomes of them. -/
structure Outline where
  name : Text
  listed : List Text
  declared : List Text
  sorted : List Text
  columns : List (Option Text)
deriving DecidableEq

def outline? (text : Text) (tracked : Bool) : Option Outline :=
  (document? text).bind fun root =>
    (tableOf? tracked root {}).1.toOption.join.map fun t =>
      { name := t.name
        listed := indexColumnNames root
        declared := t.columns.toList.map Column.name
        sorted := t.sortedColumns.map Column.name
        columns := t.indexes.map Index.columns }

theorem outline?_eq_some {text : Text} {tracked : Bool} {o : Outline}
    (h : outline? text tracked = some o) (path : Path) :
    ∃ root t ctx, document? text = some root ∧
      parseTable path text tracked {} = (.ok (some t), ctx) ∧
      t.name = o.name ∧ indexColumnNames root = o.listed ∧
      t.columns.toList.map Column.name = o.declared ∧
      t.sortedColumns.map Column.name = o.sorted ∧ t.indexes.map Index.columns = o.columns := by
  obtain ⟨root, hroot, h⟩ := Option.bind_eq_some_iff.mp h
  obtain ⟨t, ht, rfl⟩ := Option.map_eq_some_iff.mp h
  have hparse : parseTable path text tracked {} = tableOf? tracked root {} := by
    rw [parseTable, hroot]
  rw [hparse]
  rcases hrun : tableOf? tracked root {} with ⟨_ | _ | u, ctx⟩
  · rw [hrun] at ht
    cases ht
  · rw [hrun] at ht
    cases ht
  · rw [hrun] at ht
    cases ht
    exact ⟨root, t, ctx, hroot, rfl, rfl, rfl, rfl, rfl, rfl⟩

/-- A table that declares a column with the name of the snapshot column, and has a primary key and
another index, which is about that column. -/
def keyedText : Text :=
  "<table name=\"t\"><columns><column name=\"snapshot_id\" data_type=\"x\"/>" ++
  "<column name=\"b\" data_type=\"x\"/></columns>" ++
  "<indexes><index type=\"primary\"><columns><column name=\"b\"/></columns></index>" ++
  "<index><columns><column name=\"snapshot_id\"/></columns></index></indexes></table>"

theorem outline?_keyedText :
    [true, false].map (outline? keyedText) =
      [some { name := "T"
              listed := ["b", "snapshot_id"]
              declared := ["SNAPSHOT_ID", "B"]
              sorted := ["SNAPSHOT_ID", "B"]
              columns := [some ("SNAPSHOT_ID,B" : Text), some ("SNAPSHOT_ID" : Text)] },
        some { name := "T"
               listed := ["b", "snapshot_id"]
               declared := ["SNAPSHOT_ID", "B"]
               sorted := ["B"]
               columns := [some ("B" : Text), some ("SNAPSHOT_ID" : Text)] }] := by
  decide +kernel

theorem indexColumns_of_parseTable_keyedText :
    ∃ root t ctx, Context.Reachable {} ∧ document? keyedText = some root ∧
      parseTable ⟨[]⟩ keyedText true {} = (.ok (some t), ctx) ∧
      (∀ name ∈ indexColumnNames root, Text.upper name ∈ t.columns.toList.map Column.name) ∧
      t.indexes.map Index.columns =
        [some ("SNAPSHOT_ID,B" : Text), some ("SNAPSHOT_ID" : Text)] ∧
      ∀ j ∈ t.indexes, ∃ names, names ≠ [] ∧ j.columns = some (Text.joined "," names) ∧
        ∀ name ∈ names, name ∈ t.sortedColumns.map Column.name := by
  have houtline := (List.cons.inj outline?_keyedText).1
  obtain ⟨root, t, ctx, hroot, hparse, hname, hlisted, hdeclared, _, hcolumns⟩ :=
    outline?_eq_some houtline ⟨[]⟩
  have hnames : ∀ name ∈ indexColumnNames root,
      Text.upper name ∈ t.columns.toList.map Column.name := by
    rw [hlisted, hdeclared]
    decide +kernel
  have hordinary : isDictionaryObject t.name = false := by
    rw [hname]
    decide
  refine ⟨root, t, ctx, .new, hroot, hparse, hnames, hcolumns, ?_⟩
  intro j hj
  obtain ⟨names, hne, hjoined, hsorted, _⟩ :=
    indexColumns_of_parseTable .new hroot hparse hnames j hj
  exact ⟨names, hne, hjoined, fun name hmem => (hsorted name hmem).mpr fun _ => ⟨rfl, hordinary⟩⟩

/-- Without tracking, the index is about a column that the table does not have. -/
theorem indexColumns_keyedText_untracked :
    ∃ root t ctx, document? keyedText = some root ∧
      parseTable ⟨[]⟩ keyedText false {} = (.ok (some t), ctx) ∧
      (∀ name ∈ indexColumnNames root, Text.upper name ∈ t.columns.toList.map Column.name) ∧
      ∃ j ∈ t.indexes, ∃ columns, j.columns = some columns ∧
        ∃ entry ∈ Text.split ',' columns, entry ∉ t.sortedColumns.map Column.name := by
  have houtline := (List.cons.inj (List.cons.inj outline?_keyedText).2).1
  obtain ⟨root, t, ctx, hroot, hparse, _, hlisted, hdeclared, hsorted, hcolumns⟩ :=
    outline?_eq_some houtline ⟨[]⟩
  have hmem : some ("SNAPSHOT_ID" : Text) ∈ t.indexes.map Index.columns := by
    rw [hcolumns]
    exact List.mem_cons_of_mem _ List.mem_cons_self
  obtain ⟨j, hj, hlast⟩ := List.mem_map.mp hmem
  refine ⟨root, t, ctx, hroot, hparse, ?_, j, hj, "SNAPSHOT_ID".toList, hlast,
    "SNAPSHOT_ID".toList, ?_, ?_⟩
  · rw [hlisted, hdeclared]
    decide +kernel
  · decide
  · rw [hsorted]
    decide

end Description

end SchemaPackage
