import SchemaPackage.Proofs.Table.IndexColumns
import SchemaPackage.Proofs.Table.Plain
import SchemaPackage.Table.ControlFile
import SchemaPackage.Table.Records

/-!
A description with and without tracking. Either way it describes a table, or neither. The two tables
are the same apart from tracking, which shows in two places only: in front of the columns of the
table, and in front of those of primary keys. Dictionary objects do not show it at all.
-/
namespace SchemaPackage

namespace Index

/-- The columns of a key behind the snapshot column, unless they mention it already. -/
def keyColumns (kind : IndexKind) (columns : Text) : Text :=
  if kind = .primary ∧ ¬ snapshotName <:+: Text.upper columns then snapshotName ++ "," ++ columns
  else columns

theorem untracked_of_not_tracked {i : Index} (h : i.tracked = false) : i.untracked = i := by
  cases i
  cases h
  rfl

variable {i : Index}

theorem columns_of_not_leads (h : ∀ declared, ¬ i.leadsWithSnapshot declared = true) :
    i.columns = i.declaredColumns := by
  cases hdeclared : i.declaredColumns with
  | none =>
    rw [columns, hdeclared]
    rfl
  | some declared => rw [columns_eq hdeclared, if_neg (h declared)]

theorem columns_untracked (i : Index) : i.untracked.columns = i.declaredColumns := by
  refine columns_of_not_leads fun declared hleads => ?_
  have htracked : i.untracked.tracked = true := (leadsWithSnapshot_iff.mp hleads).2.1
  cases htracked

theorem columns_of_dictionary (htable : isDictionaryObject (i.tableName.getD []) = true) :
    i.columns = i.declaredColumns := by
  refine columns_of_not_leads fun declared hleads => ?_
  have hordinary := (leadsWithSnapshot_iff.mp hleads).2.2.2
  rw [htable] at hordinary
  cases hordinary

theorem columns_of_tracked {declared : Text} (htracked : i.tracked = true)
    (htable : isDictionaryObject (i.tableName.getD []) = false)
    (hdeclared : i.declaredColumns = some declared) :
    i.columns = some (keyColumns i.kind declared) := by
  have hleads : i.leadsWithSnapshot declared = true ↔
      i.kind = .primary ∧ ¬ snapshotName <:+: Text.upper declared := by
    rw [leadsWithSnapshot_iff, ← mentionsSnapshot_iff, mentionsSnapshot, Text.occursIn_iff]
    simp [htracked, htable]
  rw [columns_eq hdeclared, keyColumns]
  by_cases h : i.kind = .primary ∧ ¬ snapshotName <:+: Text.upper declared
  · rw [if_pos (hleads.mpr h), if_pos h]
  · rw [if_neg (mt hleads.mp h), if_neg h]

end Index

namespace Table

theorem fieldClauses_undated (l : List Column) :
    fieldClauses (l.map Column.undated) = fieldClauses l := by
  induction l with
  | nil => rfl
  | cons c rest ih =>
    rw [List.map_cons, fieldClauses, fieldClauses, ih]
    rfl

theorem declaredColumns_plain (t : Table) :
    t.plain.declaredColumns = t.declaredColumns.map Column.undated := List.filter_map

theorem loadsDirectly_plain (t : Table) : t.plain.loadsDirectly = t.loadsDirectly :=
  congrArg not List.any_map

/-- The tables have the same statements, control files and records. -/
structure SameOutputs (t u : Table) : Prop where
  statement : t.statement = u.statement
  indexStatements : t.indexStatements = u.indexStatements
  controlFileFor : ∀ target, t.controlFileFor target = u.controlFileFor target
  controlFile : t.controlFile = u.controlFile
  recordFields : t.recordFields = u.recordFields
  columnFields : t.sortedColumns.map Column.recordFields = u.sortedColumns.map Column.recordFields
  indexRecords : t.indexRecords = u.indexRecords

/-- The index `j` of `t` has the statement and the record of the index `i` of `u`, except that the
snapshot column is put in front of a primary key that does not mention it. -/
structure KeyAhead (t u : Table) (j i : Index) : Prop where
  statement : ∃ name declared, i.declaredColumns = some declared ∧
    (∃ plain, i.statement? = some plain ∧ Index.Creates plain i.kind name u.name declared) ∧
    ∃ keyed, j.statement? = some keyed ∧
      Index.Creates keyed i.kind name u.name (Index.keyColumns i.kind declared)
  record : t.indexFields j = (u.indexFields i).map fun f =>
    if f.1 = ("parameter" : Text) then (f.1, Index.keyColumns i.kind f.2) else f

/-- The table `t` has the columns and the indexes of `u` but for the snapshot column, which is in
front. -/
structure SnapshotAhead (t u : Table) : Prop where
  columns : ∃ k declared, t.sortedColumns = Column.snapshot k :: declared ∧
    declared.map Column.undated = u.sortedColumns.map Column.undated
  recordFields : t.recordFields = u.recordFields
  indexes : List.Forall₂ (KeyAhead t u) t.indexes u.indexes

/-- What one description makes of a table with tracking, `t`, and without, `u`. -/
structure Counterparts (t u : Table) : Prop where
  plain : t.plain = u.plain
  snapshotColumn : ∃ k, t.snapshotColumn = some (Column.snapshot k)
  noSnapshotColumn : u.snapshotColumn = none
  complete : ∀ j ∈ t.indexes, j.name.isSome ∧ j.declaredColumns.isSome ∧
    j.tableName = some t.name ∧ j.tracked = true
  untracked : ∀ i ∈ u.indexes, i.tracked = false

namespace Counterparts

variable {t u : Table} (h : Counterparts t u)

include h

/-- What does not look at tracking is the same. -/
theorem eq_of_plain {β : Type} (f : Table → β) (hf : ∀ t, f t.plain = f t) : f t = f u := by
  rw [← hf t, h.plain, hf u]

theorem name : t.name = u.name := h.eq_of_plain Table.name fun _ => rfl

theorem recordFields : t.recordFields = u.recordFields :=
  h.eq_of_plain Table.recordFields fun _ => rfl

theorem indexFields (i : Index) : t.indexFields i = u.indexFields i :=
  h.eq_of_plain (fun t => Table.indexFields t i) fun _ => rfl

theorem declaredColumns :
    t.declaredColumns.map Column.undated = u.declaredColumns.map Column.undated := by
  rw [← declaredColumns_plain, h.plain, declaredColumns_plain]

theorem indexes : u.indexes = t.indexes.map Index.untracked := by
  have hplain : t.plain.indexes = u.plain.indexes := congrArg Table.indexes h.plain
  have hself : u.indexes.map Index.untracked = u.indexes.map id :=
    List.map_congr_left fun i hi => Index.untracked_of_not_tracked (h.untracked i hi)
  calc u.indexes = u.indexes.map id := (List.map_id _).symm
    _ = u.indexes.map Index.untracked := hself.symm
    _ = t.indexes.map Index.untracked := hplain.symm

theorem sortedColumns_untracked : u.sortedColumns = u.declaredColumns := by
  rw [sortedColumns, leadingColumn, h.noSnapshotColumn]
  split <;> rfl

theorem sortedColumns_of_dictionary (hdictionary : isDictionaryObject t.name = true) :
    t.sortedColumns.map Column.undated = u.sortedColumns.map Column.undated := by
  have hsorted : t.sortedColumns = t.declaredColumns := by
    rw [sortedColumns, leadingColumn, if_pos hdictionary]
    rfl
  rw [hsorted, h.declaredColumns, h.sortedColumns_untracked]

theorem sortedColumns_of_ordinary (hordinary : isDictionaryObject t.name = false) :
    ∃ k declared, t.sortedColumns = Column.snapshot k :: declared ∧
      declared.map Column.undated = u.sortedColumns.map Column.undated := by
  obtain ⟨k, hk⟩ := h.snapshotColumn
  refine ⟨k, t.declaredColumns, ?_, ?_⟩
  · rw [sortedColumns, leadingColumn, hordinary, hk]
    rfl
  · rw [h.declaredColumns, h.sortedColumns_untracked]

theorem controlFileFor (hsorted : t.sortedColumns.map Column.undated =
    u.sortedColumns.map Column.undated) (target : Text) :
    t.controlFileFor target = u.controlFileFor target := by
  have hclauses : fieldClauses t.sortedColumns = fieldClauses u.sortedColumns := by
    rw [← fieldClauses_undated, hsorted, fieldClauses_undated]
  have hdirect : t.loadsDirectly = u.loadsDirectly :=
    h.eq_of_plain Table.loadsDirectly loadsDirectly_plain
  rw [Table.controlFileFor, Table.controlFileFor, hclauses, hdirect]

theorem controlFile (hsorted : t.sortedColumns.map Column.undated =
    u.sortedColumns.map Column.undated) : t.controlFile = u.controlFile := by
  have hloaded : t.isLoaded = u.isLoaded := h.eq_of_plain Table.isLoaded fun _ => rfl
  rw [Table.controlFile, Table.controlFile, hloaded, h.name, h.controlFileFor hsorted]

/-- Dictionary objects do not show whether they are tracked. -/
theorem sameOutputs (hdictionary : isDictionaryObject t.name = true) : SameOutputs t u := by
  have hsorted := h.sortedColumns_of_dictionary hdictionary
  have hcolumns : ∀ j ∈ t.indexes, j.columns = j.untracked.columns := by
    intro j hj
    have htable : isDictionaryObject (j.tableName.getD []) = true := by
      rw [(h.complete j hj).2.2.1]
      exact hdictionary
    rw [Index.columns_of_dictionary htable, Index.columns_untracked]
  have hdefinitions : t.sortedColumns.map Column.definition =
      u.sortedColumns.map Column.definition := Column.map_eq_of_undated (fun _ => rfl) hsorted
  constructor
  · rw [statement, statement, h.name, hdefinitions]
  · rw [indexStatements, indexStatements, h.indexes, List.filterMap_map]
    congr 1
    refine List.filterMap_congr fun j hj => ?_
    rw [Function.comp_apply, Index.statement?, Index.statement?, hcolumns j hj]
    rfl
  · exact h.controlFileFor hsorted
  · exact h.controlFile hsorted
  · exact h.recordFields
  · exact Column.map_eq_of_undated (fun _ => rfl) hsorted
  · rw [indexRecords, indexRecords, h.indexes, List.map_map]
    refine List.map_congr_left fun j hj => ?_
    rw [Function.comp_apply, h.indexFields, Table.indexFields, Table.indexFields, hcolumns j hj]
    rfl

theorem keyAhead (hordinary : isDictionaryObject t.name = false) {j : Index} (hj : j ∈ t.indexes) :
    KeyAhead t u j j.untracked := by
  obtain ⟨hnamed, hlisted, htable, htracked⟩ := h.complete j hj
  obtain ⟨name, hname⟩ := Option.isSome_iff_exists.mp hnamed
  obtain ⟨declared, hdeclared⟩ := Option.isSome_iff_exists.mp hlisted
  have hother : isDictionaryObject (j.tableName.getD []) = false := by
    rw [htable]
    exact hordinary
  have hcolumns := Index.columns_of_tracked htracked hother hdeclared
  have hcolumns' : j.untracked.columns = some declared :=
    (Index.columns_untracked j).trans hdeclared
  constructor
  · rw [h.name] at htable
    exact ⟨name, declared, hdeclared, Index.exists_creates hname htable hcolumns',
      Index.exists_creates hname htable hcolumns⟩
  · rw [h.indexFields, Table.indexFields, Table.indexFields, hcolumns, hcolumns']
    rfl

/-- Other tables show it in front of their columns and in front of the columns of primary keys. -/
theorem snapshotAhead (hordinary : isDictionaryObject t.name = false) : SnapshotAhead t u := by
  refine ⟨h.sortedColumns_of_ordinary hordinary, h.recordFields, ?_⟩
  rw [h.indexes, List.forall₂_map_right_iff, List.forall₂_same]
  exact fun j hj => h.keyAhead hordinary hj

end Counterparts

end Table

namespace Description

open Markup Outcome Table

theorem counterparts_of_tableOf {e : Element} {t u : Table} {ctx ctx' next next' : Context}
    (hctx : ctx.Reachable) (hctx' : ctx'.Reachable) (ht : tableOf true e ctx = (.ok t, next))
    (hu : tableOf false e ctx' = (.ok u, next')) : Counterparts t u := by
  have hplain := plain_tableOf e true false ctx ctx'
  rw [ht, hu] at hplain
  obtain ⟨k, hk⟩ := hctx.snapshot
  have hsnapshot : t.snapshotColumn = some ctx.snapshot.1 := (columns_of_tableOf ht).1
  rw [hk] at hsnapshot
  refine ⟨Except.ok.inj hplain, ⟨k, hsnapshot⟩, (columns_of_tableOf hu).1, ?_, ?_⟩
  · intro j hj
    obtain ⟨hname, _, htracked⟩ := (indexesSound_of_tableOf hctx ht).complete j hj
    obtain ⟨i, _, hdeclared, _⟩ := listed_of_tableOf hctx ht j hj
    rw [isTracked_of_tableOf ht] at htracked
    exact ⟨hname, Option.isSome_of_eq_some hdeclared, tableName_of_tableOf hctx ht j hj, htracked⟩
  · intro i hi
    obtain ⟨_, _, htracked⟩ := (indexesSound_of_tableOf hctx' hu).complete i hi
    rw [isTracked_of_tableOf hu] at htracked
    exact htracked

theorem counterparts_of_parseTable {path : Path} {text : Text} {t u : Table} {ctx ctx' : Context}
    (hctx : ctx.Reachable) (hctx' : ctx'.Reachable)
    (ht : (parseTable path text true ctx).1 = .ok (some t))
    (hu : (parseTable path text false ctx').1 = .ok (some u)) : Counterparts t u := by
  cases hroot : document? text with
  | none =>
    rw [parseTable, hroot] at ht
    cases ht
  | some root =>
    have htable := parseTable_eq_ok hroot (Prod.ext ht rfl)
    have huntracked := parseTable_eq_ok hroot (Prod.ext hu rfl)
    exact counterparts_of_tableOf hctx hctx' htable huntracked

/-- A text describes a table with tracking if it does without, in whatever contexts it is read. For
a dictionary object all statements, control files and records are the same. Any other table has the
snapshot column in front of the same columns, and in front of those of each primary key that does
not mention it. -/
theorem tracking_of_parseTable {ctx ctx' : Context} (hctx : ctx.Reachable)
    (hctx' : ctx'.Reachable) (path : Path) (text : Text) :
    ((∃ t, (parseTable path text true ctx).1 = .ok (some t)) ↔
      ∃ u, (parseTable path text false ctx').1 = .ok (some u)) ∧
    (∀ fault, (parseTable path text true ctx).1 = .error fault ↔
      (parseTable path text false ctx').1 = .error fault) ∧
    ∀ t u, (parseTable path text true ctx).1 = .ok (some t) →
      (parseTable path text false ctx').1 = .ok (some u) →
      t.name = u.name ∧ (isDictionaryObject t.name = true → SameOutputs t u) ∧
        (isDictionaryObject t.name = false → SnapshotAhead t u) := by
  have houtputs : ∀ t u, (parseTable path text true ctx).1 = .ok (some t) →
      (parseTable path text false ctx').1 = .ok (some u) →
      t.name = u.name ∧ (isDictionaryObject t.name = true → SameOutputs t u) ∧
        (isDictionaryObject t.name = false → SnapshotAhead t u) := by
    intro t u ht hu
    have h := counterparts_of_parseTable hctx hctx' ht hu
    exact ⟨h.name, h.sameOutputs, h.snapshotAhead⟩
  rcases except_map_eq_map (plain_parseTable path text true false ctx ctx') with
    ⟨fault, hfault, hfault'⟩ | ⟨t?, u?, ht, hu, hplain⟩
  · refine ⟨?_, ?_, houtputs⟩
    · rw [hfault, hfault']
    · intro other
      rw [hfault, hfault']
  · have hsome : t?.isSome = u?.isSome := by
      rw [← Option.isSome_map, hplain, Option.isSome_map]
    refine ⟨?_, ?_, houtputs⟩
    · rw [ht, hu]
      simp only [Except.ok.injEq, ← Option.isSome_iff_exists, hsome]
    · intro fault
      rw [ht, hu]
      constructor <;> intro h <;> cases h

theorem tracking_of_parseTable_keyedText :
    ∃ t u, Context.Reachable {} ∧ (parseTable ⟨[]⟩ keyedText true {}).1 = .ok (some t) ∧
      (parseTable ⟨[]⟩ keyedText false {}).1 = .ok (some u) ∧
      t.indexes.map Index.columns =
        [some ("SNAPSHOT_ID,B" : Text), some ("SNAPSHOT_ID" : Text)] ∧
      u.indexes.map Index.columns = [some ("B" : Text), some ("SNAPSHOT_ID" : Text)] ∧
      isDictionaryObject t.name = false ∧ SnapshotAhead t u := by
  have houtlines := List.cons.inj outline?_keyedText
  obtain ⟨_, t, next, _, ht, hname, _, _, _, hcolumns⟩ := outline?_eq_some houtlines.1 ⟨[]⟩
  obtain ⟨_, u, next', _, hu, _, _, _, _, hcolumns'⟩ :=
    outline?_eq_some (List.cons.inj houtlines.2).1 ⟨[]⟩
  have htracked : (parseTable ⟨[]⟩ keyedText true {}).1 = .ok (some t) := by rw [ht]
  have huntracked : (parseTable ⟨[]⟩ keyedText false {}).1 = .ok (some u) := by rw [hu]
  have hordinary : isDictionaryObject t.name = false := by
    rw [hname]
    decide
  obtain ⟨_, _, houtputs⟩ := tracking_of_parseTable .new .new ⟨[]⟩ keyedText
  have hahead := (houtputs t u htracked huntracked).2.2 hordinary
  exact ⟨t, u, .new, htracked, huntracked, hcolumns, hcolumns', hordinary, hahead⟩

end Description

end SchemaPackage
