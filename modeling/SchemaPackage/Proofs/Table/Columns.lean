import Mathlib.Data.List.Induction
import SchemaPackage.Proofs.Table.Operations

/-!
The columns of a table, whatever has been done to it. A column takes the place of an earlier one of
its name, so the table holds the last of each name. The orders of their creation alone arrange
them: neither the order of the additions matters nor that in which the held columns are counted up.
-/
namespace SchemaPackage

theorem latest_sublist (l : List Column) : (latest l).Sublist l := by
  induction l with
  | nil => exact List.Sublist.refl []
  | cons c rest ih =>
    rw [latest]
    split
    · exact ih.cons c
    · exact ih.cons_cons c

namespace Column

/-- The column is the last one of its name. -/
def IsLastIn (c : Column) (l : List Column) : Prop :=
  ∃ before after, l = before ++ c :: after ∧ c.name ∉ after.map name

theorem isLastIn_iff_mem {c : Column} {l : List Column} (hl : (l.map name).Nodup) :
    c.IsLastIn l ↔ c ∈ l := by
  constructor
  · rintro ⟨before, after, rfl, _⟩
    exact List.mem_append_right _ List.mem_cons_self
  · intro hc
    obtain ⟨before, after, rfl⟩ := List.append_of_mem hc
    refine ⟨before, after, rfl, ?_⟩
    rw [List.map_append, List.map_cons, List.nodup_append] at hl
    exact (List.nodup_cons.mp hl.2.1).1

/-- The first column was created before the second. -/
def Older (c d : Column) : Prop := c.order < d.order

theorem pairwise_older {l : List Column} (hsorted : l.Pairwise fun c d => c.order ≤ d.order)
    (horders : (l.map order).Nodup) : l.Pairwise Older := by
  rw [List.Nodup, List.pairwise_map] at horders
  exact hsorted.imp₂ (fun _ _ hle hne => Nat.lt_of_le_of_ne hle hne) horders

/-- Columns in the order of their creation are determined by which ones they are. -/
theorem eq_of_pairwise_older {l m : List Column} (hl : l.Pairwise Older) (hm : m.Pairwise Older)
    (h : ∀ c, c ∈ l ↔ c ∈ m) : l = m := by
  have hnodup : ∀ {l : List Column}, l.Pairwise Older → l.Nodup := by
    intro l hl
    refine hl.imp fun {c d} hcd heq => ?_
    rw [Older, heq] at hcd
    exact Nat.lt_irrefl _ hcd
  have hperm : l.Perm m := (List.perm_ext_iff_of_nodup (hnodup hl) (hnodup hm)).mpr h
  refine hperm.eq_of_pairwise ?_ hl hm
  intro c d _ _ hcd hdc
  exact absurd hcd (Nat.lt_asymm hdc)

end Column

namespace ColumnSet

theorem place_perm (c : Column) (l : List Column) : (place c l).Perm (c :: l) := by
  induction l with
  | nil => exact List.Perm.refl _
  | cons d rest ih =>
    rw [place]
    split
    · exact List.Perm.refl _
    · exact (ih.cons d).trans (List.Perm.swap c d rest)

theorem pairwise_place {l : List Column} (c : Column)
    (hl : l.Pairwise fun c d => c.order ≤ d.order) :
    (place c l).Pairwise fun c d => c.order ≤ d.order := by
  induction l with
  | nil => exact List.pairwise_singleton _ _
  | cons d rest ih =>
    obtain ⟨hd, hrest⟩ := List.pairwise_cons.mp hl
    rw [place]
    split
    next hlt =>
      refine List.pairwise_cons.mpr ⟨?_, hl⟩
      intro e he
      rcases List.mem_cons.mp he with rfl | he
      · omega
      · have hle := hd e he
        omega
    next hle =>
      refine List.pairwise_cons.mpr ⟨?_, ih hrest⟩
      intro e he
      rcases List.mem_cons.mp ((place_perm c rest).mem_iff.mp he) with rfl | he
      · omega
      · exact hd e he

/-- An insertion drives out the columns of the same name and adds the new one. -/
theorem insert_perm_latest {s : ColumnSet} {l : List Column} (c : Column)
    (hs : s.toList.Perm (latest l)) : (s.insert c).toList.Perm (latest (l ++ [c])) := by
  rw [latest_append_singleton]
  have hplaced := place_perm c (s.toList.filter fun d => !c.sameName d)
  have hkept := (hs.filter fun d => !c.sameName d).cons c
  exact (hplaced.trans hkept).trans (List.perm_append_singleton c _).symm

end ColumnSet

namespace Table

/-- The columns that operations add, in turn. -/
def addedColumns (operations : List Operation) : List Column :=
  operations.filterMap fun
    | .addColumn c => some c
    | _ => none

variable {t : Table}

/-- The set keeps the last of each name, in the order of their creation. -/
theorem columns_run (ht : Created t) (operations : List Operation) :
    (t.run operations).columns.toList.Perm (latest (addedColumns operations)) ∧
      (t.run operations).columns.toList.Pairwise fun c d => c.order ≤ d.order := by
  -- from the end of the history, as the last column of a name is the one that counts
  induction operations using List.reverseRecOn with
  | nil =>
    rw [run, List.foldl_nil, ht.fresh.columns]
    exact ⟨List.Perm.refl _, List.Pairwise.nil⟩
  | append_singleton operations o ih =>
    obtain ⟨hperm, hsorted⟩ := ih
    rw [run_concat]
    by_cases ho : ∃ c, o = .addColumn c
    · obtain ⟨c, rfl⟩ := ho
      have hadded : addedColumns (operations ++ [.addColumn c]) = addedColumns operations ++ [c] :=
        List.filterMap_append
      rw [hadded]
      exact ⟨ColumnSet.insert_perm_latest c hperm, ColumnSet.pairwise_place c (hsorted.filter _)⟩
    · have hother : ∀ c, o ≠ .addColumn c := fun c h => ho ⟨c, h⟩
      have hadded : addedColumns (operations ++ [o]) = addedColumns operations := by
        rw [addedColumns, List.filterMap_append]
        cases o with
        | addColumn c => exact absurd rfl (hother c)
        | _ => exact List.append_nil _
      rw [hadded, columns_perform hother]
      exact ⟨hperm, hsorted⟩

theorem leadingColumn_run (ht : Created t) (operations : List Operation) :
    ∃ k, (t.run operations).leadingColumn =
      if (t.run operations).isTracked && !isDictionaryObject (t.run operations).name then
        [Column.snapshot k] else [] := by
  have hkept := snapshotColumn_run t operations
  rw [leadingColumn, isTracked, hkept]
  rcases ht.fresh.snapshotColumn with hnone | ⟨k, hk⟩
  · refine ⟨0, ?_⟩
    rw [hnone]
    cases isDictionaryObject (t.run operations).name <;> rfl
  · refine ⟨k, ?_⟩
    rw [hk]
    cases isDictionaryObject (t.run operations).name <;> rfl

theorem leadingColumn_congr {operations others : List Operation}
    (hname : (t.run others).name = (t.run operations).name) :
    (t.run others).leadingColumn = (t.run operations).leadingColumn := by
  rw [leadingColumn, leadingColumn, hname, snapshotColumn_run, snapshotColumn_run]

/-- The columns of the table statement that are behind the snapshot column. -/
def declaredColumns (t : Table) : List Column :=
  t.columns.toList.filter (·.name != snapshotName)

section Declared

variable {operations : List Operation}
  (horders : ((addedColumns operations).map Column.order).Nodup)

include horders

theorem pairwise_columns_run (ht : Created t) :
    (t.run operations).columns.toList.Pairwise Column.Older := by
  obtain ⟨hperm, hsorted⟩ := columns_run ht operations
  have hlatest : ((latest (addedColumns operations)).map Column.order).Nodup :=
    horders.sublist ((latest_sublist _).map Column.order)
  exact Column.pairwise_older hsorted ((hperm.map Column.order).nodup_iff.mpr hlatest)

theorem pairwise_declaredColumns_run (ht : Created t) :
    (t.run operations).declaredColumns.Pairwise Column.Older :=
  (pairwise_columns_run horders ht).filter _

/-- In whatever order the held columns are counted up, sorting brings them into the one order. -/
theorem mergeSort_held (ht : Created t) {held : List Column}
    (hheld : held.Perm (t.run operations).columns.toList) :
    (held.filter (·.name != snapshotName)).mergeSort (fun c d => c.order ≤ d.order) =
      (t.run operations).declaredColumns := by
  have hperm : ((held.filter (·.name != snapshotName)).mergeSort
      (fun c d => c.order ≤ d.order)).Perm (t.run operations).declaredColumns :=
    (List.mergeSort_perm _ _).trans (hheld.filter _)
  have hdeclared := pairwise_declaredColumns_run horders ht
  have hdistinct : ((t.run operations).declaredColumns.map Column.order).Nodup :=
    List.pairwise_map.mpr (hdeclared.imp fun hcd => Nat.ne_of_lt hcd)
  have hsorted : ((held.filter (·.name != snapshotName)).mergeSort
      (fun c d => c.order ≤ d.order)).Pairwise fun c d => decide (c.order ≤ d.order) = true := by
    apply List.pairwise_mergeSort
    · intro c d e hcd hde
      rw [decide_eq_true_eq] at hcd hde ⊢
      omega
    · intro c d
      rw [Bool.or_eq_true, decide_eq_true_eq, decide_eq_true_eq]
      omega
  refine Column.eq_of_pairwise_older (Column.pairwise_older ?_ ?_) hdeclared
    fun c => hperm.mem_iff
  · exact hsorted.imp fun hcd => of_decide_eq_true hcd
  · exact (hperm.map Column.order).nodup_iff.mpr hdistinct

end Declared

theorem mem_declaredColumns_run (ht : Created t) {operations : List Operation} {c : Column} :
    c ∈ (t.run operations).declaredColumns ↔
      c.name ≠ snapshotName ∧ c.IsLastIn (addedColumns operations) := by
  rw [declaredColumns, List.mem_filter, (columns_run ht operations).1.mem_iff, mem_latest_iff,
    bne_iff_ne, and_comm]
  rfl

/-- Two ways to fill a table that leave the same last column of each name. -/
theorem sortedColumns_congr (ht : Created t) {operations others : List Operation}
    (horders : ((addedColumns operations).map Column.order).Nodup)
    (hothers : ((addedColumns others).map Column.order).Nodup)
    (hname : (t.run others).name = (t.run operations).name)
    (hlast : ∀ c, Column.IsLastIn c (addedColumns others) ↔ c.IsLastIn (addedColumns operations)) :
    (t.run others).sortedColumns = (t.run operations).sortedColumns := by
  have hdeclared : (t.run others).declaredColumns = (t.run operations).declaredColumns := by
    refine Column.eq_of_pairwise_older (pairwise_declaredColumns_run hothers ht)
      (pairwise_declaredColumns_run horders ht) fun c => ?_
    rw [mem_declaredColumns_run ht, mem_declaredColumns_run ht, hlast]
  change (t.run others).leadingColumn ++ (t.run others).declaredColumns = _
  rw [leadingColumn_congr hname, hdeclared]
  rfl

theorem nodup_names_declaredColumns_run (ht : Created t) (operations : List Operation) :
    ((t.run operations).declaredColumns.map Column.name).Nodup := by
  have hnames : ((t.run operations).columns.toList.map Column.name).Nodup := by
    rw [((columns_run ht operations).1.map Column.name).nodup_iff, map_latest]
    exact List.nodup_dedup _
  exact hnames.sublist (List.filter_sublist.map Column.name)

/-- The columns of a table after any operations, given that no two columns that were added have the
same order. The snapshot column leads if the snapshots are tracked and the table, by its present
name, is no dictionary. Behind it comes the last column of each other name, in the order of
creation, as sorting gives them from any enumeration of the held columns. So no name occurs twice,
and operations that add the same last columns, such as the same columns of different names in
another order, make the same of a table. -/
theorem sortedColumns_run (ht : Created t) {operations : List Operation}
    (horders : ((addedColumns operations).map Column.order).Nodup) :
    ∃ k declared,
      (t.run operations).sortedColumns =
        (if (t.run operations).isTracked && !isDictionaryObject (t.run operations).name then
          [Column.snapshot k] else []) ++ declared ∧
      declared.Pairwise Column.Older ∧
      (∀ c, c ∈ declared ↔ c.name ≠ snapshotName ∧ c.IsLastIn (addedColumns operations)) ∧
      (∀ held : List Column, held.Perm (t.run operations).columns.toList →
        (held.filter (·.name != snapshotName)).mergeSort (fun c d => c.order ≤ d.order) =
          declared) ∧
      ((t.run operations).sortedColumns.map Column.name).Nodup ∧
      (∀ c ∈ (t.run operations).sortedColumns.tail, c.name ≠ snapshotName) ∧
      (∀ others, ((addedColumns others).map Column.order).Nodup →
        (t.run others).name = (t.run operations).name →
        (∀ c, Column.IsLastIn c (addedColumns others) ↔
          c.IsLastIn (addedColumns operations)) →
        (t.run others).sortedColumns = (t.run operations).sortedColumns) ∧
      (∀ others, (t.run others).name = (t.run operations).name →
        ((addedColumns operations).map Column.name).Nodup →
        (addedColumns others).Perm (addedColumns operations) →
        (t.run others).sortedColumns = (t.run operations).sortedColumns) := by
  obtain ⟨k, hk⟩ := leadingColumn_run ht operations
  have hsorted : (t.run operations).sortedColumns =
      (if (t.run operations).isTracked && !isDictionaryObject (t.run operations).name then
        [Column.snapshot k] else []) ++ (t.run operations).declaredColumns := by
    rw [← hk]
    rfl
  have hother : ∀ c ∈ (t.run operations).declaredColumns, c.name ≠ snapshotName :=
    fun c hc => ((mem_declaredColumns_run ht).mp hc).1
  have hnames := nodup_names_declaredColumns_run ht operations
  refine ⟨k, (t.run operations).declaredColumns, hsorted, pairwise_declaredColumns_run horders ht,
    fun c => mem_declaredColumns_run ht, fun held => mergeSort_held horders ht, ?_, ?_, ?_, ?_⟩
  · rw [hsorted]
    split
    · rw [List.singleton_append, List.map_cons, List.nodup_cons]
      refine ⟨?_, hnames⟩
      intro hmem
      obtain ⟨c, hc, hname⟩ := List.mem_map.mp hmem
      exact hother c hc hname
    · exact hnames
  · intro c hc
    rw [hsorted] at hc
    split at hc
    · exact hother c hc
    · exact hother c (List.mem_of_mem_tail hc)
  · intro others hothers hname hlast
    exact sortedColumns_congr ht horders hothers hname hlast
  · intro others hname hdistinct hperm
    have hothers : ((addedColumns others).map Column.order).Nodup :=
      (hperm.map Column.order).nodup_iff.mpr horders
    have hdistinct' : ((addedColumns others).map Column.name).Nodup :=
      (hperm.map Column.name).nodup_iff.mpr hdistinct
    refine sortedColumns_congr ht horders hothers hname fun c => ?_
    rw [Column.isLastIn_iff_mem hdistinct', Column.isLastIn_iff_mem hdistinct, hperm.mem_iff]

/-- A table that is renamed between its columns, with a column that is added again and one that has
the name of the snapshot column. -/
def refilling : List Operation :=
  [.addColumn { Column.blank 1 with name := "CODE", dataType := "NUMBER" },
   .addColumn { Column.blank 2 with name := "LABEL", dataType := "NUMBER" },
   .set .name "orders",
   .addColumn { Column.blank 3 with name := "CODE", dataType := "DATE" },
   .addColumn { Column.blank 4 with name := "SNAPSHOT_ID", dataType := "DATE" }]

theorem sortedColumns_refilling :
    Created newTable ∧ ((addedColumns refilling).map Column.order).Nodup ∧
      (newTable.run refilling).name = "ORDERS" ∧
      (newTable.run refilling).sortedColumns.map Column.order = [0, 2, 3] ∧
      ((newTable.run refilling).sortedColumns.map Column.name).Nodup ∧
      ∀ c ∈ (newTable.run refilling).sortedColumns.tail, c.name ≠ snapshotName := by
  have horders : ((addedColumns refilling).map Column.order).Nodup := by decide +kernel
  obtain ⟨k, declared, _, _, _, _, hnames, htail, _, _⟩ :=
    sortedColumns_run created_newTable horders
  exact ⟨created_newTable, horders, by decide +kernel, by decide +kernel, hnames, htail⟩

end Table

end SchemaPackage
