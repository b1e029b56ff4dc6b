import Mathlib.Data.List.Induction
import SchemaPackage.Proofs.Table.Indexes
import SchemaPackage.Table.Statement

/-!
Where the indexes of a table come from. Each was bound to the table when it was added, by the name
that the table had then. A name was given with some index, or it was made up; and the names made up
for other indexes than primary keys are numbered upwards, so they never meet one another unless a
name of that form is given.
-/
namespace SchemaPackage

namespace Index

/-- A statement that creates an index of some kind: its name, table and columns stand between the
words for that kind. -/
inductive Creates : Text → IndexKind → Text → Text → Text → Prop
  | primary (name table columns : Text) :
    Creates ("ALTER TABLE " ++ table ++ " ADD CONSTRAINT " ++ name ++ " PRIMARY KEY(" ++ columns ++
      ") USING INDEX TABLESPACE &1;") .primary name table columns
  | unique (name table columns : Text) :
    Creates ("ALTER TABLE " ++ table ++ " ADD CONSTRAINT " ++ name ++ " UNIQUE (" ++ columns ++
      ") USING INDEX TABLESPACE &1;") .unique name table columns
  | nonUnique (name table columns : Text) :
    Creates ("CREATE INDEX " ++ name ++ " ON " ++ table ++ " (" ++ columns ++ ") TABLESPACE &1;")
      .nonUnique name table columns

theorem creates_statementOf (kind : IndexKind) (name table columns : Text) :
    Creates (statementOf kind name table columns) kind name table columns := by
  cases kind with
  | primary => exact .primary name table columns
  | unique => exact .unique name table columns
  | nonUnique => exact .nonUnique name table columns

theorem exists_creates {i : Index} {name table columns : Text}
    (hname : i.name = some name) (htable : i.tableName = some table)
    (hcolumns : i.columns = some columns) :
    ∃ statement, i.statement? = some statement ∧
      Creates statement i.kind name table columns := by
  refine ⟨_, ?_, creates_statementOf _ _ _ _⟩
  rw [statement?, hname, htable, hcolumns]

theorem Creates.ne_nil {statement name table columns : Text} {kind : IndexKind}
    (h : Creates statement kind name table columns) : statement ≠ [] := by
  cases h <;> exact List.append_ne_nil_of_right_ne_nil _ (by decide)

end Index

namespace Table

section History

variable {t : Table}

theorem length_le_length_placeIndex (i : Index) (indexes : List Index) :
    indexes.length ≤ (placeIndex i indexes).length := by
  induction indexes with
  | nil => exact Nat.zero_le _
  | cons j rest ih =>
    rw [placeIndex]
    split
    · exact le_rfl
    · exact Nat.succ_le_succ ih

theorem indexes_run_concat (ht : Created t) (operations : List Operation) (o : Operation) :
    (t.run (operations ++ [o])).indexes = (t.run operations).indexes ∨
      ∃ i, o = .addIndex i ∧ (t.run (operations ++ [o])).indexes =
        placeIndex ((t.run operations).bound i) (t.run operations).indexes := by
  rw [run_concat]
  exact indexes_perform_cases (ht.upper_name_run operations) o

/-- What holds of an index when it is bound, given that it holds of the indexes already there, and
goes on to hold as more is done to the table, holds of all that the table holds in the end. -/
theorem index_induction (ht : Created t) {P : List Operation → Index → Prop}
    (hbound : ∀ operations i, (∀ j ∈ (t.run operations).indexes, P operations j) →
      (t.run (operations ++ [.addIndex i])).indexes =
        placeIndex ((t.run operations).bound i) (t.run operations).indexes →
      P (operations ++ [.addIndex i]) ((t.run operations).bound i))
    (hkept : ∀ operations o j, P operations j → P (operations ++ [o]) j)
    (operations : List Operation) : ∀ j ∈ (t.run operations).indexes, P operations j := by
  induction operations using List.reverseRecOn with
  | nil =>
    intro j hj
    rw [run, List.foldl_nil, ht.fresh.indexes] at hj
    exact absurd hj List.not_mem_nil
  | append_singleton operations o ih =>
    intro j hj
    rcases indexes_run_concat ht operations o with hsame | ⟨i, rfl, hplaced⟩
    · rw [hsame] at hj
      exact hkept operations o j (ih j hj)
    · rw [hplaced] at hj
      rcases mem_placeIndex hj with rfl | hj
      · exact hbound operations i ih hplaced
      · exact hkept operations _ j (ih j hj)

/-- A held index was added by one of the operations, and is as the table bound it then. -/
theorem exists_addIndex (ht : Created t) (operations : List Operation) :
    ∀ j ∈ (t.run operations).indexes, ∃ before i after,
      operations = before ++ .addIndex i :: after ∧ j = (t.run before).bound i := by
  refine index_induction ht (P := fun operations j => ∃ before i after,
    operations = before ++ .addIndex i :: after ∧ j = (t.run before).bound i) ?_ ?_ operations
  · intro operations i _ _
    exact ⟨operations, i, [], rfl, rfl⟩
  · rintro operations o j ⟨before, i, after, rfl, hj⟩
    exact ⟨before, i, after ++ [o], by rw [List.append_assoc, List.cons_append], hj⟩

/-- How an index may have come by its name: it was given, or made up for a primary key, or made up
for another index when there were fewer of them than now. -/
inductive NameOrigin (t : Table) (operations : List Operation) (name : Option Text) : Prop
  | given (i : Index) (hi : .addIndex i ∈ operations) (hname : i.name = name)
  | primary (before : List Operation) (i : Index) (after : List Operation)
    (hsplit : operations = before ++ .addIndex i :: after) (hunnamed : i.name = none)
    (hkind : i.kind = .primary) (hname : name = some ((t.run before).madeUpName i))
  | numbered (kind : IndexKind) (table : Text) (n : Nat) (hkind : kind ≠ .primary)
    (hn : n < (t.run operations).indexes.length)
    (hname : name = some (Index.madeUpName kind table n))

theorem NameOrigin.concat (ht : Created t) {operations : List Operation} {name : Option Text}
    (h : NameOrigin t operations name) (o : Operation) : NameOrigin t (operations ++ [o]) name := by
  cases h with
  | given i hi hname => exact .given i (List.mem_append_left _ hi) hname
  | primary before i after hsplit hunnamed hkind hname =>
    refine .primary before i (after ++ [o]) ?_ hunnamed hkind hname
    rw [hsplit, List.append_assoc, List.cons_append]
  | numbered kind table n hkind hn hname =>
    refine .numbered kind table n hkind (hn.trans_le ?_) hname
    rcases indexes_run_concat ht operations o with hsame | ⟨i, _, hplaced⟩
    · rw [hsame]
    · rw [hplaced]
      exact length_le_length_placeIndex _ _

theorem nameOrigin_run (ht : Created t) (operations : List Operation) :
    ∀ j ∈ (t.run operations).indexes, NameOrigin t operations j.name := by
  refine index_induction ht (P := fun operations j => NameOrigin t operations j.name) ?_ ?_
    operations
  · intro operations i hheld hplaced
    cases hname : i.name with
    | some name =>
      refine .given i (List.mem_append_right _ (List.mem_singleton.mpr rfl)) ?_
      rw [bound, hname, Option.getD_some]
    | none =>
      have hbound := name_bound_of_unnamed (t.run operations) hname
      by_cases hkind : i.kind = .primary
      · exact .primary operations i [] rfl hname hkind hbound
      · have hdistinct := (ht.indexesSound_run operations).distinct
        rcases placeIndex_cases (i := (t.run operations).bound i) hdistinct with
          hreplaces | ⟨_, hlast⟩
        · -- the name was there before, and keeps the origin that it had
          obtain ⟨old, hmem, hold⟩ := hreplaces.exists_mem
          rw [← hold]
          exact (hheld old hmem).concat ht _
        · refine .numbered i.kind (t.run operations).name (t.run operations).indexes.length hkind
            ?_ hbound
          rw [hplaced, hlast, List.length_append]
          exact Nat.lt_succ_self _
  · intro operations o j h
    exact h.concat ht o

/-- An index without a name goes in last, under the name made up for it, unless that name is held
already. Then it takes the place of the one index of that name, and all others stay. This happens
only if the very name has been given to some index, or if the index is a primary key and another
one without a name was added while the table had the same name. -/
theorem addIndex_of_unnamed (ht : Created t) {operations : List Operation} {i : Index} {u : Table}
    (hi : i.name = none) (hu : (t.run operations).addIndex i = .ok u) :
    ∃ next, u = { t.run operations with indexes := next } ∧
      (Appends ((t.run operations).bound i) (t.run operations).indexes next ∨
        Replaces ((t.run operations).bound i) (t.run operations).indexes next ∧
          ((∃ k, .addIndex k ∈ operations ∧ k.name = some ((t.run operations).madeUpName i)) ∨
            i.kind = .primary ∧ ∃ before k after, operations = before ++ .addIndex k :: after ∧
              k.name = none ∧ k.kind = .primary ∧
              (t.run before).name = (t.run operations).name)) := by
  have hdistinct := (ht.indexesSound_run operations).distinct
  rw [addIndex_eq (ht.upper_name_run operations)] at hu
  split at hu
  · cases hu
  · cases hu
    refine ⟨_, rfl, ?_⟩
    rcases placeIndex_cases (i := (t.run operations).bound i) hdistinct with
      hreplaces | happends
    · refine Or.inr ⟨hreplaces, ?_⟩
      obtain ⟨old, hmem, hold⟩ := hreplaces.exists_mem
      have horigin := nameOrigin_run ht operations old hmem
      rw [hold, name_bound_of_unnamed _ hi] at horigin
      cases horigin with
      | given k hk hname => exact Or.inl ⟨k, hk, hname⟩
      | primary before k after hsplit hunnamed hkind hname =>
        obtain ⟨htable, ⟨hprimary, _⟩ | ⟨_, hother, _⟩⟩ :=
          Index.madeUpName_eq_iff.mp (Option.some.inj hname)
        · exact Or.inr ⟨hprimary, before, k, after, hsplit, hunnamed, hkind, htable.symm⟩
        · exact absurd hkind hother
      | numbered kind table n hkind hn hname =>
        -- its number is below the number of indexes now, by which the new one goes
        obtain ⟨_, ⟨_, hprimary⟩ | ⟨_, _, hnumber⟩⟩ :=
          Index.madeUpName_eq_iff.mp (Option.some.inj hname)
        · exact absurd hprimary hkind
        · omega
    · exact Or.inl happends

/-- An index numbered by hand, as the second of the table, and an index without a name. -/
def numberedByHand : List Operation :=
  [.addIndex { name := some "I1_FOO", declaredColumns := some "A" }]

def plainIndex : Index where
  declaredColumns := some "B"

theorem addIndex_of_unnamed_numberedByHand :
    ∃ u, Created newTable ∧ plainIndex.name = none ∧
      (newTable.run numberedByHand).addIndex plainIndex = .ok u ∧
      ∃ next, u = { newTable.run numberedByHand with indexes := next } ∧
        (Appends ((newTable.run numberedByHand).bound plainIndex)
            (newTable.run numberedByHand).indexes next ∨
          Replaces ((newTable.run numberedByHand).bound plainIndex)
            (newTable.run numberedByHand).indexes next ∧
            ∃ k, .addIndex k ∈ numberedByHand ∧
              k.name = some ((newTable.run numberedByHand).madeUpName plainIndex)) := by
  have haccepts : ¬ (newTable.run numberedByHand).Refuses plainIndex := by decide +kernel
  have hadd := addIndex_of_accepts (created_newTable.upper_name_run _) haccepts
  obtain ⟨next, hnext, horigin⟩ := addIndex_of_unnamed created_newTable rfl hadd
  refine ⟨_, created_newTable, rfl, hadd, next, hnext,
    horigin.imp id fun h => ⟨h.1, h.2.resolve_right ?_⟩⟩
  rintro ⟨hkind, _⟩
  cases hkind

/-- A primary key without a name. -/
def keyed : List Operation := [.addIndex { kind := .primary, declaredColumns := some "A" }]

def secondKey : Index where
  kind := .primary
  declaredColumns := some "B"

/-- An index without a name may drive out one that had a name given, and a second primary key
without a name drives out the first. -/
theorem addIndex_overwrites :
    Reached (newTable.run numberedByHand) ∧ plainIndex.name = none ∧
      (∃ u, (newTable.run numberedByHand).addIndex plainIndex = .ok u ∧
        (newTable.run numberedByHand).indexes.map Index.declaredColumns = [some "A".toList] ∧
        u.indexes.map Index.declaredColumns = [some "B".toList]) ∧
      Reached (newTable.run keyed) ∧ secondKey.name = none ∧
      ∃ u, (newTable.run keyed).addIndex secondKey = .ok u ∧
        (newTable.run keyed).indexes.map Index.declaredColumns = [some "A".toList] ∧
        u.indexes.map Index.declaredColumns = [some "B".toList] := by
  have hplain : ¬ (newTable.run numberedByHand).Refuses plainIndex := by decide +kernel
  have hsecond : ¬ (newTable.run keyed).Refuses secondKey := by decide +kernel
  refine ⟨⟨newTable, _, created_newTable, rfl⟩, rfl,
    ⟨_, addIndex_of_accepts (created_newTable.upper_name_run _) hplain, ?_, ?_⟩,
    ⟨newTable, _, created_newTable, rfl⟩, rfl,
    ⟨_, addIndex_of_accepts (created_newTable.upper_name_run _) hsecond, ?_, ?_⟩⟩
  all_goals decide +kernel

theorem leadingColumn_ne_nil_iff :
    t.leadingColumn ≠ [] ↔ t.isTracked = true ∧ isDictionaryObject t.name = false := by
  rw [leadingColumn, isTracked]
  cases isDictionaryObject t.name <;> cases t.snapshotColumn <;> simp

/-- Every index belongs to the table by the name that the table had when the index was added. As
long as the table has still that name, all statements of indexes are about the table that its own
statement creates, and whether snapshots count is decided for a primary key as for the table. -/
theorem index_targets (ht : Created t) (operations : List Operation) :
    (∀ j ∈ (t.run operations).indexes, ∃ before i after,
      operations = before ++ .addIndex i :: after ∧ j.tableName = some (t.run before).name) ∧
    ((∀ before i after, operations = before ++ .addIndex i :: after →
        (t.run before).name = (t.run operations).name) →
      ∀ j ∈ (t.run operations).indexes,
        j.tableName = some (t.run operations).name ∧
        (∀ statement, j.statement? = some statement → ∃ name columns,
          Index.Creates statement j.kind name (t.run operations).name columns) ∧
        ∀ columns, j.kind = .primary → Index.mentionsSnapshot columns = false →
          (j.leadsWithSnapshot columns = true ↔ (t.run operations).leadingColumn ≠ [])) := by
  have horigin := exists_addIndex ht operations
  have hsound := ht.indexesSound_run operations
  constructor
  · intro j hj
    obtain ⟨before, i, after, hsplit, rfl⟩ := horigin j hj
    exact ⟨before, i, after, hsplit, rfl⟩
  · intro hsettled j hj
    have htable : j.tableName = some (t.run operations).name := by
      obtain ⟨before, i, after, hsplit, rfl⟩ := horigin j hj
      exact congrArg some (hsettled before i after hsplit)
    refine ⟨htable, ?_, ?_⟩
    · intro statement hstatement
      rw [Index.statement?, htable] at hstatement
      split at hstatement
      next name table columns _ htarget _ =>
        cases htarget
        cases hstatement
        exact ⟨name, columns, Index.creates_statementOf _ _ _ _⟩
      next => cases hstatement
    · intro columns hkind hmentions
      rw [leadingColumn_ne_nil_iff, Index.leadsWithSnapshot, hkind, hmentions, htable,
        (hsound.complete j hj).2.2]
      simp

theorem name_perform_addIndex (u : Table) (i : Index) :
    (u.perform (.addIndex i)).1.name = u.name := by
  obtain ⟨_, h⟩ := exists_perform_addIndex u i
  rw [h]

/-- Operations after which the table keeps its name. -/
theorem name_run {operations : List Operation}
    (h : ∀ o ∈ operations, ∀ u : Table, (u.perform o).1.name = u.name) :
    (t.run operations).name = t.name := by
  induction operations generalizing t with
  | nil => rfl
  | cons o rest ih =>
    have hrest : ((t.perform o).1.run rest).name = (t.perform o).1.name :=
      ih fun p hp => h p (List.mem_cons_of_mem _ hp)
    exact hrest.trans (h o List.mem_cons_self t)

/-- A table that gets its indexes when its name is settled has the same name at each of them. -/
theorem name_settled {first rest : List Operation} (hfirst : ∀ i, .addIndex i ∉ first)
    (hrest : ∀ o ∈ rest, ∀ u : Table, (u.perform o).1.name = u.name)
    {before after : List Operation} {i : Index}
    (hsplit : first ++ rest = before ++ .addIndex i :: after) :
    (t.run before).name = (t.run (first ++ rest)).name := by
  have hkept : ∀ {operations : List Operation}, (∀ o ∈ operations, o ∈ rest) →
      (t.run (first ++ operations)).name = (t.run first).name := by
    intro operations hmem
    rw [run_append]
    exact name_run fun o ho => hrest o (hmem o ho)
  -- the index is not among the first operations, so the split is in the rest
  rcases List.append_eq_append_iff.mp hsplit with ⟨more, rfl, hmore⟩ | ⟨more, rfl, hmore⟩
  · rw [hkept fun o ho => ho, hkept fun o ho => by rw [hmore]; exact List.mem_append_left _ ho]
  · cases more with
    | nil => rw [hkept fun o ho => ho, List.append_nil]
    | cons o more =>
      obtain ⟨rfl, _⟩ := List.cons.inj hmore
      exact absurd (List.mem_append_right _ List.mem_cons_self) (hfirst i)

/-- A table that is renamed before it gets a primary key. -/
def settledKey : List Operation :=
  [.set .name "bar",
   .addIndex { name := some "PK", kind := .primary, declaredColumns := some "A" },
   .addColumn { Column.blank 1 with name := "A", dataType := "NUMBER" }]

theorem index_targets_settledKey :
    Created newTable ∧
      (∀ before i after, settledKey = before ++ .addIndex i :: after →
        (newTable.run before).name = (newTable.run settledKey).name) ∧
      ∃ j ∈ (newTable.run settledKey).indexes,
        j.tableName = some (newTable.run settledKey).name ∧
        (j.leadsWithSnapshot "A" = true ↔ (newTable.run settledKey).leadingColumn ≠ []) := by
  have hfirst : ∀ i, .addIndex i ∉ settledKey.take 1 := by
    intro i hi
    cases List.mem_singleton.mp hi
  have hrest : ∀ o ∈ settledKey.drop 1, ∀ u : Table, (u.perform o).1.name = u.name := by
    intro o ho u
    rcases List.mem_cons.mp ho with rfl | ho
    · exact name_perform_addIndex u _
    · rw [List.mem_singleton.mp ho]
      rfl
  have hsettled : ∀ before i after, settledKey = before ++ .addIndex i :: after →
      (newTable.run before).name = (newTable.run settledKey).name :=
    fun _ _ _ hsplit => name_settled hfirst hrest hsplit
  have hmem : (newTable.run settledKey).indexes.head (by decide +kernel) ∈
      (newTable.run settledKey).indexes := List.head_mem _
  obtain ⟨htable, _, hleads⟩ := (index_targets created_newTable settledKey).2 hsettled _ hmem
  exact ⟨created_newTable, hsettled, _, hmem, htable,
    hleads "A" (by decide +kernel) (by decide +kernel)⟩

/-- A table that is renamed when it has a primary key. -/
def renamedKey : List Operation :=
  [.addIndex { name := some "PK", kind := .primary, declaredColumns := some "A" },
   .set .name "application"]

/-- The key still belongs to the former name, and has a column that the table does not have. -/
theorem index_targets_former_name :
    Reached (newTable.run renamedKey) ∧ (newTable.run renamedKey).name = "APPLICATION" ∧
      (newTable.run renamedKey).indexes.map Index.tableName = [some "FOO".toList] ∧
      (newTable.run renamedKey).indexStatements =
        "ALTER TABLE FOO ADD CONSTRAINT PK PRIMARY KEY(SNAPSHOT_ID,A) USING INDEX TABLESPACE &1;" ∧
      (newTable.run renamedKey).sortedColumns = [] := by
  refine ⟨⟨newTable, _, created_newTable, rfl⟩, ?_, ?_, ?_, ?_⟩
  all_goals decide +kernel

end History

end Table

end SchemaPackage
