import Mathlib.Data.List.TakeWhile
import SchemaPackage.Proofs.Table.IndexNames
import SchemaPackage.Proofs.Table.Operations

/-!
The indexes of a table, whatever has been done to it. Each is complete but for its columns, and no
two share a name. What an addition does depends only on the name that the index goes by: it is
refused, takes the place of the one index of that name, or comes last.
-/
namespace SchemaPackage

open Outcome

namespace Text

/-- Nothing is left of a text if it is blank throughout. -/
theorem isEmpty_trim_iff {t : Text} : (trim t).isEmpty = true ↔ ∀ c ∈ t, isBlank c = true := by
  rw [trim, trimEnds, List.isEmpty_iff, List.reverse_eq_nil_iff, List.dropWhile_eq_nil_iff]
  constructor
  · intro h c hc
    rw [← List.takeWhile_append_dropWhile (p := isBlank) (l := t), List.mem_append] at hc
    rcases hc with hc | hc
    · exact List.mem_takeWhile_imp hc
    · exact h c (List.mem_reverse.mpr hc)
  · intro h c hc
    exact h c ((List.dropWhile_sublist isBlank).subset (List.mem_reverse.mp hc))

end Text

namespace Table

/-- The tables that operations lead to. -/
def Reached (u : Table) : Prop := ∃ t operations, Created t ∧ u = t.run operations

/-- The name that the table would make up for an index. -/
def madeUpName (t : Table) (i : Index) : Text := Index.madeUpName i.kind t.name t.indexes.length

/-- The index would need a name that is too long. -/
def Overnames (t : Table) (i : Index) : Prop :=
  i.name = none ∧ maxNameBytes < (t.madeUpName i).byteLength

/-- Nothing but blanks makes up the name of the table. -/
def HasBlankName (t : Table) : Prop := ∀ c ∈ t.name, Text.isBlank c = true

/-- A table does not take an index without a name if the one made up for it is too long. If its own
name is blank, it takes none at all. -/
def Refuses (t : Table) (i : Index) : Prop := t.Overnames i ∨ t.HasBlankName

instance (t : Table) (i : Index) : Decidable (t.Overnames i) := inferInstanceAs (Decidable (_ ∧ _))

-- over the characters of the name, not over all there are
instance (t : Table) : Decidable t.HasBlankName :=
  List.decidableBAll (fun c => Text.isBlank c = true) t.name

instance (t : Table) (i : Index) : Decidable (t.Refuses i) := inferInstanceAs (Decidable (_ ∨ _))

def refusal (t : Table) (i : Index) : Fault :=
  if t.Overnames i then .longName "Index" (t.madeUpName i) else .emptyValue "Index table name"

/-- The index as the table holds it. -/
def bound (t : Table) (i : Index) : Index :=
  { i with
    name := some (i.name.getD (t.madeUpName i))
    tableName := some t.name
    tracked := t.isTracked }

theorem name_bound_of_unnamed (t : Table) {i : Index} (hi : i.name = none) :
    (t.bound i).name = some (t.madeUpName i) := by
  rw [bound, hi, Option.getD_none]

/-- An index has taken the place of the only one of its name. -/
def Replaces (i : Index) (indexes next : List Index) : Prop :=
  ∃ before old after, indexes = before ++ old :: after ∧ old.name = i.name ∧
    (∀ j ∈ before ++ after, j.name ≠ i.name) ∧ next = before ++ i :: after

theorem Replaces.exists_mem {i : Index} {indexes next : List Index} (h : Replaces i indexes next) :
    ∃ old ∈ indexes, old.name = i.name := by
  obtain ⟨before, old, after, rfl, hold, _, _⟩ := h
  exact ⟨old, List.mem_append_right _ List.mem_cons_self, hold⟩

/-- An index of a new name has come last. -/
def Appends (i : Index) (indexes next : List Index) : Prop :=
  (∀ j ∈ indexes, j.name ≠ i.name) ∧ next = indexes ++ [i]

section Addition

variable {t : Table} (ht : Text.upper t.name = t.name)

include ht

theorem namedIndex_eq (i : Index) :
    t.namedIndex i =
      if t.Overnames i then .error (.longName "Index" (t.madeUpName i))
      else .ok { i with name := some (i.name.getD (t.madeUpName i)) } := by
  cases hname : i.name with
  | some name =>
    have hnot : ¬ t.Overnames i := by
      rintro ⟨hnone, _⟩
      rw [hname] at hnone
      cases hnone
    rw [namedIndex, hname, if_neg hnot]
    cases i
    cases hname
    rfl
  | none =>
    have hne : (t.madeUpName i).isEmpty = false := by
      rw [List.isEmpty_eq_false_iff]
      exact Index.madeUpName_ne_nil _ _ _
    have hraised : Text.upper (t.madeUpName i) = t.madeUpName i := by
      rw [madeUpName, Index.upper_madeUpName, ht]
    have hauto : t.namedIndex i = i.setName (t.madeUpName i) := by
      rw [namedIndex, hname]
      rfl
    rw [hauto, Index.setName, normalizeName, hne, hraised]
    by_cases hlong : maxNameBytes < (t.madeUpName i).byteLength
    · rw [if_pos (show t.Overnames i from ⟨hname, hlong⟩)]
      simp [hlong, Except.map]
    · have hnot : ¬ t.Overnames i := fun h => hlong h.2
      rw [if_neg hnot]
      simp [hlong, Except.map]

theorem setTableName_eq (i : Index) :
    i.setTableName t.name =
      if t.HasBlankName then .error (.emptyValue "Index table name")
      else .ok { i with tableName := some t.name } := by
  rw [Index.setTableName, requireValue, ht]
  by_cases hblank : t.HasBlankName
  · rw [if_pos (Text.isEmpty_trim_iff.mpr hblank), if_pos hblank]
    rfl
  · rw [if_neg (mt Text.isEmpty_trim_iff.mp hblank), if_neg hblank]
    rfl

/-- An index is refused, or goes in as the table binds it. -/
theorem addIndex_eq (i : Index) :
    t.addIndex i =
      if t.Refuses i then .error (t.refusal i)
      else .ok { t with indexes := placeIndex (t.bound i) t.indexes } := by
  rw [addIndex_eq_bind, namedIndex_eq ht]
  by_cases hover : t.Overnames i
  · have hrefuses : t.Refuses i := Or.inl hover
    rw [if_pos hover, if_pos hrefuses, refusal, if_pos hover]
    rfl
  · rw [if_neg hover, refusal, if_neg hover]
    change (Index.setTableName t.name _ >>= _) = _
    rw [setTableName_eq ht]
    by_cases hblank : t.HasBlankName
    · have hrefuses : t.Refuses i := Or.inr hblank
      rw [if_pos hblank, if_pos hrefuses]
      rfl
    · have haccepts : ¬ t.Refuses i := not_or.mpr ⟨hover, hblank⟩
      rw [if_neg hblank, if_neg haccepts]
      rfl

theorem addIndex_of_accepts {i : Index} (h : ¬ t.Refuses i) :
    t.addIndex i = .ok { t with indexes := placeIndex (t.bound i) t.indexes } := by
  rw [addIndex_eq ht, if_neg h]

theorem perform_addIndex_of_refuses {i : Index} (h : t.Refuses i) :
    t.perform (.addIndex i) = (t, some (t.refusal i)) := by
  rw [perform, addIndex_eq ht, if_pos h]
  rfl

theorem perform_addIndex {i : Index} (h : ¬ t.Refuses i) :
    t.perform (.addIndex i) =
      ({ t with indexes := placeIndex (t.bound i) t.indexes }, none) := by
  rw [perform, addIndex_of_accepts ht h]
  rfl

/-- What an operation leaves of the indexes: the same ones, or those with one more put among them. -/
theorem indexes_perform_cases (o : Operation) :
    (t.perform o).1.indexes = t.indexes ∨
      ∃ i, o = .addIndex i ∧ (t.perform o).1.indexes = placeIndex (t.bound i) t.indexes := by
  by_cases ho : ∃ i, o = .addIndex i
  · obtain ⟨i, rfl⟩ := ho
    by_cases hrefuses : t.Refuses i
    · rw [perform_addIndex_of_refuses ht hrefuses]
      exact Or.inl rfl
    · rw [perform_addIndex ht hrefuses]
      exact Or.inr ⟨i, rfl, rfl⟩
  · exact Or.inl (indexes_perform fun i h => ho ⟨i, h⟩)

end Addition

theorem placeIndex_of_notMem {i : Index} {indexes : List Index}
    (h : ∀ j ∈ indexes, j.name ≠ i.name) : placeIndex i indexes = indexes ++ [i] := by
  induction indexes with
  | nil => rfl
  | cons j rest ih =>
    rw [placeIndex, if_neg (h j List.mem_cons_self),
      ih fun k hk => h k (List.mem_cons_of_mem _ hk), List.cons_append]

theorem placeIndex_append_cons {i old : Index} {before after : List Index}
    (hbefore : ∀ j ∈ before, j.name ≠ i.name) (hold : old.name = i.name) :
    placeIndex i (before ++ old :: after) = before ++ i :: after := by
  induction before with
  | nil => rw [List.nil_append, placeIndex, if_pos hold, List.nil_append]
  | cons j rest ih =>
    rw [List.cons_append, placeIndex, if_neg (hbefore j List.mem_cons_self),
      ih fun k hk => hbefore k (List.mem_cons_of_mem _ hk), List.cons_append]

/-- Among indexes of different names, an index replaces one or comes last. -/
theorem placeIndex_cases {i : Index} {indexes : List Index}
    (hdistinct : (indexes.map Index.name).Nodup) :
    Replaces i indexes (placeIndex i indexes) ∨ Appends i indexes (placeIndex i indexes) := by
  by_cases hheld : ∃ old ∈ indexes, old.name = i.name
  · obtain ⟨old, hmem, hold⟩ := hheld
    obtain ⟨before, after, rfl⟩ := List.append_of_mem hmem
    rw [List.map_append, List.map_cons, List.nodup_middle, ← List.map_append,
      List.nodup_cons, hold] at hdistinct
    have hothers : ∀ j ∈ before ++ after, j.name ≠ i.name :=
      fun j hj hname => hdistinct.1 (hname ▸ List.mem_map_of_mem hj)
    have hplace : placeIndex i (before ++ old :: after) = before ++ i :: after :=
      placeIndex_append_cons (fun j hj => hothers j (List.mem_append_left _ hj)) hold
    exact Or.inl ⟨before, old, after, rfl, hold, hothers, hplace⟩
  · have hnone : ∀ j ∈ indexes, j.name ≠ i.name := fun j hj hname => hheld ⟨j, hj, hname⟩
    exact Or.inr ⟨hnone, placeIndex_of_notMem hnone⟩

theorem mem_placeIndex {i j : Index} {indexes : List Index} (h : j ∈ placeIndex i indexes) :
    j = i ∨ j ∈ indexes := by
  induction indexes with
  | nil => exact Or.inl (List.mem_singleton.mp h)
  | cons k rest ih =>
    rw [placeIndex] at h
    split at h
    · rcases List.mem_cons.mp h with rfl | h
      · exact Or.inl rfl
      · exact Or.inr (List.mem_cons_of_mem _ h)
    · rcases List.mem_cons.mp h with rfl | h
      · exact Or.inr List.mem_cons_self
      · exact (ih h).imp id (List.mem_cons_of_mem _)

theorem self_mem_placeIndex (i : Index) (indexes : List Index) : i ∈ placeIndex i indexes := by
  induction indexes with
  | nil => exact List.mem_singleton.mpr rfl
  | cons j rest ih =>
    rw [placeIndex]
    split
    · exact List.mem_cons_self
    · exact List.mem_cons_of_mem _ ih

theorem Replaces.map_name {i : Index} {indexes next : List Index} (h : Replaces i indexes next) :
    next.map Index.name = indexes.map Index.name := by
  obtain ⟨before, old, after, rfl, hold, _, rfl⟩ := h
  rw [List.map_append, List.map_append, List.map_cons, List.map_cons, hold]

theorem nodup_placeIndex {i : Index} {indexes : List Index}
    (hdistinct : (indexes.map Index.name).Nodup) :
    ((placeIndex i indexes).map Index.name).Nodup := by
  rcases placeIndex_cases (i := i) hdistinct with hreplaces | ⟨hnone, hnext⟩
  · rw [hreplaces.map_name]
    exact hdistinct
  · rw [hnext, List.map_append, List.map_singleton]
    refine List.nodup_append.mpr ⟨hdistinct, List.nodup_singleton _, ?_⟩
    intro name hname other hother heq
    obtain ⟨j, hj, rfl⟩ := List.mem_map.mp hname
    rw [List.mem_singleton.mp hother] at heq
    exact hnone j hj heq

/-- The indexes of a table are named and bound to a table, follow it in whether its snapshots are
tracked, and have different names. -/
structure IndexesSound (t : Table) : Prop where
  complete : ∀ i ∈ t.indexes,
    i.name.isSome ∧ i.tableName.isSome ∧ i.tracked = t.isTracked
  distinct : (t.indexes.map Index.name).Nodup

theorem IndexesSound.perform {t : Table} (h : t.IndexesSound) (ht : Text.upper t.name = t.name)
    (o : Operation) : (t.perform o).1.IndexesSound := by
  have htracked : (t.perform o).1.isTracked = t.isTracked := by
    rw [isTracked, snapshotColumn_perform, isTracked]
  rcases indexes_perform_cases ht o with hsame | ⟨i, _, hplaced⟩
  · constructor
    · rw [hsame, htracked]
      exact h.complete
    · rw [hsame]
      exact h.distinct
  · constructor
    · rw [hplaced, htracked]
      intro j hj
      rcases mem_placeIndex hj with rfl | hj
      · exact ⟨rfl, rfl, rfl⟩
      · exact h.complete j hj
    · rw [hplaced]
      exact nodup_placeIndex h.distinct

theorem Fresh.indexesSound {t : Table} (ht : t.Fresh) : t.IndexesSound := by
  constructor
  · rw [ht.indexes]
    exact fun i hi => absurd hi List.not_mem_nil
  · rw [ht.indexes]
    exact List.nodup_nil

theorem Created.indexesSound_run {t : Table} (ht : Created t) (operations : List Operation) :
    (t.run operations).IndexesSound :=
  (run_induction (P := fun u => Text.upper u.name = u.name ∧ u.IndexesSound)
    (fun _ o h => ⟨upper_name_perform o h.1, h.2.perform h.1 o⟩)
    ⟨ht.fresh.upper_name, ht.fresh.indexesSound⟩ operations).2

/-- The indexes of every table that operations lead to. All are named, bound and in step with the
table's snapshots, and no two have the same name. One more index is refused, without any effect,
exactly when the name made up for it is too long or the name of the table is blank. Otherwise it
takes the place of the one index of its name, or comes last if there is none, and nothing else in
the table changes. -/
theorem indexes_of_reached {u : Table} (hu : Reached u) :
    (∀ i ∈ u.indexes, i.name.isSome ∧ i.tableName.isSome ∧ i.tracked = u.isTracked) ∧
    (u.indexes.map Index.name).Nodup ∧
    ∀ i : Index,
      (u.Refuses i → u.perform (.addIndex i) = (u, some (u.refusal i))) ∧
      (¬ u.Refuses i → ∃ next, u.perform (.addIndex i) = ({ u with indexes := next }, none) ∧
        (Replaces (u.bound i) u.indexes next ∨ Appends (u.bound i) u.indexes next)) := by
  obtain ⟨t, operations, ht, rfl⟩ := hu
  have hraised := ht.upper_name_run operations
  obtain ⟨hcomplete, hdistinct⟩ := ht.indexesSound_run operations
  refine ⟨hcomplete, hdistinct, fun i => ⟨perform_addIndex_of_refuses hraised, ?_⟩⟩
  intro haccepts
  exact ⟨_, perform_addIndex hraised haccepts, placeIndex_cases hdistinct⟩

/-- A primary key without a name, and an index that is added twice, before and after the table is
renamed. -/
def mixedIndexes : List Operation :=
  [.addIndex { kind := .primary, declaredColumns := some "A" },
   .addIndex { name := some "IX", declaredColumns := some "B" },
   .set .name "bar",
   .addIndex { name := some "IX", kind := .unique, declaredColumns := some "C" }]

theorem indexes_mixedIndexes :
    Reached (newTable.run mixedIndexes) ∧
      (newTable.run mixedIndexes).indexes.map Index.name =
        [some ("PK_FOO" : Text), some ("IX" : Text)] ∧
      ((newTable.run mixedIndexes).indexes.map Index.name).Nodup ∧
      ∃ next, (newTable.run mixedIndexes).perform (.addIndex { declaredColumns := some "D" }) =
          ({ newTable.run mixedIndexes with indexes := next }, none) ∧
        Appends ((newTable.run mixedIndexes).bound { declaredColumns := some "D" })
          (newTable.run mixedIndexes).indexes next := by
  have hreached : Reached (newTable.run mixedIndexes) := ⟨newTable, _, created_newTable, rfl⟩
  have haccepts : ¬ (newTable.run mixedIndexes).Refuses { declaredColumns := some "D" } := by
    decide +kernel
  have hfree : ∀ j ∈ (newTable.run mixedIndexes).indexes,
      j.name ≠ ((newTable.run mixedIndexes).bound { declaredColumns := some "D" }).name := by
    decide +kernel
  obtain ⟨_, hdistinct, hadded⟩ := indexes_of_reached hreached
  obtain ⟨next, hnext, hreplaces | happends⟩ := (hadded { declaredColumns := some "D" }).2 haccepts
  · obtain ⟨old, hmem, hold⟩ := hreplaces.exists_mem
    exact absurd hold (hfree old hmem)
  · exact ⟨hreached, by decide +kernel, hdistinct, next, hnext, happends⟩

end Table

end SchemaPackage
