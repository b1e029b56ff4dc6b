import SchemaPackage.Proofs.Obtained
import SchemaPackage.Proofs.Text.Lengths

/-!
The lengths of names. A name is limited before its letters are raised, and what is stored is the
raised name. So a stored name keeps within the limit unless it was given with a character that grows
when it is raised, and then it may be three times as long. The names that tables make up for their
indexes come from raised names and always keep within the limit.
-/
namespace SchemaPackage

open Outcome

/-- The name is what a value within the limit is stored as. -/
def IsStored (name : Text) : Prop :=
  ∃ value : Text, value ≠ [] ∧ value.byteLength ≤ maxNameBytes ∧ name = Text.upper value

theorem isStored_of_normalizeName {entity value name : Text}
    (h : normalizeName entity value = .ok name) : IsStored name :=
  ⟨value, normalizeName_eq_ok_iff.mp h⟩

theorem isStored_snapshotName : IsStored snapshotName :=
  ⟨snapshotName, by decide +kernel, by decide +kernel, by decide +kernel⟩

theorem Column.kept_isStored : Column.Kept fun c => IsStored c.name where
  ofNameAndType h := by
    obtain ⟨named, hnamed, htyped⟩ := except_bind_eq_ok_iff.mp h
    obtain ⟨name, hname, rfl⟩ := except_map_eq_ok_iff.mp hnamed
    obtain ⟨_, _, rfl⟩ := except_map_eq_ok_iff.mp htyped
    exact isStored_of_normalizeName hname
  set {field value c d} h hc := by
    cases field with
    | name =>
      obtain ⟨name, hname, rfl⟩ := except_map_eq_ok_iff.mp h
      exact isStored_of_normalizeName hname
    | dataType =>
      obtain ⟨_, _, rfl⟩ := except_map_eq_ok_iff.mp h
      exact hc
    | _ => cases h; exact hc
  snapshot _ := isStored_snapshotName

/-- An index may go without a name, but has no other than a stored one. -/
def Index.HasStored (i : Index) : Prop := ∀ name ∈ i.name, IsStored name

theorem Index.kept_hasStored : Index.Kept HasStored where
  empty := fun _ h => nomatch h
  set {field value i j} h hi := by
    cases field with
    | name =>
      obtain ⟨name, hname, rfl⟩ := except_map_eq_ok_iff.mp h
      intro stored hstored
      cases hstored
      exact isStored_of_normalizeName hname
    | story => cases h; exact hi
    | release => cases h; exact hi
    | _ =>
      obtain ⟨_, _, rfl⟩ := except_map_eq_ok_iff.mp h
      exact hi
  track _ _ hi := hi

theorem ProgramUnit.kept_isStored : ProgramUnit.Kept fun u => IsStored u.name where
  ofKindAndName h := by
    obtain ⟨kind, _, h⟩ := except_bind_eq_ok_iff.mp h
    obtain ⟨name, hname, h⟩ := except_bind_eq_ok_iff.mp h
    cases h
    exact isStored_of_normalizeName hname
  set {field value u v} h hu := by
    cases field with
    | name =>
      obtain ⟨name, hname, rfl⟩ := except_map_eq_ok_iff.mp h
      exact isStored_of_normalizeName hname
    | installOrder =>
      obtain ⟨_, _, rfl⟩ := except_map_eq_ok_iff.mp h
      exact hu
    | _ => cases h; exact hu

theorem Table.kept_isStored : Table.Kept fun t => IsStored t.name where
  new hname _ := isStored_of_normalizeName hname
  set {field value t u} h ht := by
    cases field with
    | name =>
      obtain ⟨name, hname, rfl⟩ := except_map_eq_ok_iff.mp h
      exact isStored_of_normalizeName hname
    | transactions =>
      obtain ⟨_, _, rfl⟩ := except_map_eq_ok_iff.mp h
      exact ht
    | _ => cases h; exact ht
  addColumn _ _ ht := ht
  setIndexes _ _ ht := ht

namespace Item

def name? : Item → Option Text
  | column c => some c.name
  | index i => i.name
  | table t => some t.name
  | unit u => some u.name

def NameIsStored : Item → Prop
  | column c => IsStored c.name
  | index i => i.HasStored
  | table t => IsStored t.name
  | unit u => IsStored u.name

theorem kept_nameIsStored : Kept NameIsStored :=
  ⟨Column.kept_isStored, Index.kept_hasStored, Table.kept_isStored, ProgramUnit.kept_isStored⟩

theorem NameIsStored.isStored {item : Item} (h : item.NameIsStored) :
    ∀ name ∈ item.name?, IsStored name := by
  intro name hname
  cases item with
  | index i => exact h name hname
  | _ => cases hname; exact h

end Item

theorem Obtained.isStored {item : Item} (h : Obtained item) :
    ∀ name ∈ item.name?, IsStored name := (h.kept Item.kept_nameIsStored).isStored

/-- A table makes up its names from its own, which is raised already. -/
theorem madeUpName_of_obtained {t u : Table} {i : Index} (ht : Obtained (.table t))
    (hi : i.name = none) (h : t.addIndex i = .ok u) :
    (t.madeUpName i).byteLength ≤ maxNameBytes ∧
      ∃ j ∈ u.indexes, j.name = some (t.madeUpName i) := by
  obtain ⟨value, _, _, hname⟩ := ht.isStored t.name rfl
  have hupper : Text.upper t.name = t.name := by
    rw [hname, Text.upper_upper]
  rw [Table.addIndex_eq hupper] at h
  split at h
  next => cases h
  next haccepts =>
    cases h
    have hfits : ¬ maxNameBytes < (t.madeUpName i).byteLength :=
      fun hlong => haccepts (Or.inl ⟨hi, hlong⟩)
    refine ⟨Nat.not_lt.mp hfits, t.bound i, ?_, Table.name_bound_of_unnamed t hi⟩
    exact Table.self_mem_placeIndex _ _

/-- A name is stored as the raised value that was given, which kept within the limit. It may be
three times as long as the value, and be over the limit, but only if the value has a character that
grows. A name that a table makes up for an index keeps within the limit as it is stored. -/
theorem names_of_obtained {item : Item} (hitem : Obtained item) :
    (∀ name, item.name? = some name →
      ∃ value : Text, value ≠ [] ∧ value.byteLength ≤ maxNameBytes ∧ name = Text.upper value ∧
        name.byteLength ≤ 3 * value.byteLength ∧
        (maxNameBytes < name.byteLength → ∃ c ∈ value, Text.Grows c)) ∧
    ∀ (t u : Table) (i : Index), item = .table t → i.name = none → t.addIndex i = .ok u →
      (t.madeUpName i).byteLength ≤ maxNameBytes ∧
        ∃ j ∈ u.indexes, j.name = some (t.madeUpName i) := by
  refine ⟨fun name hname => ?_, ?_⟩
  · obtain ⟨value, hne, hlimit, rfl⟩ := hitem.isStored name hname
    refine ⟨value, hne, hlimit, rfl, Text.byteLength_upper_le value, fun hlong => ?_⟩
    by_contra hnone
    have hkept := Text.byteLength_upper_le_of_forall fun c hc hgrows => hnone ⟨c, hc, hgrows⟩
    omega
  · rintro t u i rfl hunnamed hadd
    exact madeUpName_of_obtained hitem hunnamed hadd

/-- The letter has two bytes, but its upper case is an apostrophe of two bytes and an N. -/
def apostrophes (n : Nat) : Text := List.replicate n 'ŉ'

theorem names_of_obtained_apostrophes :
    ∃ t u : Table, Obtained (.table t) ∧ t.name.byteLength = 45 ∧
      (∃ value : Text, value.byteLength ≤ maxNameBytes ∧ t.name = Text.upper value ∧
        ∃ c ∈ value, Text.Grows c) ∧
      Obtained (.table u) ∧ (u.madeUpName {}).byteLength ≤ maxNameBytes ∧
        ∃ v, u.addIndex {} = .ok v ∧ ∃ j ∈ v.indexes, j.name = some (u.madeUpName {}) := by
  have ht := obtained_table (apostrophes 15) (by decide) (by decide +kernel)
  have hu := obtained_table (apostrophes 1) (by decide) (by decide +kernel)
  have hlength : (Text.upper (apostrophes 15)).byteLength = 45 := by decide +kernel
  obtain ⟨value, _, hlimit, hname, _, hgrows⟩ := (names_of_obtained ht).1 _ rfl
  have haccepts : ¬ ({ name := Text.upper (apostrophes 1) } : Table).Refuses {} := by
    decide +kernel
  have hadd := Table.addIndex_of_accepts (Text.upper_upper _) haccepts
  obtain ⟨hfits, j, hj, hmadeUp⟩ := (names_of_obtained hu).2 _ _ _ rfl rfl hadd
  refine ⟨_, _, ht, hlength, ⟨value, hlimit, hname, hgrows ?_⟩, hu, hfits, _, hadd, j, hj, hmadeUp⟩
  rw [hlength]
  decide

/-- The name of fifteen such letters is within the limit, and is stored as one beyond it. -/
theorem name_beyond_limit :
    ∃ t : Table, Obtained (.table t) ∧ (apostrophes 15).byteLength = maxNameBytes ∧
      t.name = Text.upper (apostrophes 15) ∧ maxNameBytes < t.name.byteLength := by
  refine ⟨_, obtained_table (apostrophes 15) ?_ ?_, ?_, rfl, ?_⟩
  all_goals decide +kernel

end SchemaPackage
