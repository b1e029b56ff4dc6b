import SchemaPackage.Proofs.ObtainedColumns

/-!
The form in which values are kept. A setter either refuses its value or brings it into this form, and
what stands in for an empty value has the form already. Setting attributes one after another stops at
the first that is refused, with what the earlier ones have made, and no trace of the refused one.
-/
namespace SchemaPackage

open Outcome

namespace Text

/-- The text is there, and raising its letters changes nothing. -/
structure IsCapital (t : Text) : Prop where
  ne_nil : t ≠ []
  upper_eq : upper t = t

instance (t : Text) : Decidable t.IsCapital :=
  decidable_of_iff (t ≠ [] ∧ upper t = t) ⟨fun ⟨hne, hupper⟩ => ⟨hne, hupper⟩,
    fun h => ⟨h.ne_nil, h.upper_eq⟩⟩

theorem isCapital_upper {t : Text} (h : t ≠ []) : IsCapital (upper t) := by
  refine ⟨fun hnil => ?_, upper_upper t⟩
  obtain ⟨c, rest, rfl⟩ := List.exists_cons_of_ne_nil h
  exact upperChar_ne_nil c (List.flatMap_eq_nil_iff.mp hnil c List.mem_cons_self)

end Text

theorem isCapital_of_normalizeName {entity value name : Text}
    (h : normalizeName entity value = .ok name) : name.IsCapital := by
  obtain ⟨hne, _, rfl⟩ := normalizeName_eq_ok_iff.mp h
  exact Text.isCapital_upper hne

theorem trim_ne_nil_of_requireValue {field value : Text} {u : Unit}
    (h : requireValue field value = .ok u) : Text.trim value ≠ [] := by
  intro hnil
  rw [requireValue, hnil] at h
  cases h

theorem isCapital_upperOr {fallback : Text} (hfallback : fallback.IsCapital) (value : Text) :
    (upperOr fallback value).IsCapital := by
  unfold upperOr
  split
  · exact hfallback
  next hne => exact Text.isCapital_upper fun hnil => hne (List.isEmpty_iff.mpr hnil)

theorem valueOr_ne_nil {fallback : Text} (hfallback : fallback ≠ []) (value : Text) :
    valueOr fallback value ≠ [] := by
  unfold valueOr
  split
  · exact hfallback
  next hne => exact fun hnil => hne (List.isEmpty_iff.mpr hnil)

theorem isCapital_defaultStory : defaultStory.IsCapital := by decide +kernel

theorem defaultRelease_ne_nil : defaultRelease ≠ [] := by decide

theorem defaultProducts_ne_nil : defaultProducts ≠ [] := by decide

/-- The form of what columns, tables and program units have in common. -/
structure Labelled (name story release products : Text) : Prop where
  name : name.IsCapital
  story : story.IsCapital
  release : release ≠ []
  products : products ≠ []

theorem labelled_default {name : Text} (h : name.IsCapital) :
    Labelled name defaultStory defaultRelease defaultProducts :=
  ⟨h, isCapital_defaultStory, defaultRelease_ne_nil, defaultProducts_ne_nil⟩

namespace Column

structure IsNormal (c : Column) : Prop extends Labelled c.name c.story c.release c.products where
  dataType : c.dataType.IsCapital
  trimmed : c.dataType.IsTrimmed
  loaderExpression : ∀ expression ∈ c.loaderExpression,
    ∃ character ∈ expression, Text.isBlank character = false

theorem isCapital_setDataType {value : Text} {c d : Column} (h : c.setDataType value = .ok d) :
    d.dataType.IsCapital := by
  obtain ⟨_, hrequired, rfl⟩ := except_map_eq_ok_iff.mp h
  exact Text.isCapital_upper (trim_ne_nil_of_requireValue hrequired)

theorem exists_not_blank_setLoaderExpression (value : Text) (c : Column) :
    ∀ expression ∈ (c.setLoaderExpression value).loaderExpression,
      ∃ character ∈ expression, Text.isBlank character = false := by
  intro expression hexpression
  dsimp only [setLoaderExpression] at hexpression
  split at hexpression
  · cases hexpression
  next hnot =>
    cases hexpression
    by_contra hnone
    apply hnot
    rw [Text.isEmpty_trim_iff]
    intro character hmem
    by_contra hblank
    exact hnone ⟨character, hmem, Bool.eq_false_iff.mpr hblank⟩

theorem isNormal_set {field : Field} {value : Text} {c d : Column} (h : c.set field value = .ok d)
    (hc : c.IsNormal) : d.IsNormal := by
  cases field with
  | name =>
    obtain ⟨name, hname, rfl⟩ := except_map_eq_ok_iff.mp h
    exact { hc with name := isCapital_of_normalizeName hname }
  | dataType =>
    have hcapital := isCapital_setDataType h
    have htrimmed := isTrimmed_setDataType h
    obtain ⟨_, _, rfl⟩ := except_map_eq_ok_iff.mp h
    exact { hc with dataType := hcapital, trimmed := htrimmed }
  | story => cases h; exact { hc with story := isCapital_upperOr isCapital_defaultStory value }
  | release => cases h; exact { hc with release := valueOr_ne_nil defaultRelease_ne_nil value }
  | products => cases h; exact { hc with products := valueOr_ne_nil defaultProducts_ne_nil value }
  | loaderExpression =>
    cases h
    exact { hc with loaderExpression := exists_not_blank_setLoaderExpression value c }
  | _ => cases h; exact { hc with }

theorem kept_isNormal : Kept IsNormal where
  ofNameAndType {name dataType order c} h := by
    obtain ⟨named, hnamed, htyped⟩ := except_bind_eq_ok_iff.mp h
    obtain ⟨stored, hstored, rfl⟩ := except_map_eq_ok_iff.mp hnamed
    have hcapital := isCapital_setDataType htyped
    have htrimmed := isTrimmed_setDataType htyped
    obtain ⟨_, _, rfl⟩ := except_map_eq_ok_iff.mp htyped
    exact {
      labelled_default (isCapital_of_normalizeName hstored) with
      dataType := hcapital
      trimmed := htrimmed
      loaderExpression := fun _ hnone => nomatch hnone }
  set := isNormal_set
  snapshot order := {
    labelled_default (show Text.IsCapital snapshotName by decide +kernel) with
    release := show ("RO4.0" : Text) ≠ [] by decide
    dataType := show Text.IsCapital "NUMBER" by decide +kernel
    trimmed := kept_isTrimmed.snapshot order
    loaderExpression := fun _ hnone => nomatch hnone }

end Column

namespace Index

structure IsNormal (i : Index) : Prop where
  name : ∀ name ∈ i.name, name.IsCapital
  tableName : ∀ tableName ∈ i.tableName, tableName.IsCapital
  story : i.story.IsCapital
  release : i.release ≠ []

theorem isNormal_set {field : Field} {value : Text} {i j : Index} (h : i.set field value = .ok j)
    (hi : i.IsNormal) : j.IsNormal := by
  cases field with
  | name =>
    obtain ⟨name, hname, rfl⟩ := except_map_eq_ok_iff.mp h
    have hcapital := isCapital_of_normalizeName hname
    exact { hi with name := fun stored hstored => Option.mem_some_iff.mp hstored ▸ hcapital }
  | tableName =>
    obtain ⟨_, hrequired, rfl⟩ := except_map_eq_ok_iff.mp h
    have hne : value ≠ [] := by
      rintro rfl
      exact trim_ne_nil_of_requireValue hrequired rfl
    have hcapital := Text.isCapital_upper hne
    exact { hi with tableName := fun stored hstored => Option.mem_some_iff.mp hstored ▸ hcapital }
  | story => cases h; exact { hi with story := isCapital_upperOr isCapital_defaultStory value }
  | release => cases h; exact { hi with release := valueOr_ne_nil defaultRelease_ne_nil value }
  | _ =>
    obtain ⟨_, _, rfl⟩ := except_map_eq_ok_iff.mp h
    exact ⟨hi.name, hi.tableName, hi.story, hi.release⟩

theorem kept_isNormal : Kept IsNormal where
  empty := {
    name := fun _ hnone => nomatch hnone
    tableName := fun _ hnone => nomatch hnone
    story := isCapital_defaultStory
    release := defaultRelease_ne_nil }
  set := isNormal_set
  track _ _ hi := ⟨hi.name, hi.tableName, hi.story, hi.release⟩

end Index

namespace Table

/-- The form of what is the table's own. What it holds is an item itself. -/
def IsNormal (t : Table) : Prop := Labelled t.name t.story t.release t.products

theorem isNormal_set {field : Field} {value : Text} {t u : Table} (h : t.set field value = .ok u)
    (ht : t.IsNormal) : u.IsNormal := by
  cases field with
  | name =>
    obtain ⟨name, hname, rfl⟩ := except_map_eq_ok_iff.mp h
    exact { ht with name := isCapital_of_normalizeName hname }
  | transactions =>
    obtain ⟨_, _, rfl⟩ := except_map_eq_ok_iff.mp h
    exact ht
  | story => cases h; exact { ht with story := isCapital_upperOr isCapital_defaultStory value }
  | release => cases h; exact { ht with release := valueOr_ne_nil defaultRelease_ne_nil value }
  | products => cases h; exact { ht with products := valueOr_ne_nil defaultProducts_ne_nil value }
  | _ => cases h; exact ht

theorem kept_isNormal : Kept IsNormal where
  new hname _ := labelled_default (isCapital_of_normalizeName hname)
  set := isNormal_set
  addColumn _ _ ht := ht
  setIndexes _ _ ht := ht

end Table

namespace ProgramUnit

def IsNormal (u : ProgramUnit) : Prop := Labelled u.name u.story u.release u.products

theorem isNormal_set {field : Field} {value : Text} {u v : ProgramUnit}
    (h : u.set field value = .ok v) (hu : u.IsNormal) : v.IsNormal := by
  cases field with
  | name =>
    obtain ⟨name, hname, rfl⟩ := except_map_eq_ok_iff.mp h
    exact { hu with name := isCapital_of_normalizeName hname }
  | installOrder =>
    obtain ⟨_, _, rfl⟩ := except_map_eq_ok_iff.mp h
    exact hu
  | story => cases h; exact { hu with story := isCapital_upperOr isCapital_defaultStory value }
  | release => cases h; exact { hu with release := valueOr_ne_nil defaultRelease_ne_nil value }
  | products => cases h; exact { hu with products := valueOr_ne_nil defaultProducts_ne_nil value }
  | documentation => cases h; exact hu

theorem kept_isNormal : Kept IsNormal where
  ofKindAndName h := by
    obtain ⟨kind, _, h⟩ := except_bind_eq_ok_iff.mp h
    obtain ⟨name, hname, h⟩ := except_bind_eq_ok_iff.mp h
    cases h
    exact labelled_default (isCapital_of_normalizeName hname)
  set := isNormal_set

end ProgramUnit

/-- Attributes are refused where one of them is, in the state that those before it have led to. -/
theorem exists_refused_of_assignAll {α : Type} {assign : Text → Text → α → Except Fault α}
    {attributes : Attributes} {a b : α} {fault : Fault}
    (h : assignAll assign attributes a = (b, some fault)) :
    ∃ before key value after, attributes = before ++ (key, value) :: after ∧
      assignAll assign before a = (b, none) ∧ assign key value b = .error fault := by
  induction attributes generalizing a with
  | nil => cases h
  | cons pair rest ih =>
    obtain ⟨key, value⟩ := pair
    rw [assignAll] at h
    cases hassign : assign key value a with
    | error refusal =>
      rw [hassign] at h
      cases h
      exact ⟨[], key, value, rest, rfl, rfl, hassign⟩
    | ok next =>
      rw [hassign] at h
      obtain ⟨before, refusedKey, refused, after, rfl, hbefore, hrefused⟩ := ih h
      refine ⟨(key, value) :: before, refusedKey, refused, after, rfl, ?_, hrefused⟩
      rw [assignAll, hassign]
      exact hbefore

namespace Item

def IsNormal : Item → Prop
  | column c => c.IsNormal
  | index i => i.IsNormal
  | table t => t.IsNormal
  | unit u => u.IsNormal

theorem kept_isNormal : Kept IsNormal :=
  ⟨Column.kept_isNormal, Index.kept_isNormal, Table.kept_isNormal, ProgramUnit.kept_isNormal⟩

def assign (key value : Text) : Item → Except Fault Item
  | column c => (Column.assign key value c).map column
  | index i => (Index.assign key value i).map index
  | table t => (Table.assign key value t).map table
  | unit u => (ProgramUnit.assign key value u).map unit

def assignAll (attributes : Attributes) : Item → Item × Option Fault
  | column c => (SchemaPackage.assignAll Column.assign attributes c).map column id
  | index i => (SchemaPackage.assignAll Index.assign attributes i).map index id
  | table t => (SchemaPackage.assignAll Table.assign attributes t).map table id
  | unit u => (SchemaPackage.assignAll ProgramUnit.assign attributes u).map unit id

/-- A refused attribute has changed nothing: the item is what those before it have made. -/
def IsLeftBy (attributes : Attributes) (item next : Item) (fault : Fault) : Prop :=
  ∃ before key value after, attributes = before ++ (key, value) :: after ∧
    item.assignAll before = (next, none) ∧ next.assign key value = .error fault

theorem isLeftBy_of_kind {α : Type} {assignKind : Text → Text → α → Except Fault α}
    {kind : α → Item}
    (hassign : ∀ key value a, (kind a).assign key value = (assignKind key value a).map kind)
    (hassignAll : ∀ attributes a,
      (kind a).assignAll attributes = (SchemaPackage.assignAll assignKind attributes a).map kind id)
    {attributes : Attributes} {a : α} {next : Item} {fault : Fault}
    (h : (kind a).assignAll attributes = (next, some fault)) :
    IsLeftBy attributes (kind a) next fault := by
  rw [hassignAll] at h
  obtain ⟨hnext, hfault⟩ := Prod.mk.inj h
  obtain ⟨before, key, value, after, hsplit, hbefore, hrefused⟩ :=
    exists_refused_of_assignAll (Prod.ext rfl hfault)
  refine ⟨before, key, value, after, hsplit, ?_, ?_⟩
  · rw [hassignAll, hbefore, ← hnext]
    rfl
  · rw [← hnext, hassign, hrefused]
    rfl

theorem isLeftBy_of_assignAll {item next : Item} {attributes : Attributes} {fault : Fault}
    (h : item.assignAll attributes = (next, some fault)) :
    IsLeftBy attributes item next fault := by
  cases item with
  | column c => exact isLeftBy_of_kind (fun _ _ _ => rfl) (fun _ _ => rfl) h
  | index i => exact isLeftBy_of_kind (fun _ _ _ => rfl) (fun _ _ => rfl) h
  | table t => exact isLeftBy_of_kind (fun _ _ _ => rfl) (fun _ _ => rfl) h
  | unit u => exact isLeftBy_of_kind (fun _ _ _ => rfl) (fun _ _ => rfl) h

end Item

theorem Obtained.assignAll {item : Item} (h : Obtained item) (attributes : Attributes) :
    Obtained (item.assignAll attributes).1 := by
  cases item with
  | column c => exact h.assignColumn attributes
  | index i => exact h.assignIndex attributes
  | table t => exact h.assignTable attributes
  | unit u => exact h.assignUnit attributes

/-- Whatever can be obtained is in normal form. That goes for what refused attributes leave as well,
which is what it was before the one that is refused. -/
theorem isNormal_of_obtained {item : Item} (hitem : Obtained item) :
    item.IsNormal ∧
      ∀ attributes next fault, item.assignAll attributes = (next, some fault) →
        next.IsNormal ∧ Item.IsLeftBy attributes item next fault := by
  refine ⟨hitem.kept Item.kept_isNormal, fun attributes next fault hleft => ?_⟩
  have hnext := hitem.assignAll attributes
  rw [hleft] at hnext
  exact ⟨hnext.kept Item.kept_isNormal, Item.isLeftBy_of_assignAll hleft⟩

/-- A column with a letter that grows, and a type with white space around it. -/
def paddedColumn : Except Fault Column := Column.ofNameAndType "größe" " varchar2(5)\n" 0

/-- The second attribute is refused. -/
def halfRefused : Attributes := [("story", "straße"), ("name", ""), ("release", "5")]

theorem isNormal_of_obtained_padded :
    ∃ c d : Column, paddedColumn = .ok c ∧ c.name = "GRÖSSE" ∧ c.dataType = "VARCHAR2(5)" ∧
      Obtained (.column c) ∧ (Item.column c).IsNormal ∧
      (Item.column c).assignAll halfRefused = (.column d, some (.emptyName "Column")) ∧
      d = { c with story := "STRASSE" } ∧ (Item.column d).IsNormal ∧
      Item.IsLeftBy halfRefused (.column c) (.column d) (.emptyName "Column") := by
  have hmade : paddedColumn = .ok (Column.bare "GRÖSSE" "VARCHAR2(5)" 0) := by decide +kernel
  have hobtained := obtained_column hmade
  have hleft : (Item.column (Column.bare "GRÖSSE" "VARCHAR2(5)" 0)).assignAll halfRefused =
      (.column { Column.bare "GRÖSSE" "VARCHAR2(5)" 0 with story := "STRASSE" },
        some (.emptyName "Column")) := by
    rfl
  obtain ⟨hnormal, hrefused⟩ := isNormal_of_obtained hobtained
  obtain ⟨hnext, hchanged⟩ := hrefused _ _ _ hleft
  exact ⟨_, _, hmade, rfl, rfl, hobtained, hnormal, hleft, rfl, hnext, hchanged⟩

end SchemaPackage
