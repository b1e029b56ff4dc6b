import Mathlib.Data.List.Dedup
import SchemaPackage.Description
import SchemaPackage.Proofs.Outcome

/-!
The order of columns in a described table. Columns take their orders as their elements come, so
each new column goes behind all others, and one that takes the place of an earlier column of its
name moves to the end with it. What is left are the last columns of each name, in the order of the
document.
-/
namespace SchemaPackage

open Outcome

/-- Of columns that share a name only the last. -/
def latest : List Column → List Column
  | [] => []
  | c :: rest => if c.name ∈ rest.map Column.name then latest rest else c :: latest rest

theorem map_latest (l : List Column) : (latest l).map Column.name = (l.map Column.name).dedup := by
  induction l with
  | nil => rfl
  | cons c rest ih =>
    by_cases h : c.name ∈ rest.map Column.name
    · rw [List.map_cons, List.dedup_cons_of_mem h, latest, if_pos h, ih]
    · rw [List.map_cons, List.dedup_cons_of_notMem h, latest, if_neg h, List.map_cons, ih]

/-- One more column at the end drives out those of its name. -/
theorem latest_append_singleton (l : List Column) (c : Column) :
    latest (l ++ [c]) = (latest l).filter (fun d => !c.sameName d) ++ [c] := by
  induction l with
  | nil => rfl
  | cons a rest ih =>
    have hmem : a.name ∈ (rest ++ [c]).map Column.name ↔
        a.name ∈ rest.map Column.name ∨ a.name = c.name := by
      rw [List.map_append, List.mem_append, List.map_singleton, List.mem_singleton]
    have hsame : (!c.sameName a) = true ↔ a.name ≠ c.name := by
      simp only [Column.sameName, Bool.not_eq_true', beq_eq_false_iff_ne, ne_comm]
    by_cases hrest : a.name ∈ rest.map Column.name
    · rw [List.cons_append, latest, if_pos (hmem.mpr (Or.inl hrest)), latest, if_pos hrest, ih]
    · rw [List.cons_append, latest, latest, if_neg hrest, List.filter_cons]
      by_cases hname : a.name = c.name
      · rw [if_pos (hmem.mpr (Or.inr hname)), if_neg (mt hsame.mp (not_not_intro hname)), ih]
      · rw [if_neg (mt hmem.mp (not_or.mpr ⟨hrest, hname⟩)), if_pos (hsame.mpr hname), ih,
          List.cons_append]

theorem mem_latest_iff {l : List Column} {c : Column} :
    c ∈ latest l ↔ ∃ before after, l = before ++ c :: after ∧ c.name ∉ after.map Column.name := by
  induction l with
  | nil => simp [latest]
  | cons a rest ih =>
    constructor
    · intro h
      by_cases hrest : a.name ∈ rest.map Column.name
      · rw [latest, if_pos hrest] at h
        obtain ⟨before, after, rfl, hafter⟩ := ih.mp h
        exact ⟨a :: before, after, rfl, hafter⟩
      · rw [latest, if_neg hrest] at h
        rcases List.mem_cons.mp h with rfl | h
        · exact ⟨[], rest, rfl, hrest⟩
        · obtain ⟨before, after, rfl, hafter⟩ := ih.mp h
          exact ⟨a :: before, after, rfl, hafter⟩
    · rintro ⟨_ | ⟨b, before⟩, after, hl, hafter⟩
      · obtain ⟨rfl, rfl⟩ := List.cons.inj hl
        rw [latest, if_neg hafter]
        exact List.mem_cons_self
      · obtain ⟨rfl, rfl⟩ := List.cons.inj hl
        have hc : c ∈ latest (before ++ c :: after) := ih.mpr ⟨before, after, rfl, hafter⟩
        rw [latest]
        split
        · exact hc
        · exact List.mem_cons_of_mem _ hc

namespace ColumnSet

/-- A column that is younger than all others goes to the end. -/
theorem place_of_forall_le {c : Column} {l : List Column} (h : ∀ d ∈ l, d.order ≤ c.order) :
    place c l = l ++ [c] := by
  induction l with
  | nil => rfl
  | cons d rest ih =>
    have hd : ¬ c.order < d.order := Nat.not_lt.mpr (h d List.mem_cons_self)
    rw [place, if_neg hd, ih fun d hd => h d (List.mem_cons_of_mem _ hd), List.cons_append]

/-- Columns that come in the order of their creation: the set holds the last one of each name. -/
theorem insert_latest {s : ColumnSet} {l : List Column} {c : Column} (hs : s.toList = latest l)
    (h : ∀ d ∈ s.toList, d.order ≤ c.order) : (s.insert c).toList = latest (l ++ [c]) := by
  have hplace := place_of_forall_le (l := s.toList.filter fun d => !c.sameName d)
    fun d hd => h d (List.mem_filter.mp hd).1
  rw [insert, hplace, hs, latest_append_singleton]

end ColumnSet

/-- What an attribute sets, if it sets anything. -/
theorem setByKey_eq_ok {α φ : Type} {keys : List (Text × φ)} {set : φ → Text → α → Except Fault α}
    {key value : Text} {a b : α} (h : setByKey keys set key value a = .ok b) :
    (∃ field, set field value a = .ok b) ∨ b = a := by
  unfold setByKey at h
  split at h
  · exact Or.inl ⟨_, h⟩
  · exact Or.inr (Except.ok.inj h).symm

/-- What holds of an object and is kept by each single assignment holds of what the assignments
reach, even where one of them is refused. -/
theorem assignAll_induction {α : Type} {assign : Text → Text → α → Except Fault α} {P : α → Prop}
    (hstep : ∀ key value a b, assign key value a = .ok b → P a → P b) (attributes : Attributes)
    {a : α} (ha : P a) : P (assignAll assign attributes a).1 := by
  induction attributes generalizing a with
  | nil => exact ha
  | cons pair rest ih =>
    rw [assignAll]
    cases hassign : assign pair.1 pair.2 a with
    | error fault => exact ha
    | ok next => exact ih (hstep _ _ _ _ hassign ha)

theorem whole_eq_ok {α : Type} {x : α × Option Fault} {a : α} (h : whole x = .ok a) : x.1 = a := by
  obtain ⟨b, _ | fault⟩ := x
  · cases h
    rfl
  · cases h

theorem whole_assignAll_induction {α : Type} {assign : Text → Text → α → Except Fault α}
    {P : α → Prop} (hstep : ∀ key value a b, assign key value a = .ok b → P a → P b)
    {attributes : Attributes} {a b : α} (h : whole (assignAll assign attributes a) = .ok b)
    (ha : P a) : P b := by
  rw [← whole_eq_ok h]
  exact assignAll_induction hstep attributes ha

namespace Column

theorem order_of_setName {c d : Column} {value : Text} (h : c.setName value = .ok d) :
    d.order = c.order := by
  obtain ⟨name, _, rfl⟩ := except_map_eq_ok_iff.mp h
  rfl

theorem order_of_setDataType {c d : Column} {value : Text} (h : c.setDataType value = .ok d) :
    d.order = c.order := by
  obtain ⟨_, _, rfl⟩ := except_map_eq_ok_iff.mp h
  rfl

theorem order_of_assign {c d : Column} {key value : Text} (h : assign key value c = .ok d) :
    d.order = c.order := by
  rcases setByKey_eq_ok h with ⟨field, hset⟩ | rfl
  · cases field with
    | name => exact order_of_setName hset
    | dataType => exact order_of_setDataType hset
    | _ => cases hset; rfl
  · rfl

theorem order_of_ofNameAndType {name dataType : Text} {order : Nat} {c : Column}
    (h : ofNameAndType name dataType order = .ok c) : c.order = order := by
  obtain ⟨named, hnamed, htyped⟩ := except_bind_eq_ok_iff.mp h
  exact (order_of_setDataType htyped).trans (order_of_setName hnamed)

/-- No attribute touches the order that a column was created with. -/
theorem order_of_ofAttributes {attributes : Attributes} {order : Nat} {c : Column}
    (h : ofAttributes attributes order = .ok c) : c.order = order := by
  obtain ⟨typed, htyped, h⟩ := except_bind_eq_ok_iff.mp h
  exact whole_assignAll_induction (P := fun c => c.order = order)
    (fun _ _ _ _ hassign ha => (order_of_assign hassign).trans ha) h
    (order_of_ofNameAndType htyped)

end Column

namespace Context

/-- The contexts that columns are created in: a new one, and what each creation leaves behind,
whether it has succeeded or not. -/
inductive Reachable : Context → Prop
  | new : Reachable {}
  | create {ctx : Context} (name dataType : Text) (h : Reachable ctx) :
    Reachable (Column.create name dataType ctx).2
  | createFrom {ctx : Context} (attributes : Attributes) (h : Reachable ctx) :
    Reachable (Column.createFrom attributes ctx).2
  | trackedColumn {ctx : Context} (h : Reachable ctx) : Reachable (trackedColumn ctx).2

/-- The shared snapshot column differs from context to context by its order alone. -/
theorem Reachable.snapshotColumn {ctx : Context} (h : ctx.Reachable) :
    ctx.snapshotColumn = none ∨ ∃ k, ctx.snapshotColumn = some (Column.snapshot k) := by
  induction h with
  | new => exact Or.inl rfl
  | create name dataType _ ih => exact ih
  | createFrom attributes _ ih => exact ih
  | @trackedColumn ctx _ ih =>
    rcases ih with hnone | ⟨k, hk⟩
    · refine Or.inr ⟨ctx.nextOrder, ?_⟩
      simp only [SchemaPackage.trackedColumn, snapshot, hnone]
    · refine Or.inr ⟨k, ?_⟩
      simp only [SchemaPackage.trackedColumn, snapshot, hk]

theorem Reachable.snapshot {ctx : Context} (h : ctx.Reachable) :
    ∃ k, ctx.snapshot.1 = Column.snapshot k := by
  rcases h.snapshotColumn with hnone | ⟨k, hk⟩
  · exact ⟨ctx.nextOrder, by simp only [Context.snapshot, hnone]⟩
  · exact ⟨k, by simp only [Context.snapshot, hk]⟩

end Context

namespace Table

/-- The tables contain the same columns and indexes, and differ at most in their attributes. -/
structure SameContents (t u : Table) : Prop where
  columns : u.columns = t.columns
  indexes : u.indexes = t.indexes
  snapshotColumn : u.snapshotColumn = t.snapshotColumn

theorem SameContents.refl (t : Table) : SameContents t t := ⟨rfl, rfl, rfl⟩

theorem SameContents.trans {t u v : Table} (h : SameContents t u) (h' : SameContents u v) :
    SameContents t v :=
  ⟨h'.columns.trans h.columns, h'.indexes.trans h.indexes,
    h'.snapshotColumn.trans h.snapshotColumn⟩

theorem sameContents_of_set {t u : Table} {field : Field} {value : Text}
    (h : t.set field value = .ok u) : SameContents t u := by
  cases field with
  | name =>
    obtain ⟨name, _, rfl⟩ := except_map_eq_ok_iff.mp h
    exact ⟨rfl, rfl, rfl⟩
  | transactions =>
    obtain ⟨transactions, _, rfl⟩ := except_map_eq_ok_iff.mp h
    exact ⟨rfl, rfl, rfl⟩
  | _ => cases h; exact ⟨rfl, rfl, rfl⟩

theorem sameContents_of_assign {t u : Table} {key value : Text}
    (h : assign key value t = .ok u) : SameContents t u := by
  rcases setByKey_eq_ok h with ⟨field, hset⟩ | rfl
  · exact sameContents_of_set hset
  · exact SameContents.refl u

theorem sameContents_assignAll (t : Table) (attributes : Attributes) :
    SameContents t (assignAll assign attributes t).1 :=
  assignAll_induction (P := SameContents t)
    (fun _ _ _ _ hassign hsame => hsame.trans (sameContents_of_assign hassign)) attributes
    (SameContents.refl t)

theorem create_eq_ok {name : Text} {tracked : Bool} {t : Table} {ctx ctx' : Context}
    (h : create name tracked ctx = (.ok t, ctx')) :
    ∃ proper, normalizeName "Table" name = .ok proper ∧
      t = { name := proper
            snapshotColumn := if tracked then some ctx.snapshot.1 else none } ∧
      ctx' = if tracked then (trackedColumn ctx).2 else ctx := by
  obtain ⟨proper, ctx₁, hname, hrest⟩ := bind_eq_ok_iff.mp h
  obtain ⟨hproper, rfl⟩ := lift_eq_ok_iff.mp hname
  refine ⟨proper, hproper, ?_⟩
  cases tracked with
  | false => cases hrest; exact ⟨rfl, rfl⟩
  | true => cases hrest; exact ⟨rfl, rfl⟩

theorem createFrom_eq_ok {attributes : Attributes} {tracked : Bool} {t : Table}
    {ctx ctx' : Context} (h : createFrom attributes tracked ctx = (.ok t, ctx')) :
    ∃ name created, create name tracked ctx = (.ok created, ctx') ∧
      whole (assignAll assign attributes created) = .ok t := by
  cases hfirst : firstValue? "name" attributes with
  | none =>
    rw [createFrom, hfirst] at h
    exact absurd h throw_ne_ok
  | some name =>
    rw [createFrom, hfirst] at h
    obtain ⟨created, ctx₁, hcreate, hassigned⟩ := bind_eq_ok_iff.mp h
    obtain ⟨hwhole, rfl⟩ := lift_eq_ok_iff.mp hassigned
    exact ⟨name, created, hcreate, hwhole⟩

/-- A new table has no columns yet but that of the snapshots, which may be new in the context. -/
theorem columns_of_createFrom {attributes : Attributes} {tracked : Bool} {t : Table}
    {ctx ctx' : Context} (h : createFrom attributes tracked ctx = (.ok t, ctx')) :
    t.columns = {} ∧ t.snapshotColumn = (if tracked then some ctx.snapshot.1 else none) ∧
      ctx' = if tracked then (trackedColumn ctx).2 else ctx := by
  obtain ⟨name, created, hcreate, hwhole⟩ := createFrom_eq_ok h
  obtain ⟨proper, _, hcreated, hctx⟩ := create_eq_ok hcreate
  have hsame := sameContents_assignAll created attributes
  rw [whole_eq_ok hwhole, hcreated] at hsame
  exact ⟨hsame.columns, hsame.snapshotColumn, hctx⟩

/-- An index is named, if need be, and bound to the table before it is put among the others. -/
theorem addIndex_eq_bind (t : Table) (i : Index) :
    t.addIndex i = t.namedIndex i >>= fun named => named.setTableName t.name >>= fun bound =>
      .ok { t with indexes := placeIndex { bound with tracked := t.isTracked } t.indexes } := rfl

theorem addIndex_eq_ok {t u : Table} {i : Index} (h : t.addIndex i = .ok u) :
    ∃ named bound, t.namedIndex i = .ok named ∧ named.setTableName t.name = .ok bound ∧
      u = { t with indexes := placeIndex { bound with tracked := t.isTracked } t.indexes } := by
  rw [addIndex_eq_bind] at h
  obtain ⟨named, hnamed, hbind⟩ := except_bind_eq_ok_iff.mp h
  obtain ⟨bound, hbound, hplace⟩ := except_bind_eq_ok_iff.mp hbind
  exact ⟨named, bound, hnamed, hbound, (Except.ok.inj hplace).symm⟩

end Table

namespace Description

open Markup

/-- An element describes a column, which has its order besides. -/
def Describes (e : Element) (c : Column) : Prop :=
  ∃ order, Column.ofAttributes (columnAttributes e) order = .ok c

/-- The columns go in as their elements come, so that the set always holds the last columns of
each name. Every column in it is older than the context's next order. -/
theorem addColumns_eq_ok {elements : List Element} {t u : Table} {l : List Column}
    {ctx ctx' : Context} (ht : t.columns.toList = latest l)
    (hold : ∀ d ∈ t.columns.toList, d.order < ctx.nextOrder)
    (h : addColumns t elements ctx = (.ok u, ctx')) :
    ∃ declared, List.Forall₂ Describes elements declared ∧
      u = { t with columns := ⟨latest (l ++ declared)⟩ } := by
  induction elements generalizing t l ctx with
  | nil =>
    cases h
    refine ⟨[], List.Forall₂.nil, ?_⟩
    rw [List.append_nil, ← ht]
  | cons e rest ih =>
    obtain ⟨c, next, hcreate, hrest⟩ := bind_eq_ok_iff.mp h
    obtain ⟨hc, rfl⟩ := Prod.mk.inj hcreate
    have horder : c.order = ctx.nextOrder := Column.order_of_ofAttributes hc
    have hinsert : (t.addColumn c).columns.toList = latest (l ++ [c]) := by
      refine ColumnSet.insert_latest ht fun d hd => ?_
      have hlt := hold d hd
      omega
    have hyounger : ∀ d ∈ (t.addColumn c).columns.toList, d.order < ctx.nextOrder + 1 := by
      intro d hd
      rw [hinsert, latest_append_singleton, List.mem_append, List.mem_singleton] at hd
      rcases hd with hd | rfl
      · rw [← ht] at hd
        have hlt := hold d (List.mem_filter.mp hd).1
        omega
      · omega
    obtain ⟨declared, hdeclared, rfl⟩ := ih hinsert hyounger hrest
    refine ⟨c :: declared, List.Forall₂.cons ⟨ctx.nextOrder, hc⟩ hdeclared, ?_⟩
    rw [List.append_assoc, List.singleton_append]
    rfl

/-- An element without columns is passed over, and any other gives the table an index. -/
theorem addIndexElement_eq_ok {t u : Table} {e : Element} (h : addIndexElement t e = .ok u) :
    indexColumns e = [] ∧ u = t ∨ indexColumns e ≠ [] ∧ ∃ described declared,
      Index.ofAttributes e.attributeValues = .ok described ∧
      described.setColumns (indexColumns e) = .ok declared ∧ t.addIndex declared = .ok u := by
  dsimp only [addIndexElement] at h
  split at h
  next hnone => exact Or.inl ⟨List.isEmpty_iff.mp hnone, (Except.ok.inj h).symm⟩
  next hsome =>
    obtain ⟨described, hdescribed, hrest⟩ := except_bind_eq_ok_iff.mp h
    obtain ⟨declared, hdeclared, hadd⟩ := except_bind_eq_ok_iff.mp hrest
    exact Or.inr ⟨mt List.isEmpty_iff.mpr hsome, described, declared, hdescribed, hdeclared, hadd⟩

/-- The indexes go in as their elements come. -/
theorem addIndexes_cons (t : Table) (e : Element) (rest : List Element) :
    addIndexes t (e :: rest) = addIndexElement t e >>= fun t => addIndexes t rest := by
  rw [addIndexes]
  cases addIndexElement t e <;> rfl

theorem addIndexes_cons_eq_ok {t u : Table} {e : Element} {rest : List Element}
    (h : addIndexes t (e :: rest) = .ok u) :
    ∃ next, addIndexElement t e = .ok next ∧ addIndexes next rest = .ok u := by
  rw [addIndexes_cons] at h
  exact except_bind_eq_ok_iff.mp h

theorem addIndexes_eq_ok {t u : Table} {elements : List Element}
    (h : addIndexes t elements = .ok u) : ∃ indexes, u = { t with indexes } := by
  induction elements generalizing t with
  | nil =>
    cases h
    exact ⟨_, rfl⟩
  | cons e rest ih =>
    obtain ⟨next, he, hrest⟩ := addIndexes_cons_eq_ok h
    obtain ⟨indexes, rfl⟩ := ih hrest
    rcases addIndexElement_eq_ok he with ⟨_, rfl⟩ | ⟨_, _, _, _, _, hadd⟩
    · exact ⟨indexes, rfl⟩
    · obtain ⟨_, _, _, _, rfl⟩ := Table.addIndex_eq_ok hadd
      exact ⟨indexes, rfl⟩

theorem columns_withDocumentation (t : Table) (e : Element) :
    (withDocumentation t e).columns = t.columns ∧
      (withDocumentation t e).snapshotColumn = t.snapshotColumn := by
  unfold withDocumentation
  split <;> exact ⟨rfl, rfl⟩

/-- The steps of describing a table: it is created, then filled with columns and with indexes. -/
theorem tableOf_eq_ok {tracked : Bool} {e : Element} {t : Table} {ctx ctx' : Context}
    (h : tableOf tracked e ctx = (.ok t, ctx')) :
    ∃ created ctx₁ filled, Table.createFrom e.attributeValues tracked ctx = (.ok created, ctx₁) ∧
      addColumns (withDocumentation created e) (members "columns" "column" e) ctx₁ =
        (.ok filled, ctx') ∧
      addIndexes filled (members "indexes" "index" e) = .ok t := by
  obtain ⟨created, ctx₁, hcreate, hrest⟩ := bind_eq_ok_iff.mp h
  obtain ⟨filled, ctx₂, hfill, hlast⟩ := bind_eq_ok_iff.mp hrest
  obtain ⟨hindexes, rfl⟩ := lift_eq_ok_iff.mp hlast
  exact ⟨created, ctx₁, filled, hcreate, hfill, hindexes⟩

/-- An element that describes no table describes none, without any effect. -/
theorem tableOf?_eq_ok {tracked : Bool} {e : Element} {t? : Option Table} {ctx ctx' : Context}
    (h : tableOf? tracked e ctx = (.ok t?, ctx')) :
    (∃ t, t? = some t ∧ tableOf tracked e ctx = (.ok t, ctx')) ∨ t? = none ∧ ctx' = ctx := by
  unfold tableOf? at h
  split at h
  · obtain ⟨t, ht, htable⟩ := map_eq_ok_iff.mp h
    exact Or.inl ⟨t, htable.symm, ht⟩
  · obtain ⟨hnone, hctx⟩ := pure_eq_ok_iff.mp h
    exact Or.inr ⟨hnone.symm, hctx.symm⟩

/-- A table has its snapshot column from the context and its other columns from the column
elements, of which the last of each name counts. -/
theorem columns_of_tableOf {tracked : Bool} {e : Element} {t : Table} {ctx ctx' : Context}
    (h : tableOf tracked e ctx = (.ok t, ctx')) :
    t.snapshotColumn = (if tracked then some ctx.snapshot.1 else none) ∧
      ∃ declared, List.Forall₂ Describes (members "columns" "column" e) declared ∧
        t.columns.toList = latest declared := by
  obtain ⟨created, ctx₁, filled, hcreate, hfill, hindexes⟩ := tableOf_eq_ok h
  obtain ⟨hcolumns, hsnapshot, _⟩ := Table.columns_of_createFrom hcreate
  obtain ⟨hcolumns', hsnapshot'⟩ := columns_withDocumentation created e
  have hempty : (withDocumentation created e).columns.toList = latest [] := by
    rw [hcolumns', hcolumns]
    rfl
  have hold : ∀ d ∈ (withDocumentation created e).columns.toList, d.order < ctx₁.nextOrder := by
    intro d hd
    rw [hempty] at hd
    exact absurd hd List.not_mem_nil
  obtain ⟨declared, hdeclared, rfl⟩ := addColumns_eq_ok hempty hold hfill
  obtain ⟨indexes, rfl⟩ := addIndexes_eq_ok hindexes
  exact ⟨hsnapshot'.trans hsnapshot, declared, hdeclared, rfl⟩

theorem reachable_of_addColumns {elements : List Element} {t u : Table} {ctx ctx' : Context}
    (hctx : ctx.Reachable) (h : addColumns t elements ctx = (.ok u, ctx')) : ctx'.Reachable := by
  induction elements generalizing t ctx with
  | nil =>
    cases h
    exact hctx
  | cons e rest ih =>
    obtain ⟨c, next, hcreate, hrest⟩ := bind_eq_ok_iff.mp h
    have hnext : next = (Column.createFrom (columnAttributes e) ctx).2 := by rw [hcreate]
    rw [hnext] at hrest
    exact ih (hctx.createFrom (columnAttributes e)) hrest

theorem reachable_of_tableOf {tracked : Bool} {e : Element} {t : Table} {ctx ctx' : Context}
    (hctx : ctx.Reachable) (h : tableOf tracked e ctx = (.ok t, ctx')) : ctx'.Reachable := by
  obtain ⟨created, ctx₁, filled, hcreate, hfill, _⟩ := tableOf_eq_ok h
  obtain ⟨_, _, rfl⟩ := Table.columns_of_createFrom hcreate
  refine reachable_of_addColumns ?_ hfill
  split
  · exact hctx.trackedColumn
  · exact hctx

/-- Only a document describes a table or none. -/
theorem parseTable_eq_tableOf? {path : Path} {text : Text} {tracked : Bool} {t? : Option Table}
    {ctx ctx' : Context} (h : parseTable path text tracked ctx = (.ok t?, ctx')) :
    ∃ root, document? text = some root ∧ tableOf? tracked root ctx = (.ok t?, ctx') := by
  cases hroot : document? text with
  | none =>
    rw [parseTable, hroot] at h
    exact absurd h throw_ne_ok
  | some root =>
    rw [parseTable, hroot] at h
    exact ⟨root, rfl, h⟩

/-- Describing a table leads from one reachable context to another. -/
theorem reachable_of_parseTable {path : Path} {text : Text} {tracked : Bool} {t? : Option Table}
    {ctx ctx' : Context} (hctx : ctx.Reachable)
    (h : parseTable path text tracked ctx = (.ok t?, ctx')) : ctx'.Reachable := by
  obtain ⟨root, _, h⟩ := parseTable_eq_tableOf? h
  rcases tableOf?_eq_ok h with ⟨t, _, htable⟩ | ⟨_, rfl⟩
  · exact reachable_of_tableOf hctx htable
  · exact hctx

/-- The columns of a described table, in the order of its statement: the snapshot column if the
snapshots are tracked and the table is no dictionary, then one column for each declared name
other than that of the snapshot column. Each is the last declared under its name, and they come
in the order of the document. -/
theorem sortedColumns_of_tableOf? {tracked : Bool} {e : Element} {t : Table} {ctx ctx' : Context}
    (hctx : ctx.Reachable) (h : tableOf? tracked e ctx = (.ok (some t), ctx')) :
    ∃ k declared, List.Forall₂ Describes (members "columns" "column" e) declared ∧
      t.sortedColumns =
        (if tracked && !isDictionaryObject t.name then [Column.snapshot k] else []) ++
          (latest declared).filter (·.name != snapshotName) ∧
      t.sortedColumns.map Column.name =
        (if tracked && !isDictionaryObject t.name then [snapshotName] else []) ++
          (declared.map Column.name).dedup.filter (· != snapshotName) ∧
      ∀ c, c.name ≠ snapshotName → (c ∈ t.sortedColumns ↔
        ∃ before after, declared = before ++ c :: after ∧ c.name ∉ after.map Column.name) := by
  have hsome : tableOf tracked e ctx = (.ok t, ctx') := by
    rcases tableOf?_eq_ok h with ⟨u, hu, htable⟩ | ⟨hnone, _⟩
    · cases hu
      exact htable
    · cases hnone
  obtain ⟨hsnapshot, declared, hdeclared, hcolumns⟩ := columns_of_tableOf hsome
  obtain ⟨k, hk⟩ := hctx.snapshot
  have hleading : t.leadingColumn =
      if tracked && !isDictionaryObject t.name then [Column.snapshot k] else [] := by
    rw [Table.leadingColumn, hsnapshot, hk]
    cases tracked <;> cases isDictionaryObject t.name <;> rfl
  have hsorted : t.sortedColumns =
      (if tracked && !isDictionaryObject t.name then [Column.snapshot k] else []) ++
        (latest declared).filter (·.name != snapshotName) := by
    rw [Table.sortedColumns, hleading, hcolumns]
  refine ⟨k, declared, hdeclared, hsorted, ?_, ?_⟩
  · rw [hsorted, List.map_append, ← map_latest, List.filter_map]
    congr 1
    split <;> rfl
  · intro c hc
    have hleads : c ∉ t.leadingColumn := by
      rw [hleading]
      split
      · intro h
        rw [List.mem_singleton.mp h] at hc
        exact hc rfl
      · exact List.not_mem_nil
    rw [hsorted, ← hleading, List.mem_append, List.mem_filter, bne_iff_ne, ← mem_latest_iff]
    constructor
    · intro h
      exact (h.resolve_left hleads).1
    · intro h
      exact Or.inr ⟨h, hc⟩

/-- A tracked table with two groups of columns. The second declares a column of the first again
under a name that a child element has overridden, and one with the snapshot column's name. -/
def redeclaringTable : Element where
  tag := "TABLE"
  attributes := [⟨none, "name", "t_item"⟩]
  children :=
    [.element "columns" []
      [.element "column" [⟨none, "name", "code"⟩, ⟨none, "data_type", "number"⟩] [],
       .text "\n",
       .element "column" [⟨none, "name", "label"⟩, ⟨none, "data_type", "number"⟩] []],
     .element "columns" []
      [.element "column" [⟨none, "name", "snapshot_id"⟩, ⟨none, "data_type", "date"⟩] [],
       .element "column" [⟨none, "name", "old"⟩, ⟨none, "data_type", "date"⟩]
         [.element "name" [] [.text "Code"]]]]

/-- The column declared again has moved behind the other one, with its later type. -/
theorem sortedColumns_redeclaringTable :
    ∃ t, (tableOf? true redeclaringTable (Column.createFrom [] {}).2).1 = .ok (some t) ∧
      t.sortedColumns.map Column.name = ["SNAPSHOT_ID", "LABEL", "CODE"] ∧
      t.sortedColumns.map Column.dataType = ["NUMBER", "NUMBER", "DATE"] ∧
      ∃ declared, List.Forall₂ Describes (members "columns" "column" redeclaringTable) declared ∧
        t.sortedColumns.map Column.name =
          [snapshotName] ++ (declared.map Column.name).dedup.filter (· != snapshotName) := by
  have hvalues : (tableOf? true redeclaringTable (Column.createFrom [] {}).2).1.toOption.join.map
      (fun t => (t.name, t.sortedColumns.map Column.name, t.sortedColumns.map Column.dataType)) =
        some (("T_ITEM", ["SNAPSHOT_ID", "LABEL", "CODE"], ["NUMBER", "NUMBER", "DATE"]) :
          Text × List Text × List Text) := by
    decide +kernel
  have hctx : Context.Reachable (Column.createFrom [] {}).2 := .createFrom [] .new
  rcases hrun : tableOf? true redeclaringTable (Column.createFrom [] {}).2 with ⟨_ | _ | t, ctx⟩
  · rw [hrun] at hvalues
    cases hvalues
  · rw [hrun] at hvalues
    cases hvalues
  · obtain ⟨k, declared, hdeclared, _, hsorted, _⟩ := sortedColumns_of_tableOf? hctx hrun
    rw [hrun] at hvalues
    obtain ⟨hname, hlists⟩ := Prod.mk.inj (Option.some.inj hvalues)
    obtain ⟨hnames, htypes⟩ := Prod.mk.inj hlists
    rw [hname] at hsorted
    exact ⟨t, rfl, hnames, htypes, declared, hdeclared, hsorted⟩

end Description
end SchemaPackage
