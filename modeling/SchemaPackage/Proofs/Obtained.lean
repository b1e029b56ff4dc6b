import SchemaPackage.Proofs.CreationOrder
import SchemaPackage.Proofs.Table.Indexes

/-!
Columns, indexes, tables and program units, and how they are obtained. Whatever attributes and
descriptions say, it comes down to making something of a name and setting its fields one after
another, and tables hold nothing but what was made like that. So what is true of everything as it is
made, and stays true when a field is set, is true of everything that can be obtained.
-/
namespace SchemaPackage

open Outcome Markup

/-- Whatever has a name. An index may be without. -/
inductive Item
  | column (c : Column)
  | index (i : Index)
  | table (t : Table)
  | unit (u : ProgramUnit)

namespace Context

def Made.item? : Made → Option Item
  | .column c => some (.column c)
  | .snapshot c => some (.column c)
  | .table t => some (.table t)
  | .nothing => none

end Context

/-- What can be obtained: from a context, from attributes or a description, by changing or filling
what has been obtained, and by taking out of a table what it holds. -/
inductive Obtained : Item → Prop
  | made {requests : List Context.Request} {r : Context.Request} {m : Context.Made}
    {ctx' : Context} {item : Item}
    (h : r.make (({} : Context).after requests) = (.ok m, ctx')) (hitem : m.item? = some item) :
    Obtained item
  | setColumn {c d : Column} {field : Column.Field} {value : Text} (hc : Obtained (.column c))
    (h : c.set field value = .ok d) : Obtained (.column d)
  | assignColumn {c : Column} (attributes : Attributes) (hc : Obtained (.column c)) :
    Obtained (.column (assignAll Column.assign attributes c).1)
  | emptyIndex : Obtained (.index {})
  | index {i : Index} {attributes : Attributes} (h : Index.ofAttributes attributes = .ok i) :
    Obtained (.index i)
  | setIndex {i j : Index} {field : Index.Field} {value : Text} (hi : Obtained (.index i))
    (h : i.set field value = .ok j) : Obtained (.index j)
  | assignIndex {i : Index} (attributes : Attributes) (hi : Obtained (.index i)) :
    Obtained (.index (assignAll Index.assign attributes i).1)
  | nameIndex {i j : Index} {table : Text} {sequence : Nat} (hi : Obtained (.index i))
    (h : i.autoName table sequence = .ok j) : Obtained (.index j)
  | trackIndex {i : Index} (tracked : Bool) (hi : Obtained (.index i)) :
    Obtained (.index { i with tracked })
  | setTable {t u : Table} {field : Table.Field} {value : Text} (ht : Obtained (.table t))
    (h : t.set field value = .ok u) : Obtained (.table u)
  | assignTable {t : Table} (attributes : Attributes) (ht : Obtained (.table t)) :
    Obtained (.table (assignAll Table.assign attributes t).1)
  | addColumn {t : Table} {c : Column} (ht : Obtained (.table t)) (hc : Obtained (.column c)) :
    Obtained (.table (t.addColumn c))
  | addIndex {t u : Table} {i : Index} (ht : Obtained (.table t)) (hi : Obtained (.index i))
    (h : t.addIndex i = .ok u) : Obtained (.table u)
  | columnOf {t : Table} {c : Column} (ht : Obtained (.table t)) (hc : c ∈ t.columns.toList) :
    Obtained (.column c)
  | snapshotOf {t : Table} {c : Column} (ht : Obtained (.table t))
    (hc : t.snapshotColumn = some c) : Obtained (.column c)
  | indexOf {t : Table} {i : Index} (ht : Obtained (.table t)) (hi : i ∈ t.indexes) :
    Obtained (.index i)
  | unit {kind name : Text} {u : ProgramUnit} (h : ProgramUnit.ofKindAndName kind name = .ok u) :
    Obtained (.unit u)
  | unitFrom {kind : Text} {attributes : Attributes} {u : ProgramUnit}
    (h : ProgramUnit.ofAttributes kind attributes = .ok u) : Obtained (.unit u)
  | describedUnit {path : Path} {text : Text} {u : ProgramUnit}
    (h : Description.parseUnit path text = .ok (some u)) : Obtained (.unit u)
  | setUnit {u v : ProgramUnit} {field : ProgramUnit.Field} {value : Text}
    (hu : Obtained (.unit u)) (h : u.set field value = .ok v) : Obtained (.unit v)
  | assignUnit {u : ProgramUnit} (attributes : Attributes) (hu : Obtained (.unit u)) :
    Obtained (.unit (assignAll ProgramUnit.assign attributes u).1)

/-- What is kept by setting a field is kept by setting attributes, up to one that is refused. -/
theorem assignAll_of_set {α φ : Type} {assign : Text → Text → α → Except Fault α}
    {set : φ → Text → α → Except Fault α} {P : α → Prop}
    (hassign : ∀ key value a b, assign key value a = .ok b →
      (∃ field, set field value a = .ok b) ∨ b = a)
    (hset : ∀ field value a b, set field value a = .ok b → P a → P b) (attributes : Attributes)
    {a : α} (ha : P a) : P (assignAll assign attributes a).1 := by
  refine assignAll_induction (fun key value a b h ha => ?_) attributes ha
  rcases hassign key value a b h with ⟨field, hfield⟩ | rfl
  · exact hset field value a b hfield ha
  · exact ha

namespace Column

/-- True of columns as they are made, and kept by setting a field. -/
structure Kept (P : Column → Prop) : Prop where
  ofNameAndType : ∀ {name dataType : Text} {order : Nat} {c : Column},
    ofNameAndType name dataType order = .ok c → P c
  set : ∀ {field : Field} {value : Text} {c d : Column}, c.set field value = .ok d → P c → P d
  snapshot : ∀ order, P (Column.snapshot order)

theorem kept_true : Kept fun _ => True := ⟨fun _ => trivial, fun _ _ => trivial, fun _ => trivial⟩

variable {P : Column → Prop} {c : Column}

theorem Kept.assignAll (hP : Kept P) (attributes : Attributes) (hc : P c) :
    P (assignAll assign attributes c).1 :=
  assignAll_of_set (fun _ _ _ _ => setByKey_eq_ok) (fun _ _ _ _ => hP.set) attributes hc

theorem Kept.ofAttributes (hP : Kept P) {attributes : Attributes} {order : Nat}
    (h : ofAttributes attributes order = .ok c) : P c := by
  obtain ⟨named, hnamed, hwhole⟩ := except_bind_eq_ok_iff.mp h
  rw [← whole_eq_ok hwhole]
  exact hP.assignAll attributes (hP.ofNameAndType hnamed)

end Column

namespace Index

/-- True of an index without attributes, and kept by setting a field. -/
structure Kept (P : Index → Prop) : Prop where
  empty : P {}
  set : ∀ {field : Field} {value : Text} {i j : Index}, i.set field value = .ok j → P i → P j
  track : ∀ (tracked : Bool) {i : Index}, P i → P { i with tracked }

theorem kept_true : Kept fun _ => True := ⟨trivial, fun _ _ => trivial, fun _ _ _ => trivial⟩

variable {P : Index → Prop} {i j : Index}

theorem Kept.assignAll (hP : Kept P) (attributes : Attributes) (hi : P i) :
    P (assignAll assign attributes i).1 :=
  assignAll_of_set (fun _ _ _ _ => setByKey_eq_ok) (fun _ _ _ _ => hP.set) attributes hi

theorem Kept.ofAttributes (hP : Kept P) {attributes : Attributes}
    (h : ofAttributes attributes = .ok i) : P i := by
  rw [← whole_eq_ok h]
  exact hP.assignAll attributes hP.empty

theorem Kept.autoName (hP : Kept P) {table : Text} {sequence : Nat}
    (h : i.autoName table sequence = .ok j) (hi : P i) : P j := by
  have hset : i.set .name (madeUpName i.kind table sequence) = .ok j := h
  exact hP.set hset hi

end Index

namespace ProgramUnit

/-- True of units as they are made, and kept by setting a field. -/
structure Kept (P : ProgramUnit → Prop) : Prop where
  ofKindAndName : ∀ {kind name : Text} {u : ProgramUnit}, ofKindAndName kind name = .ok u → P u
  set : ∀ {field : Field} {value : Text} {u v : ProgramUnit},
    u.set field value = .ok v → P u → P v

theorem kept_true : Kept fun _ => True := ⟨fun _ => trivial, fun _ _ => trivial⟩

variable {P : ProgramUnit → Prop} {u : ProgramUnit}

theorem Kept.assignAll (hP : Kept P) (attributes : Attributes) (hu : P u) :
    P (assignAll assign attributes u).1 :=
  assignAll_of_set (fun _ _ _ _ => setByKey_eq_ok) (fun _ _ _ _ => hP.set) attributes hu

theorem Kept.ofAttributes (hP : Kept P) {kind : Text} {attributes : Attributes}
    (h : ofAttributes kind attributes = .ok u) : P u := by
  obtain ⟨named, hnamed, hwhole⟩ := except_bind_eq_ok_iff.mp h
  rw [← whole_eq_ok hwhole]
  exact hP.assignAll attributes (hP.ofKindAndName hnamed)

theorem Kept.unitOf (hP : Kept P) {e : Element} (h : Description.unitOf e = .ok u) : P u := by
  obtain ⟨made, hmade, h⟩ := except_bind_eq_ok_iff.mp h
  have hof := hP.ofAttributes hmade
  split at h
  next documentation _ =>
    have hset : made.set .documentation documentation = .ok u := h
    exact hP.set hset hof
  next =>
    cases h
    exact hof

theorem Kept.parseUnit (hP : Kept P) {path : Path} {text : Text}
    (h : Description.parseUnit path text = .ok (some u)) : P u := by
  unfold Description.parseUnit at h
  split at h
  next root _ =>
    unfold Description.unitOf? at h
    split at h
    · obtain ⟨described, hdescribed, hsome⟩ := except_map_eq_ok_iff.mp h
      cases hsome
      exact hP.unitOf hdescribed
    · cases h
  next => cases h

end ProgramUnit

/-- True of new tables, and kept by setting a field and by filling the table. -/
structure Table.Kept (P : Table → Prop) : Prop where
  new : ∀ {name value : Text} {snapshotColumn : Option Column},
    normalizeName "Table" value = .ok name →
    (∀ c ∈ snapshotColumn, ∃ order, c = Column.snapshot order) → P { name, snapshotColumn }
  set : ∀ {field : Field} {value : Text} {t u : Table}, t.set field value = .ok u → P t → P u
  addColumn : ∀ (c : Column) {t : Table}, P t → P (t.addColumn c)
  setIndexes : ∀ (indexes : List Index) {t : Table}, P t → P { t with indexes }

/-- True of everything as it is made, and kept by every single change. -/
structure Item.Kept (P : Item → Prop) : Prop where
  column : Column.Kept fun c => P (.column c)
  index : Index.Kept fun i => P (.index i)
  table : Table.Kept fun t => P (.table t)
  unit : ProgramUnit.Kept fun u => P (.unit u)

/-- True of a table and of all that it holds. -/
structure Table.All (P : Item → Prop) (t : Table) : Prop where
  self : P (.table t)
  columns : ∀ c ∈ t.columns.toList, P (.column c)
  snapshotColumn : ∀ c ∈ t.snapshotColumn, P (.column c)
  indexes : ∀ i ∈ t.indexes, P (.index i)

section Tables

variable {P : Item → Prop} {t u : Table}

namespace Table.All

theorem of_sameContents (ht : t.All P) (hsame : SameContents t u) (hu : P (.table u)) :
    u.All P := by
  refine ⟨hu, ?_, ?_, ?_⟩
  · rw [hsame.columns]
    exact ht.columns
  · rw [hsame.snapshotColumn]
    exact ht.snapshotColumn
  · rw [hsame.indexes]
    exact ht.indexes

theorem set (hP : Item.Kept P) {field : Field} {value : Text} (h : t.set field value = .ok u)
    (ht : t.All P) : u.All P :=
  ht.of_sameContents (sameContents_of_set h) (hP.table.set h ht.self)

theorem assignAll (hP : Item.Kept P) (attributes : Attributes) (ht : t.All P) :
    (assignAll assign attributes t).1.All P :=
  assignAll_of_set (fun _ _ _ _ => setByKey_eq_ok) (fun _ _ _ _ => set hP) attributes ht

theorem addColumn (hP : Item.Kept P) {c : Column} (ht : t.All P) (hc : P (.column c)) :
    (t.addColumn c).All P := by
  refine ⟨hP.table.addColumn c ht.self, fun d hd => ?_, ht.snapshotColumn, ht.indexes⟩
  rcases List.mem_cons.mp ((ColumnSet.place_perm c _).mem_iff.mp hd) with rfl | hd
  · exact hc
  · exact ht.columns d (List.mem_filter.mp hd).1

theorem addIndex (hP : Item.Kept P) {i : Index} (h : t.addIndex i = .ok u) (ht : t.All P)
    (hi : P (.index i)) : u.All P := by
  obtain ⟨named, bound, hnamed, hbound, rfl⟩ := addIndex_eq_ok h
  have hPnamed : P (.index named) := by
    unfold namedIndex at hnamed
    split at hnamed
    · cases hnamed
      exact hi
    · exact hP.index.autoName hnamed hi
  have hset : named.set .tableName t.name = .ok bound := hbound
  have hPbound := hP.index.set hset hPnamed
  refine ⟨hP.table.setIndexes _ ht.self, ht.columns, ht.snapshotColumn, fun j hj => ?_⟩
  rcases mem_placeIndex hj with rfl | hj
  · exact hP.index.track t.isTracked hPbound
  · exact ht.indexes j hj

theorem create (hP : Item.Kept P) {name : Text} {tracked : Bool} {ctx ctx' : Context}
    (hctx : ∃ order, ctx.snapshot.1 = Column.snapshot order)
    (h : create name tracked ctx = (.ok t, ctx')) : t.All P := by
  obtain ⟨proper, hproper, rfl, _⟩ := create_eq_ok h
  have hstandard : ∀ c ∈ (if tracked then some ctx.snapshot.1 else none),
      ∃ order, c = Column.snapshot order := by
    intro c hc
    obtain ⟨order, horder⟩ := hctx
    split at hc
    · exact ⟨order, by rw [← horder, Option.mem_some_iff.mp hc]⟩
    · cases hc
  refine ⟨hP.table.new hproper hstandard, fun c hc => absurd hc List.not_mem_nil, fun c hc => ?_,
    fun i hi => absurd hi List.not_mem_nil⟩
  obtain ⟨order, rfl⟩ := hstandard c hc
  exact hP.column.snapshot order

theorem createFrom (hP : Item.Kept P) {attributes : Attributes} {tracked : Bool}
    {ctx ctx' : Context} (hctx : ∃ order, ctx.snapshot.1 = Column.snapshot order)
    (h : createFrom attributes tracked ctx = (.ok t, ctx')) : t.All P := by
  obtain ⟨name, created, hcreate, hwhole⟩ := createFrom_eq_ok h
  rw [← whole_eq_ok hwhole]
  exact (create hP hctx hcreate).assignAll hP attributes

end Table.All

namespace Description

theorem all_withDocumentation (hP : Item.Kept P) (e : Element) (ht : t.All P) :
    (withDocumentation t e).All P := by
  unfold withDocumentation
  split
  next documentation _ =>
    have hset : t.set .documentation documentation = .ok { t with documentation } := rfl
    exact ht.set hP hset
  next => exact ht

theorem all_addColumns (hP : Item.Kept P) {elements : List Element} {ctx ctx' : Context}
    (h : addColumns t elements ctx = (.ok u, ctx')) (ht : t.All P) : u.All P := by
  induction elements generalizing t ctx with
  | nil =>
    cases h
    exact ht
  | cons e rest ih =>
    obtain ⟨c, next, hcreate, hrest⟩ := bind_eq_ok_iff.mp h
    have hc : P (.column c) := hP.column.ofAttributes (Prod.mk.inj hcreate).1
    exact ih hrest (ht.addColumn hP hc)

theorem all_addIndexElement (hP : Item.Kept P) {e : Element} (h : addIndexElement t e = .ok u)
    (ht : t.All P) : u.All P := by
  rcases addIndexElement_eq_ok h with ⟨_, rfl⟩ | ⟨_, index, declared, hindex, hdeclared, hadd⟩
  · exact ht
  · have hset : index.set .columns (indexColumns e) = .ok declared := hdeclared
    exact ht.addIndex hP hadd (hP.index.set hset (hP.index.ofAttributes hindex))

theorem all_addIndexes (hP : Item.Kept P) {elements : List Element}
    (h : addIndexes t elements = .ok u) (ht : t.All P) : u.All P := by
  induction elements generalizing t with
  | nil =>
    cases h
    exact ht
  | cons e rest ih =>
    obtain ⟨next, he, hrest⟩ := addIndexes_cons_eq_ok h
    exact ih hrest (all_addIndexElement hP he ht)

theorem all_tableOf (hP : Item.Kept P) {tracked : Bool} {e : Element} {ctx ctx' : Context}
    (hctx : ∃ order, ctx.snapshot.1 = Column.snapshot order)
    (h : tableOf tracked e ctx = (.ok t, ctx')) : t.All P := by
  obtain ⟨created, next, filled, hcreate, hfill, hindexes⟩ := tableOf_eq_ok h
  have hcreated := Table.All.createFrom hP hctx hcreate
  have hfilled := all_addColumns hP hfill (all_withDocumentation hP e hcreated)
  exact all_addIndexes hP hindexes hfilled

end Description

end Tables

/-- True of the item and, if it is a table, of all that it holds. -/
def Item.All (P : Item → Prop) : Item → Prop
  | table t => t.All P
  | item => P item

section Obtained

variable {P : Item → Prop} {item : Item}

theorem Item.All.self (h : item.All P) : P item := by
  cases item with
  | table t => exact Table.All.self h
  | _ => exact h

theorem Context.exists_snapshot_after (requests : List Request) :
    ∃ order, (({} : Context).after requests).snapshot.1 = Column.snapshot order := by
  cases hshared : (({} : Context).after requests).snapshotColumn with
  | none =>
    rw [Context.snapshot, hshared]
    exact ⟨_, rfl⟩
  | some c =>
    rw [Context.snapshot, hshared]
    exact snapshotColumn_after hshared

/-- What a context gives after any other requests. -/
theorem Context.all_of_request (hP : Item.Kept P) {requests : List Request} {r : Request}
    {m : Made} {ctx' : Context} (h : r.make (({} : Context).after requests) = (.ok m, ctx'))
    (hitem : m.item? = some item) : item.All P := by
  have hctx := exists_snapshot_after requests
  cases r with
  | column name dataType =>
    obtain ⟨c, hcreate, rfl⟩ := map_eq_ok_iff.mp h
    cases hitem
    exact hP.column.ofNameAndType (Prod.mk.inj hcreate).1
  | columnFrom attributes =>
    obtain ⟨c, hcreate, rfl⟩ := map_eq_ok_iff.mp h
    cases hitem
    exact hP.column.ofAttributes (Prod.mk.inj hcreate).1
  | snapshot =>
    obtain ⟨c, htracked, rfl⟩ := map_eq_ok_iff.mp h
    obtain ⟨order, horder⟩ := hctx
    have hcolumn := hP.column.snapshot order
    rw [← horder] at hcolumn
    cases htracked
    cases hitem
    exact hcolumn
  | table name tracked =>
    obtain ⟨t, hcreate, rfl⟩ := map_eq_ok_iff.mp h
    cases hitem
    exact Table.All.create hP hctx hcreate
  | tableFrom attributes tracked =>
    obtain ⟨t, hcreate, rfl⟩ := map_eq_ok_iff.mp h
    cases hitem
    exact Table.All.createFrom hP hctx hcreate
  | describe path text tracked =>
    obtain ⟨t?, hparse, rfl⟩ := map_eq_ok_iff.mp h
    obtain ⟨root, _, hparse⟩ := Description.parseTable_eq_tableOf? hparse
    rcases Description.tableOf?_eq_ok hparse with ⟨t, rfl, htable⟩ | ⟨rfl, _⟩
    · cases hitem
      exact Description.all_tableOf hP hctx htable
    · cases hitem

/-- The induction is on how the item was obtained; the contents of tables come along with it, so
that what is taken out of a table again is covered. -/
theorem Obtained.all (hP : Item.Kept P) (h : Obtained item) : item.All P := by
  induction h with
  | made h hitem => exact Context.all_of_request hP h hitem
  | setColumn _ h ih => exact hP.column.set h ih
  | assignColumn attributes _ ih => exact hP.column.assignAll attributes ih
  | emptyIndex => exact hP.index.empty
  | index h => exact hP.index.ofAttributes h
  | setIndex _ h ih => exact hP.index.set h ih
  | assignIndex attributes _ ih => exact hP.index.assignAll attributes ih
  | nameIndex _ h ih => exact hP.index.autoName h ih
  | trackIndex tracked _ ih => exact hP.index.track tracked ih
  | setTable _ h ih => exact Table.All.set hP h ih
  | assignTable attributes _ ih => exact Table.All.assignAll hP attributes ih
  | addColumn _ _ ih ihc => exact Table.All.addColumn hP ih ihc
  | addIndex _ _ h ih ihi => exact Table.All.addIndex hP h ih ihi
  | columnOf _ hc ih => exact ih.columns _ hc
  | snapshotOf _ hc ih => exact ih.snapshotColumn _ hc
  | indexOf _ hi ih => exact ih.indexes _ hi
  | unit h => exact hP.unit.ofKindAndName h
  | unitFrom h => exact hP.unit.ofAttributes h
  | describedUnit h => exact hP.unit.parseUnit h
  | setUnit _ h ih => exact hP.unit.set h ih
  | assignUnit attributes _ ih => exact hP.unit.assignAll attributes ih

theorem Obtained.kept (hP : Item.Kept P) (h : Obtained item) : P item := (h.all hP).self

end Obtained

/-- Every value within the limit is a name that a table can be given. -/
theorem obtained_table (value : Text) (hne : value ≠ [])
    (hlimit : value.byteLength ≤ maxNameBytes) :
    Obtained (.table { name := Text.upper value }) := by
  have hname : normalizeName "Table" value = .ok (Text.upper value) :=
    normalizeName_eq_ok_iff.mpr ⟨hne, hlimit, rfl⟩
  have hcreate : Table.create value false {} = (.ok { name := Text.upper value }, {}) :=
    bind_eq_ok_iff.mpr ⟨_, _, lift_eq_ok_iff.mpr ⟨hname, rfl⟩, rfl⟩
  have hmake : (Context.Request.table value false).make (({} : Context).after []) =
      (.ok (.table { name := Text.upper value }), {}) :=
    map_eq_ok_iff.mpr ⟨_, hcreate, rfl⟩
  exact .made hmake rfl

/-- A column takes the next order also if it is refused. -/
theorem Context.nextOrder_after_replicate (name dataType : Text) (count : Nat) (ctx : Context) :
    (ctx.after (List.replicate count (.column name dataType))).nextOrder =
      ctx.nextOrder + count := by
  induction count generalizing ctx with
  | zero => rfl
  | succ count ih =>
    have hstep : ((Request.column name dataType).make ctx).2.nextOrder = ctx.nextOrder + 1 := by
      rw [Request.make, snd_map]
      rfl
    have hrest := ih ((Request.column name dataType).make ctx).2
    rw [hstep, Nat.add_assoc, Nat.add_comm 1] at hrest
    exact hrest

/-- A column can be had with any order. -/
theorem obtained_column {name dataType : Text} {order : Nat} {c : Column}
    (h : Column.ofNameAndType name dataType order = .ok c) : Obtained (.column c) := by
  have horder := Context.nextOrder_after_replicate [] [] order {}
  rw [Nat.zero_add] at horder
  have hmake : ((Context.Request.column name dataType).make
      (({} : Context).after (List.replicate order (.column [] [])))).1 = .ok (.column c) := by
    rw [Context.Request.make, fst_map, Column.create, withOrder, horder, h]
    rfl
  exact .made (Prod.ext hmake rfl) rfl

end SchemaPackage
