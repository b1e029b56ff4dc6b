import SchemaPackage.Proofs.Table.Columns

/-!
Tables apart from tracking. To track the snapshots of a table shifts the orders of its columns and
marks the table and its indexes. Every step of a description works alike on what is left without the
orders and the marks, so that a document describes the same table apart from them.
-/
namespace SchemaPackage

open Outcome

theorem setByKey_map {α φ : Type} {keys : List (Text × φ)} {set : φ → Text → α → Except Fault α}
    {f : α → α} (hset : ∀ field value a, set field value (f a) = (set field value a).map f)
    (key value : Text) (a : α) :
    setByKey keys set key value (f a) = (setByKey keys set key value a).map f := by
  unfold setByKey
  cases keys.lookup key with
  | none => rfl
  | some field => exact hset field value a

/-- Assignments do not see what `f` takes away. -/
theorem whole_assignAll_map {α : Type} {assign : Text → Text → α → Except Fault α} {f : α → α}
    (hassign : ∀ key value a, assign key value (f a) = (assign key value a).map f)
    (attributes : Attributes) (a : α) :
    whole (assignAll assign attributes (f a)) = (whole (assignAll assign attributes a)).map f := by
  induction attributes generalizing a with
  | nil => rfl
  | cons pair rest ih =>
    rw [assignAll, assignAll, hassign]
    cases assign pair.1 pair.2 a with
    | error fault => rfl
    | ok next => exact ih next

namespace Column

/-- The column without its order. -/
def undated (c : Column) : Column := { c with order := 0 }

theorem setName_undated (value : Text) (c : Column) :
    c.undated.setName value = (c.setName value).map undated := by
  rw [setName, setName]
  cases normalizeName "Column" value <;> rfl

theorem setDataType_undated (value : Text) (c : Column) :
    c.undated.setDataType value = (c.setDataType value).map undated := by
  rw [setDataType, setDataType]
  cases requireValue "Column data type" value <;> rfl

theorem set_undated (field : Field) (value : Text) (c : Column) :
    c.undated.set field value = (c.set field value).map undated := by
  cases field with
  | name => exact setName_undated value c
  | dataType => exact setDataType_undated value c
  | _ => rfl

theorem ofNameAndType_undated (name dataType : Text) (order : Nat) :
    (ofNameAndType name dataType order).map undated = ofNameAndType name dataType 0 := by
  have hname : (blank 0).setName name = ((blank order).setName name).map undated :=
    setName_undated name (blank order)
  have hsteps : ∀ k, ofNameAndType name dataType k =
      ((blank k).setName name >>= fun c => c.setDataType dataType) := fun _ => rfl
  rw [hsteps, hsteps, hname, except_map_bind fun c => setDataType_undated dataType c]

/-- A column has its attributes, whatever order it takes. -/
theorem ofAttributes_undated (attributes : Attributes) (order : Nat) :
    (ofAttributes attributes order).map undated = ofAttributes attributes 0 := by
  have hsteps : ∀ k, ofAttributes attributes k =
      (ofNameAndType ((firstValue? "name" attributes).getD [])
        ((firstValue? "data_type" attributes).getD []) k >>= fun named =>
          whole (assignAll assign attributes named)) := fun _ => rfl
  rw [hsteps, hsteps, ← ofNameAndType_undated _ _ order,
    except_map_bind fun c => whole_assignAll_map (setByKey_map set_undated) attributes c]

/-- What does not look at orders is the same for columns that are the same without them. -/
theorem map_eq_of_undated {β : Type} {f : Column → β} (hf : ∀ c, f c.undated = f c)
    {l m : List Column} (h : l.map undated = m.map undated) : l.map f = m.map f := by
  have hmap : ∀ l : List Column, l.map f = (l.map undated).map f := by
    intro l
    rw [List.map_map]
    exact List.map_congr_left fun c _ => (hf c).symm
  rw [hmap l, h, ← hmap m]

end Column

namespace ColumnSet

def undated (s : ColumnSet) : ColumnSet := ⟨s.toList.map Column.undated⟩

/-- Behind older columns, a new one goes to the end, as it does where no column has an order. -/
theorem undated_insert {s : ColumnSet} {c : Column} (h : ∀ d ∈ s.toList, d.order ≤ c.order) :
    (s.insert c).undated = s.undated.insert c.undated := by
  have hplace := place_of_forall_le (l := s.toList.filter fun d => !c.sameName d)
    fun d hd => h d (List.mem_filter.mp hd).1
  have hundated : place c.undated (s.undated.toList.filter fun d => !c.undated.sameName d) =
      (s.undated.toList.filter fun d => !c.undated.sameName d) ++ [c.undated] := by
    apply place_of_forall_le
    intro d hd
    obtain ⟨_, _, rfl⟩ := List.mem_map.mp (List.mem_filter.mp hd).1
    exact Nat.le_refl 0
  rw [insert, hplace, insert, hundated, undated, undated, List.map_append, List.filter_map]
  rfl

end ColumnSet

namespace Index

/-- The index without the mark of tracking. -/
def untracked (i : Index) : Index := { i with tracked := false }

end Index

namespace Table

/-- What a table is like apart from tracking: without the snapshot column, the marks of its indexes
and the orders of its columns. -/
def plain (t : Table) : Table :=
  { t with
    columns := t.columns.undated
    indexes := t.indexes.map Index.untracked
    snapshotColumn := none }

theorem set_plain (field : Field) (value : Text) (t : Table) :
    t.plain.set field value = (t.set field value).map plain := by
  cases field with
  | name =>
    rw [set, set, setName, setName]
    cases normalizeName "Table" value <;> rfl
  | transactions =>
    rw [set, set]
    cases parseCount "init_trans" value <;> rfl
  | _ => rfl

theorem plain_create (name : Text) (tracked : Bool) (ctx : Context) :
    (create name tracked ctx).1.map plain =
      (normalizeName "Table" name).map fun name => { name } := by
  rw [create, bind_run]
  cases normalizeName "Table" name with
  | error fault => rfl
  | ok name => cases tracked <;> rfl

theorem plain_createFrom (attributes : Attributes) (tracked tracked' : Bool) (ctx ctx' : Context) :
    (createFrom attributes tracked ctx).1.map plain =
      (createFrom attributes tracked' ctx').1.map plain := by
  cases hfirst : firstValue? "name" attributes with
  | none =>
    rw [createFrom, createFrom, hfirst]
    rfl
  | some name =>
    have hsteps : ∀ tracked ctx, (createFrom attributes tracked ctx).1 =
        (create name tracked ctx).1 >>= fun t => whole (assignAll assign attributes t) := by
      intro tracked ctx
      rw [createFrom, hfirst]
      exact fst_bind_lift _ _ _
    have hassigned (t : Table) : whole (assignAll assign attributes t.plain) = _ :=
      whole_assignAll_map (setByKey_map set_plain) attributes t
    rw [hsteps, hsteps, ← except_map_bind hassigned, ← except_map_bind hassigned, plain_create,
      plain_create]

/-- All columns were created before the given order came up. -/
def OlderThan (t : Table) (order : Nat) : Prop := ∀ d ∈ t.columns.toList, d.order < order

theorem OlderThan.addColumn {t : Table} {c : Column} (h : t.OlderThan c.order) :
    (t.addColumn c).OlderThan (c.order + 1) := by
  intro d hd
  rcases List.mem_cons.mp ((ColumnSet.place_perm c _).mem_iff.mp hd) with rfl | hd
  · exact Nat.lt_succ_self _
  · exact Nat.lt_succ_of_lt (h d (List.mem_filter.mp hd).1)

theorem OlderThan.plain_addColumn {t : Table} {c : Column} (h : t.OlderThan c.order) :
    (t.addColumn c).plain = t.plain.addColumn c.undated := by
  have hinsert := ColumnSet.undated_insert fun d hd => Nat.le_of_lt (h d hd)
  rw [Table.addColumn, plain, hinsert]
  rfl

theorem placeIndex_untracked (i : Index) (indexes : List Index) :
    placeIndex i.untracked (indexes.map Index.untracked) =
      (placeIndex i indexes).map Index.untracked := by
  induction indexes with
  | nil => rfl
  | cons j rest ih =>
    rw [List.map_cons, placeIndex, placeIndex, ih]
    change (if j.name = i.name then _ else _) = _
    split <;> rfl

theorem addIndex_plain (t : Table) (i : Index) :
    t.plain.addIndex i = (t.addIndex i).map plain := by
  have hnamed : t.plain.namedIndex i = t.namedIndex i := by
    rw [namedIndex, namedIndex, plain, List.length_map]
  rw [addIndex_eq_bind, addIndex_eq_bind, hnamed]
  refine except_bind_map fun named => except_bind_map fun bound => ?_
  have hplace := placeIndex_untracked { bound with tracked := t.isTracked } t.indexes
  exact congrArg (fun indexes => Except.ok { t.plain with indexes }) hplace

end Table

namespace Description

open Markup Table

theorem addColumns_cons (t : Table) (e : Element) (rest : List Element) (ctx : Context) :
    addColumns t (e :: rest) ctx =
      match Column.ofAttributes (columnAttributes e) ctx.nextOrder with
      | .ok c => addColumns (t.addColumn c) rest { ctx with nextOrder := ctx.nextOrder + 1 }
      | .error fault => (.error fault, { ctx with nextOrder := ctx.nextOrder + 1 }) := by
  rw [addColumns, bind_run, Column.createFrom, withOrder]
  cases Column.ofAttributes (columnAttributes e) ctx.nextOrder <;> rfl

/-- Column elements do the same to tables that are the same apart from tracking, whatever the orders
that their columns get. -/
theorem plain_addColumns {elements : List Element} {t u : Table} {ctx ctx' : Context}
    (hplain : t.plain = u.plain) (ht : t.OlderThan ctx.nextOrder)
    (hu : u.OlderThan ctx'.nextOrder) :
    (addColumns t elements ctx).1.map plain = (addColumns u elements ctx').1.map plain := by
  -- each run counts on its own, so each has to know that its next column is the youngest
  induction elements generalizing t u ctx ctx' with
  | nil => exact congrArg Except.ok hplain
  | cons e rest ih =>
    have hcolumns : (Column.ofAttributes (columnAttributes e) ctx.nextOrder).map Column.undated =
        (Column.ofAttributes (columnAttributes e) ctx'.nextOrder).map Column.undated := by
      rw [Column.ofAttributes_undated, Column.ofAttributes_undated]
    rw [addColumns_cons, addColumns_cons]
    rcases except_map_eq_map hcolumns with ⟨fault, hfault, hfault'⟩ | ⟨c, d, hc, hd, hundated⟩
    · rw [hfault, hfault']
    · have horder : c.order = ctx.nextOrder := Column.order_of_ofAttributes hc
      have horder' : d.order = ctx'.nextOrder := Column.order_of_ofAttributes hd
      rw [← horder] at ht
      rw [← horder'] at hu
      rw [hc, hd, ← horder, ← horder']
      refine ih ?_ ht.addColumn hu.addColumn
      rw [ht.plain_addColumn, hu.plain_addColumn, hplain, hundated]

theorem addIndexElement_plain (t : Table) (e : Element) :
    addIndexElement t.plain e = (addIndexElement t e).map plain := by
  dsimp only [addIndexElement]
  split
  · rfl
  · exact except_bind_map fun _ => except_bind_map fun declared => addIndex_plain t declared

theorem addIndexes_plain (t : Table) (elements : List Element) :
    addIndexes t.plain elements = (addIndexes t elements).map plain := by
  induction elements generalizing t with
  | nil => rfl
  | cons e rest ih =>
    rw [addIndexes, addIndexes, addIndexElement_plain]
    cases addIndexElement t e with
    | error fault => rfl
    | ok next => exact ih next

theorem plain_withDocumentation (t : Table) (e : Element) :
    (withDocumentation t e).plain = withDocumentation t.plain e := by
  unfold withDocumentation
  split <;> rfl

/-- A new table has no columns that could be too young. -/
theorem olderThan_of_createFrom {attributes : Attributes} {tracked : Bool} {t : Table}
    {ctx ctx' : Context} (h : Table.createFrom attributes tracked ctx = (.ok t, ctx'))
    (e : Element) (order : Nat) : (withDocumentation t e).OlderThan order := by
  intro d hd
  rw [(columns_withDocumentation t e).1, (columns_of_createFrom h).1] at hd
  exact absurd hd List.not_mem_nil

theorem plain_tableOf (e : Element) (tracked tracked' : Bool) (ctx ctx' : Context) :
    (tableOf tracked e ctx).1.map plain = (tableOf tracked' e ctx').1.map plain := by
  have hsteps : ∀ tracked ctx, (tableOf tracked e ctx).1 =
      match Table.createFrom e.attributeValues tracked ctx with
      | (.ok t, next) => (addColumns (withDocumentation t e) (members "columns" "column" e) next).1
          >>= fun t => addIndexes t (members "indexes" "index" e)
      | (.error fault, _) => .error fault := by
    intro tracked ctx
    rw [tableOf, bind_run]
    rcases Table.createFrom e.attributeValues tracked ctx with ⟨_ | t, next⟩
    · rfl
    · exact fst_bind_lift _ _ _
  have hindexes := fun t => addIndexes_plain t (members "indexes" "index" e)
  rw [hsteps, hsteps]
  rcases hcreate : Table.createFrom e.attributeValues tracked ctx with ⟨created, next⟩
  rcases hcreate' : Table.createFrom e.attributeValues tracked' ctx' with ⟨created', next'⟩
  have hcreated := plain_createFrom e.attributeValues tracked tracked' ctx ctx'
  rw [hcreate, hcreate'] at hcreated
  rcases except_map_eq_map hcreated with ⟨fault, rfl, rfl⟩ | ⟨t, u, rfl, rfl, hplain⟩
  · rfl
  · change (_ >>= _ : Except Fault Table).map plain = (_ >>= _ : Except Fault Table).map plain
    have hempty := olderThan_of_createFrom hcreate e next.nextOrder
    have hempty' := olderThan_of_createFrom hcreate' e next'.nextOrder
    have hdocumented : (withDocumentation t e).plain = (withDocumentation u e).plain := by
      rw [plain_withDocumentation, plain_withDocumentation, hplain]
    rw [← except_map_bind hindexes, ← except_map_bind hindexes,
      plain_addColumns hdocumented hempty hempty']

theorem fst_tableOf? (e : Element) (tracked : Bool) (ctx : Context) :
    (tableOf? tracked e ctx).1 =
      if describesTable e then (tableOf tracked e ctx).1.map some else .ok none := by
  unfold tableOf?
  split
  · rw [map_eq_pure_bind, bind_run]
    rcases tableOf tracked e ctx with ⟨_ | _, _⟩ <;> rfl
  · rfl

/-- A text describes the same apart from tracking, whether or not there is tracking and whatever
the contexts are. -/
theorem plain_parseTable (path : Path) (text : Text) (tracked tracked' : Bool)
    (ctx ctx' : Context) :
    (parseTable path text tracked ctx).1.map (Option.map plain) =
      (parseTable path text tracked' ctx').1.map (Option.map plain) := by
  cases hroot : document? text with
  | none =>
    rw [parseTable, parseTable, hroot]
    rfl
  | some root =>
    rw [parseTable, parseTable, hroot]
    change (tableOf? tracked root ctx).1.map _ = (tableOf? tracked' root ctx').1.map _
    rw [fst_tableOf?, fst_tableOf?]
    split
    · rcases except_map_eq_map (plain_tableOf root tracked tracked' ctx ctx') with
        ⟨fault, hfault, hfault'⟩ | ⟨t, u, ht, hu, hplain⟩
      · rw [hfault, hfault']
      · rw [ht, hu]
        exact congrArg (fun t => Except.ok (some t)) hplain
    · rfl

end Description

end SchemaPackage
