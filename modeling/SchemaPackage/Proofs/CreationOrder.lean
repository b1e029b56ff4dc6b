import Mathlib.Data.List.Range
import SchemaPackage.Proofs.Table.Plain

/-!
The orders that a context hands out. Whatever is asked of it, and whether or not it succeeds, each
creation takes the order after the one before, so that no order comes twice and a later column has
a larger one. The shared snapshot column is one of these creations, the only one of its kind, and
all tracked tables carry it. What is asked of other contexts makes no difference.
-/
namespace SchemaPackage.Context

open Outcome Markup Description

/-- One taking of an order: what came of it, and whether it was for the shared snapshot column. -/
structure Creation where
  order : Nat
  made : Except Fault Column
  shared : Bool

namespace Creation

def column? (creation : Creation) : Option Column := creation.made.toOption

end Creation

/-- A column of its own, which takes the next order even if it is refused. -/
def ownCreation (make : Nat → Except Fault Column) (ctx : Context) : Creation :=
  ⟨ctx.nextOrder, make ctx.nextOrder, false⟩

/-- The shared column takes an order when it is wanted for the first time. -/
def sharedCreations (ctx : Context) : List Creation :=
  match ctx.snapshotColumn with
  | some _ => []
  | none => [⟨ctx.nextOrder, .ok (Column.snapshot ctx.nextOrder), true⟩]

/-- The shared column is wanted once the name of a tracked table is accepted. -/
def tableCreations (name : Text) (tracked : Bool) (ctx : Context) : List Creation :=
  match normalizeName "Table" name with
  | .ok _ => if tracked then ctx.sharedCreations else []
  | .error _ => []

def tableFromCreations (attributes : Attributes) (tracked : Bool) (ctx : Context) :
    List Creation :=
  match firstValue? "name" attributes with
  | some name => ctx.tableCreations name tracked
  | none => []

/-- Column elements are read up to the first one that is refused. -/
def columnCreations (ctx : Context) : List Element → List Creation
  | [] => []
  | e :: rest =>
    ctx.ownCreation (Column.ofAttributes (columnAttributes e)) ::
      match Column.ofAttributes (columnAttributes e) ctx.nextOrder with
      | .ok _ => columnCreations { ctx with nextOrder := ctx.nextOrder + 1 } rest
      | .error _ => []

/-- No column element is read if the table is refused for its attributes. -/
def descriptionCreations (tracked : Bool) (e : Element) (ctx : Context) : List Creation :=
  ctx.tableFromCreations e.attributeValues tracked ++
    match Table.createFrom e.attributeValues tracked ctx with
    | (.ok _, next) => next.columnCreations (members "columns" "column" e)
    | (.error _, _) => []

/-- What a context can be asked for. -/
inductive Request
  | column (name dataType : Text)
  | columnFrom (attributes : Attributes)
  | snapshot
  | table (name : Text) (tracked : Bool)
  | tableFrom (attributes : Attributes) (tracked : Bool)
  | describe (path : Path) (text : Text) (tracked : Bool)

/-- What a request can give. A text that describes no table gives nothing. -/
inductive Made
  | column (c : Column)
  | snapshot (c : Column)
  | table (t : Table)
  | nothing

namespace Made

/-- The columns that are not shared. -/
def ownColumns : Made → List Column
  | column c => [c]
  | table t => t.columns.toList
  | _ => []

def snapshotColumn : Made → Option Column
  | snapshot c => some c
  | table t => t.snapshotColumn
  | _ => none

def ofTable? : Option Table → Made
  | some t => table t
  | none => nothing

end Made

namespace Request

def make : Request → Build Made
  | column name dataType => Made.column <$> Column.create name dataType
  | columnFrom attributes => Made.column <$> Column.createFrom attributes
  | snapshot => Made.snapshot <$> trackedColumn
  | table name tracked => Made.table <$> Table.create name tracked
  | tableFrom attributes tracked => Made.table <$> Table.createFrom attributes tracked
  | describe path text tracked => Made.ofTable? <$> parseTable path text tracked

/-- Whether a table is asked for whose snapshots are tracked. -/
def isTracked : Request → Bool
  | table _ tracked => tracked
  | tableFrom _ tracked => tracked
  | describe _ _ tracked => tracked
  | _ => false

/-- What takes an order on the way, from first to last. -/
def creations (ctx : Context) : Request → List Creation
  | column name dataType => [ctx.ownCreation (Column.ofNameAndType name dataType)]
  | columnFrom attributes => [ctx.ownCreation (Column.ofAttributes attributes)]
  | snapshot => ctx.sharedCreations
  | table name tracked => ctx.tableCreations name tracked
  | tableFrom attributes tracked => ctx.tableFromCreations attributes tracked
  | describe _ text tracked =>
    match document? text with
    | some root => if describesTable root then ctx.descriptionCreations tracked root else []
    | none => []

end Request

/-- A request with its answer. -/
structure Event where
  request : Request
  answer : Except Fault Made
  creations : List Creation

def event (ctx : Context) (r : Request) : Event := ⟨r, (r.make ctx).1, r.creations ctx⟩

/-- Requests made of one context in turn. -/
def events (ctx : Context) : List Request → List Event
  | [] => []
  | r :: rest => ctx.event r :: events (r.make ctx).2 rest

/-- The context after requests in turn. -/
def after (ctx : Context) (requests : List Request) : Context :=
  requests.foldl (fun ctx r => (r.make ctx).2) ctx

/-- Requests made in turn of contexts that exist side by side, each of the one that it names. -/
def eventsAmong (contexts : Nat → Context) : List (Nat × Request) → List (Nat × Event)
  | [] => []
  | (id, r) :: rest =>
    (id, (contexts id).event r) ::
      eventsAmong (Function.update contexts id (r.make (contexts id)).2) rest

/-- What belongs to one of the contexts. -/
def only {α : Type} (id : Nat) (l : List (Nat × α)) : List α :=
  l.filterMap fun p => if p.1 = id then some p.2 else none

/-- All takings of an order, from first to last. -/
def log (events : List Event) : List Creation := events.flatMap Event.creations

/-- A context counts its creations from zero on. -/
structure Orderly (events : List Event) : Prop where
  /-- Every creation, failed or not, takes the number of those before it. -/
  orders : (log events).map Creation.order = List.range (log events).length
  /-- A column that is made has the order that was taken for it. -/
  dated : ∀ creation ∈ log events, ∀ c ∈ creation.column?, c.order = creation.order
  increasing : ((log events).filterMap Creation.column?).Pairwise Column.Older
  /-- A counter of 64 bits gives the same orders as long as it has not come round. -/
  counted : (log events).length ≤ UInt64.size →
    ((log events).map fun creation => UInt64.ofNat creation.order).Pairwise (· < ·)
  /-- Columns and tables have no columns but those made for them. -/
  made : ∀ e ∈ events, ∀ m, e.answer = .ok m → ∀ c ∈ m.ownColumns,
    ∃ creation ∈ e.creations, creation.shared = false ∧ creation.made = .ok c
  tracked : ∀ e ∈ events, ∀ t, e.answer = .ok (.table t) → t.isTracked = e.request.isTracked
  /-- The shared column is made once, if it is wanted at all, and is the same wherever it is. -/
  shared : ∃ column : Option Column,
    ((log events).filter Creation.shared).map Creation.made = column.toList.map .ok ∧
      ∀ e ∈ events, ∀ m, e.answer = .ok m → ∀ c ∈ m.snapshotColumn, column = some c

/-- From one context to a later one by the given creations. -/
structure Advances (ctx : Context) (creations : List Creation) (ctx' : Context) : Prop where
  orders : creations.map Creation.order = List.range' ctx.nextOrder creations.length
  nextOrder : ctx'.nextOrder = ctx.nextOrder + creations.length
  dated : ∀ creation ∈ creations, ∀ c ∈ creation.column?, c.order = creation.order
  standard : ∀ creation ∈ creations, creation.shared = true →
    creation.made = .ok (Column.snapshot creation.order)
  shared : ctx.snapshotColumn.toList.map .ok ++
    (creations.filter Creation.shared).map Creation.made = ctx'.snapshotColumn.toList.map .ok

section Steps

variable {ctx ctx' ctx'' : Context}

theorem Advances.refl (ctx : Context) : Advances ctx [] ctx where
  orders := rfl
  nextOrder := rfl
  dated := fun _ h => absurd h List.not_mem_nil
  standard := fun _ h => absurd h List.not_mem_nil
  shared := List.append_nil _

theorem Advances.trans {l m : List Creation} (h : Advances ctx l ctx')
    (h' : Advances ctx' m ctx'') : Advances ctx (l ++ m) ctx'' := by
  constructor
  · rw [List.map_append, h.orders, h'.orders, h.nextOrder, List.length_append,
      List.range'_append_1]
  · rw [h'.nextOrder, h.nextOrder, List.length_append, Nat.add_assoc]
  · intro creation hmem
    rcases List.mem_append.mp hmem with hmem | hmem
    · exact h.dated creation hmem
    · exact h'.dated creation hmem
  · intro creation hmem
    rcases List.mem_append.mp hmem with hmem | hmem
    · exact h.standard creation hmem
    · exact h'.standard creation hmem
  · rw [List.filter_append, List.map_append, ← List.append_assoc, h.shared, h'.shared]

theorem Advances.snapshotColumn {l : List Creation} {c : Column} (h : Advances ctx l ctx')
    (hc : ctx.snapshotColumn = some c) : ctx'.snapshotColumn = some c := by
  have hshared := h.shared
  rw [hc] at hshared
  cases hlast : ctx'.snapshotColumn with
  | none =>
    rw [hlast] at hshared
    cases hshared
  | some d =>
    rw [hlast] at hshared
    cases (List.cons.inj hshared).1
    rfl

theorem advances_withOrder {make : Nat → Except Fault Column}
    (hmake : ∀ order c, make order = .ok c → c.order = order) (ctx : Context) :
    Advances ctx [ctx.ownCreation make] (withOrder make ctx).2 := by
  refine ⟨rfl, rfl, ?_, ?_, List.append_nil _⟩
  · intro creation hmem c hc
    rw [List.mem_singleton.mp hmem] at hc ⊢
    rw [Creation.column?, Option.mem_def, except_toOption_eq_some_iff] at hc
    exact hmake _ c hc
  · intro creation hmem hshared
    rw [List.mem_singleton.mp hmem] at hshared
    cases hshared

theorem advances_trackedColumn (ctx : Context) :
    Advances ctx ctx.sharedCreations (trackedColumn ctx).2 := by
  cases h : ctx.snapshotColumn with
  | some c =>
    have hsame : (trackedColumn ctx).2 = ctx := by
      rw [trackedColumn, Context.snapshot, h]
    rw [sharedCreations, h, hsame]
    exact .refl ctx
  | none =>
    have hnext : (trackedColumn ctx).2 =
        ⟨ctx.nextOrder + 1, some (Column.snapshot ctx.nextOrder)⟩ := by
      rw [trackedColumn, Context.snapshot, h]
    rw [sharedCreations, h, hnext]
    refine ⟨rfl, rfl, ?_, ?_, ?_⟩
    · intro creation hmem c hc
      rw [List.mem_singleton.mp hmem] at hc ⊢
      cases hc
      rfl
    · intro creation hmem _
      rw [List.mem_singleton.mp hmem]
    · rw [h]
      rfl

theorem advances_create (name : Text) (tracked : Bool) (ctx : Context) :
    Advances ctx (ctx.tableCreations name tracked) (Table.create name tracked ctx).2 := by
  rw [tableCreations, Table.create, bind_run]
  cases normalizeName "Table" name with
  | error fault => exact .refl ctx
  | ok proper =>
    cases tracked with
    | false => exact .refl ctx
    | true => exact advances_trackedColumn ctx

/-- Attributes are set without the context. -/
theorem advances_tableFrom (attributes : Attributes) (tracked : Bool) (ctx : Context) :
    Advances ctx (ctx.tableFromCreations attributes tracked)
      (Table.createFrom attributes tracked ctx).2 := by
  cases hname : firstValue? "name" attributes with
  | none =>
    rw [tableFromCreations, Table.createFrom, hname]
    exact .refl ctx
  | some name =>
    rw [tableFromCreations, Table.createFrom, hname, snd_bind_lift]
    exact advances_create name tracked ctx

theorem advances_addColumns (t : Table) (elements : List Element) (ctx : Context) :
    Advances ctx (ctx.columnCreations elements) (addColumns t elements ctx).2 := by
  induction elements generalizing t ctx with
  | nil => exact .refl ctx
  | cons e rest ih =>
    have hfirst : Advances ctx [ctx.ownCreation (Column.ofAttributes (columnAttributes e))]
        { ctx with nextOrder := ctx.nextOrder + 1 } :=
      advances_withOrder (fun _ _ => Column.order_of_ofAttributes) ctx
    rw [columnCreations, addColumns_cons]
    cases Column.ofAttributes (columnAttributes e) ctx.nextOrder with
    | error fault => exact hfirst
    | ok c => exact hfirst.trans (ih (t.addColumn c) _)

theorem advances_tableOf (tracked : Bool) (e : Element) (ctx : Context) :
    Advances ctx (ctx.descriptionCreations tracked e) (tableOf tracked e ctx).2 := by
  have htable := advances_tableFrom e.attributeValues tracked ctx
  rw [descriptionCreations, tableOf, bind_run]
  generalize Table.createFrom e.attributeValues tracked ctx = created at htable ⊢
  obtain ⟨_ | t, next⟩ := created
  · rw [List.append_nil]
    exact htable
  · refine htable.trans ?_
    rw [snd_bind_lift]
    exact advances_addColumns _ _ next

theorem advances_make (r : Request) (ctx : Context) :
    Advances ctx (r.creations ctx) (r.make ctx).2 := by
  cases r with
  | column name dataType =>
    rw [Request.make, snd_map]
    exact advances_withOrder (fun _ _ => Column.order_of_ofNameAndType) ctx
  | columnFrom attributes =>
    rw [Request.make, snd_map]
    exact advances_withOrder (fun _ _ => Column.order_of_ofAttributes) ctx
  | snapshot =>
    rw [Request.make, snd_map]
    exact advances_trackedColumn ctx
  | table name tracked =>
    rw [Request.make, snd_map]
    exact advances_create name tracked ctx
  | tableFrom attributes tracked =>
    rw [Request.make, snd_map]
    exact advances_tableFrom attributes tracked ctx
  | describe path text tracked =>
    rw [Request.make, snd_map, Request.creations, parseTable]
    cases document? text with
    | none => exact .refl ctx
    | some root =>
      change Advances ctx (if describesTable root then _ else _) (tableOf? tracked root ctx).2
      rw [tableOf?]
      split
      · rw [snd_map]
        exact advances_tableOf tracked root ctx
      · exact .refl ctx

end Steps

section Answers

variable {ctx ctx' : Context} {tracked : Bool} {t : Table}

/-- A table with columns that were made for it, and with the shared column if it is tracked. -/
structure Builds (ctx : Context) (creations : List Creation) (tracked : Bool) (t : Table)
    (ctx' : Context) : Prop where
  made : ∀ c ∈ t.columns.toList, ∃ creation ∈ creations,
    creation.shared = false ∧ creation.made = .ok c
  snapshotColumn : t.snapshotColumn = if tracked then some ctx.snapshot.1 else none
  context : tracked = true → ctx'.snapshotColumn = some ctx.snapshot.1

theorem Builds.isTracked {l : List Creation} (h : Builds ctx l tracked t ctx') :
    t.isTracked = tracked := by
  rw [Table.isTracked, h.snapshotColumn]
  cases tracked <;> rfl

theorem Builds.shared {l : List Creation} {c : Column} (h : Builds ctx l tracked t ctx')
    (hc : t.snapshotColumn = some c) : ctx'.snapshotColumn = some c := by
  rw [h.snapshotColumn] at hc
  cases tracked with
  | false => cases hc
  | true => rw [h.context rfl, ← hc, if_pos rfl]

theorem snapshotColumn_trackedColumn (ctx : Context) :
    (trackedColumn ctx).2.snapshotColumn = some ctx.snapshot.1 := by
  cases h : ctx.snapshotColumn with
  | none => simp only [trackedColumn, Context.snapshot, h]
  | some c => simp only [trackedColumn, Context.snapshot, h]

theorem builds_of_columns {l : List Creation} (hcolumns : t.columns = {})
    (hsnapshot : t.snapshotColumn = if tracked then some ctx.snapshot.1 else none)
    (hctx : ctx' = if tracked then (trackedColumn ctx).2 else ctx) :
    Builds ctx l tracked t ctx' := by
  refine ⟨fun c hc => ?_, hsnapshot, fun htracked => ?_⟩
  · rw [hcolumns] at hc
    exact absurd hc List.not_mem_nil
  · rw [hctx, if_pos htracked, snapshotColumn_trackedColumn]

/-- Each column of a table was there before or is one of those made for the elements. -/
theorem made_of_addColumns {elements : List Element} {u : Table}
    (h : addColumns t elements ctx = (.ok u, ctx')) :
    ∀ c ∈ u.columns.toList, c ∈ t.columns.toList ∨
      ∃ creation ∈ ctx.columnCreations elements,
        creation.shared = false ∧ creation.made = .ok c := by
  induction elements generalizing t ctx with
  | nil =>
    cases h
    exact fun c hc => Or.inl hc
  | cons e rest ih =>
    rw [addColumns_cons] at h
    rw [columnCreations]
    cases hmade : Column.ofAttributes (columnAttributes e) ctx.nextOrder with
    | error fault =>
      rw [hmade] at h
      cases h
    | ok d =>
      rw [hmade] at h
      intro c hc
      rcases ih h c hc with hold | ⟨creation, hmem, hcreation⟩
      · rcases List.mem_cons.mp ((ColumnSet.place_perm d _).mem_iff.mp hold) with rfl | hold
        · exact Or.inr ⟨_, List.mem_cons_self, rfl, hmade⟩
        · exact Or.inl (List.mem_filter.mp hold).1
      · exact Or.inr ⟨creation, List.mem_cons_of_mem _ hmem, hcreation⟩

theorem builds_of_tableOf {e : Element} (h : tableOf tracked e ctx = (.ok t, ctx')) :
    Builds ctx (ctx.descriptionCreations tracked e) tracked t ctx' := by
  obtain ⟨created, next, filled, hcreate, hfill, hindexes⟩ := tableOf_eq_ok h
  obtain ⟨hcolumns, hsnapshot, hnext⟩ := Table.columns_of_createFrom hcreate
  have hbuilds : Builds ctx [] tracked created next := builds_of_columns hcolumns hsnapshot hnext
  refine ⟨fun c hc => ?_, (columns_of_tableOf h).1, fun htracked => ?_⟩
  · obtain ⟨indexes, rfl⟩ := addIndexes_eq_ok hindexes
    rcases made_of_addColumns hfill c hc with hold | ⟨creation, hmem, hcreation⟩
    · rw [(columns_withDocumentation created e).1, hcolumns] at hold
      exact absurd hold List.not_mem_nil
    · refine ⟨creation, ?_, hcreation⟩
      rw [descriptionCreations, hcreate]
      exact List.mem_append_right _ hmem
  · have hadvances := advances_addColumns (withDocumentation created e)
      (members "columns" "column" e) next
    rw [hfill] at hadvances
    exact hadvances.snapshotColumn (hbuilds.context htracked)

theorem describe_eq_ok {path : Path} {text : Text} {m : Made}
    (h : (Request.describe path text tracked).make ctx = (.ok m, ctx')) :
    m = .nothing ∨ ∃ t, m = .table t ∧
      Builds ctx ((Request.describe path text tracked).creations ctx) tracked t ctx' := by
  obtain ⟨t?, hparse, rfl⟩ := map_eq_ok_iff.mp h
  obtain ⟨root, hroot, hparse⟩ := parseTable_eq_tableOf? hparse
  unfold tableOf? at hparse
  split at hparse
  next hdescribes =>
    obtain ⟨t, htable, rfl⟩ := map_eq_ok_iff.mp hparse
    refine Or.inr ⟨t, rfl, ?_⟩
    rw [Request.creations, hroot]
    change Builds ctx (if describesTable root then _ else _) tracked t ctx'
    rw [if_pos hdescribes]
    exact builds_of_tableOf htable
  next =>
    obtain ⟨rfl, _⟩ := pure_eq_ok_iff.mp hparse
    exact Or.inl rfl

/-- What a request gives: nothing, a column made for it, the shared column, or a table. -/
inductive Gives (ctx : Context) (r : Request) (ctx' : Context) : Made → Prop
  | nothing : Gives ctx r ctx' .nothing
  | column (c : Column) (creation : Creation) (hmem : creation ∈ r.creations ctx)
    (hshared : creation.shared = false) (hmade : creation.made = .ok c) :
    Gives ctx r ctx' (.column c)
  | snapshot (c : Column) (hc : ctx'.snapshotColumn = some c) : Gives ctx r ctx' (.snapshot c)
  | table (t : Table) (h : Builds ctx (r.creations ctx) r.isTracked t ctx') :
    Gives ctx r ctx' (.table t)

theorem gives_of_make {r : Request} {m : Made} (h : r.make ctx = (.ok m, ctx')) :
    Gives ctx r ctx' m := by
  cases r with
  | column name dataType =>
    obtain ⟨c, hcreate, rfl⟩ := map_eq_ok_iff.mp h
    exact .column c _ (List.mem_singleton.mpr rfl) rfl (Prod.mk.inj hcreate).1
  | columnFrom attributes =>
    obtain ⟨c, hcreate, rfl⟩ := map_eq_ok_iff.mp h
    exact .column c _ (List.mem_singleton.mpr rfl) rfl (Prod.mk.inj hcreate).1
  | snapshot =>
    obtain ⟨c, htracked, rfl⟩ := map_eq_ok_iff.mp h
    cases htracked
    exact .snapshot _ (snapshotColumn_trackedColumn ctx)
  | table name tracked =>
    obtain ⟨t, hcreate, rfl⟩ := map_eq_ok_iff.mp h
    obtain ⟨proper, _, rfl, hctx⟩ := Table.create_eq_ok hcreate
    exact .table _ (builds_of_columns rfl rfl hctx)
  | tableFrom attributes tracked =>
    obtain ⟨t, hcreate, rfl⟩ := map_eq_ok_iff.mp h
    obtain ⟨hcolumns, hsnapshot, hctx⟩ := Table.columns_of_createFrom hcreate
    exact .table t (builds_of_columns hcolumns hsnapshot hctx)
  | describe path text tracked =>
    rcases describe_eq_ok h with rfl | ⟨t, rfl, hbuilds⟩
    · exact .nothing
    · exact .table t hbuilds

variable {r : Request} {m : Made}

theorem Gives.made (h : Gives ctx r ctx' m) : ∀ c ∈ m.ownColumns,
    ∃ creation ∈ r.creations ctx, creation.shared = false ∧ creation.made = .ok c := by
  intro c hc
  cases h with
  | nothing => exact absurd hc List.not_mem_nil
  | column d creation hmem hshared hmade =>
    rw [List.mem_singleton.mp hc]
    exact ⟨creation, hmem, hshared, hmade⟩
  | snapshot d _ => exact absurd hc List.not_mem_nil
  | table t hbuilds => exact hbuilds.made c hc

theorem Gives.shared (h : Gives ctx r ctx' m) :
    ∀ c ∈ m.snapshotColumn, ctx'.snapshotColumn = some c := by
  intro c hc
  cases h with
  | nothing => cases hc
  | column d => cases hc
  | snapshot d hd =>
    cases hc
    exact hd
  | table t hbuilds => exact hbuilds.shared hc

end Answers

section Runs

theorem advances_events (ctx : Context) (requests : List Request) :
    Advances ctx (log (ctx.events requests)) (ctx.after requests) := by
  induction requests generalizing ctx with
  | nil => exact .refl ctx
  | cons r rest ih => exact (advances_make r ctx).trans (ih _)

/-- The shared column, once it is made, is the standard one. -/
theorem snapshotColumn_after {requests : List Request} {c : Column}
    (hc : (({} : Context).after requests).snapshotColumn = some c) :
    ∃ k, c = Column.snapshot k := by
  have hadvances := advances_events {} requests
  have hmem : .ok c ∈ ((log (({} : Context).events requests)).filter Creation.shared).map
      Creation.made := by
    have hshared := hadvances.shared
    rw [hc] at hshared
    change [] ++ _ = _ at hshared
    rw [← List.nil_append (List.map _ _), hshared]
    exact List.mem_singleton.mpr rfl
  obtain ⟨creation, hcreation, hmade⟩ := List.mem_map.mp hmem
  obtain ⟨hlogged, hshared⟩ := List.mem_filter.mp hcreation
  rw [hadvances.standard creation hlogged hshared] at hmade
  exact ⟨creation.order, (Except.ok.inj hmade).symm⟩

/-- Each event is that of a request in the context that the earlier ones have led to. -/
theorem mem_events {ctx : Context} {requests : List Request} {e : Event}
    (h : e ∈ ctx.events requests) : ∃ earlier r later,
      requests = earlier ++ r :: later ∧ e = (ctx.after earlier).event r := by
  induction requests generalizing ctx with
  | nil => exact absurd h List.not_mem_nil
  | cons r rest ih =>
    rcases List.mem_cons.mp h with rfl | h
    · exact ⟨[], r, rest, rfl, rfl⟩
    · obtain ⟨earlier, s, later, rfl, rfl⟩ := ih h
      exact ⟨r :: earlier, s, later, rfl, rfl⟩

theorem gives_of_mem {ctx : Context} {requests : List Request} {e : Event} {m : Made}
    (h : e ∈ ctx.events requests) (hm : e.answer = .ok m) : ∃ before next,
      e.creations = e.request.creations before ∧ Gives before e.request next m ∧
        ∀ c ∈ m.snapshotColumn, (ctx.after requests).snapshotColumn = some c := by
  obtain ⟨earlier, r, later, rfl, rfl⟩ := mem_events h
  have hgives : Gives (ctx.after earlier) r (r.make (ctx.after earlier)).2 m :=
    gives_of_make (Prod.ext hm rfl)
  refine ⟨ctx.after earlier, _, rfl, hgives, fun c hc => ?_⟩
  -- what comes later leaves the shared column as it is
  rw [after, List.foldl_append]
  exact (advances_events _ later).snapshotColumn (hgives.shared c hc)

theorem pairwise_order {events : List Event}
    (h : (log events).map Creation.order = List.range (log events).length) :
    (log events).Pairwise fun c d => c.order < d.order := by
  rw [← List.pairwise_map, h]
  exact List.pairwise_lt_range

theorem order_lt {events : List Event}
    (h : (log events).map Creation.order = List.range (log events).length) :
    ∀ creation ∈ log events, creation.order < (log events).length := by
  intro creation hmem
  rw [← List.mem_range, ← h]
  exact List.mem_map_of_mem hmem

theorem orderly_events (requests : List Request) : Orderly (({} : Context).events requests) := by
  have hadvances := advances_events {} requests
  have horders : (log (({} : Context).events requests)).map Creation.order =
      List.range (log (({} : Context).events requests)).length := by
    rw [hadvances.orders, List.range_eq_range']
  have hpairwise := pairwise_order horders
  refine ⟨horders, hadvances.dated, ?_, ?_, ?_, ?_, ?_⟩
  · rw [List.pairwise_filterMap]
    refine hpairwise.imp_of_mem fun {a b} ha hb hlt c hc d hd => ?_
    rw [Column.Older, hadvances.dated a ha c hc, hadvances.dated b hb d hd]
    exact hlt
  · intro hsize
    rw [List.pairwise_map]
    refine hpairwise.imp_of_mem fun {a b} ha hb hlt => ?_
    have ha' := order_lt horders a ha
    have hb' := order_lt horders b hb
    rw [UInt64.lt_iff_toNat_lt, UInt64.toNat_ofNat_of_lt' (by omega),
      UInt64.toNat_ofNat_of_lt' (by omega)]
    exact hlt
  · intro e he m hm
    obtain ⟨before, next, hcreations, hgives, _⟩ := gives_of_mem he hm
    rw [hcreations]
    exact hgives.made
  · intro e he t ht
    obtain ⟨before, next, _, hgives, _⟩ := gives_of_mem he ht
    cases hgives with
    | table _ hbuilds => exact hbuilds.isTracked
  · refine ⟨(({} : Context).after requests).snapshotColumn, hadvances.shared, ?_⟩
    intro e he m hm
    obtain ⟨_, _, _, _, hshared⟩ := gives_of_mem he hm
    exact hshared

/-- What happens in one of several contexts is what its own requests do to it. -/
theorem only_eventsAmong (contexts : Nat → Context) (requests : List (Nat × Request)) (id : Nat) :
    only id (eventsAmong contexts requests) = (contexts id).events (only id requests) := by
  induction requests generalizing contexts with
  | nil => rfl
  | cons request rest ih =>
    obtain ⟨other, r⟩ := request
    have htail := ih (Function.update contexts other (r.make (contexts other)).2)
    by_cases h : other = id
    · subst h
      rw [Function.update_self] at htail
      simp only [only, eventsAmong, events, List.filterMap_cons, if_true]
      exact congrArg _ htail
    · rw [Function.update_of_ne (Ne.symm h)] at htail
      simp only [only, eventsAmong, List.filterMap_cons, if_neg h]
      exact htail

/-- Requests are made of any number of new contexts in any order. What each of them does is settled
by the requests made of it alone. Its counter stands at the number of creations, and these are
orderly. -/
theorem orderly_of_requests (requests : List (Nat × Request)) (id : Nat) :
    only id (eventsAmong (fun _ => {}) requests) = ({} : Context).events (only id requests) ∧
      (({} : Context).after (only id requests)).nextOrder =
        (log (only id (eventsAmong (fun _ => {}) requests))).length ∧
      Orderly (only id (eventsAmong (fun _ => {}) requests)) := by
  have hown := only_eventsAmong (fun _ => {}) requests id
  have hcounter := (advances_events {} (only id requests)).nextOrder
  rw [hown]
  exact ⟨rfl, hcounter.trans (Nat.zero_add _), orderly_events _⟩

end Runs

end SchemaPackage.Context
