import SchemaPackage.Proofs.Table.IndexOrigins

/-!
Described tables. An element describes a table by what is done to a new one: the documentation is
set, and then the columns and indexes are added. So what holds of all tables that operations lead to
holds of a described one; and as nothing renames it, its indexes are all its own.
-/
namespace SchemaPackage.Description

open Markup Outcome Table

theorem addColumns_eq_run {elements : List Element} {t u : Table} {ctx ctx' : Context}
    (h : addColumns t elements ctx = (.ok u, ctx')) :
    ∃ columns : List Column, u = t.run (columns.map .addColumn) := by
  induction elements generalizing t ctx with
  | nil =>
    cases h
    exact ⟨[], rfl⟩
  | cons e rest ih =>
    obtain ⟨c, next, _, hrest⟩ := bind_eq_ok_iff.mp h
    obtain ⟨columns, hcolumns⟩ := ih hrest
    exact ⟨c :: columns, hcolumns⟩

theorem addIndexes_eq_run {elements : List Element} {t u : Table}
    (h : addIndexes t elements = .ok u) :
    ∃ indexes : List Index, u = t.run (indexes.map .addIndex) := by
  induction elements generalizing t with
  | nil =>
    cases h
    exact ⟨[], rfl⟩
  | cons e rest ih =>
    obtain ⟨next, he, hrest⟩ := addIndexes_cons_eq_ok h
    obtain ⟨indexes, hindexes⟩ := ih hrest
    rcases addIndexElement_eq_ok he with ⟨_, rfl⟩ | ⟨_, _, i, _, _, hadd⟩
    · exact ⟨indexes, hindexes⟩
    · refine ⟨i :: indexes, ?_⟩
      have hnext : (t.perform (.addIndex i)).1 = next := by
        rw [perform, hadd]
        rfl
      rw [List.map_cons, run, List.foldl_cons, hnext]
      exact hindexes

theorem withDocumentation_eq_run (t : Table) (e : Element) :
    ∃ texts : List Text, withDocumentation t e = t.run (texts.map (.set .documentation)) := by
  unfold withDocumentation
  split
  next documentation _ => exact ⟨[documentation], rfl⟩
  next => exact ⟨[], rfl⟩

/-- The operations that an element describes a table by. -/
def descriptionSteps (texts : List Text) (columns : List Column) (indexes : List Index) :
    List Operation :=
  texts.map (.set .documentation) ++ (columns.map .addColumn ++ indexes.map .addIndex)

theorem tableOf_eq_run {tracked : Bool} {e : Element} {t : Table} {ctx ctx' : Context}
    (hctx : ctx.Reachable) (h : tableOf tracked e ctx = (.ok t, ctx')) :
    ∃ created texts columns indexes,
      Created created ∧ t = created.run (descriptionSteps texts columns indexes) := by
  obtain ⟨created, ctx₁, filled, hcreate, hfill, hindexes⟩ := tableOf_eq_ok h
  obtain ⟨texts, htexts⟩ := withDocumentation_eq_run created e
  obtain ⟨columns, hcolumns⟩ := addColumns_eq_run hfill
  obtain ⟨indexes, hlast⟩ := addIndexes_eq_run hindexes
  refine ⟨created, texts, columns, indexes, .createFrom hctx hcreate, ?_⟩
  rw [descriptionSteps, run_append, run_append, ← htexts, ← hcolumns, ← hlast]

theorem reached_of_tableOf {tracked : Bool} {e : Element} {t : Table} {ctx ctx' : Context}
    (hctx : ctx.Reachable) (h : tableOf tracked e ctx = (.ok t, ctx')) : Reached t := by
  obtain ⟨created, texts, columns, indexes, hcreated, ht⟩ := tableOf_eq_run hctx h
  exact ⟨created, _, hcreated, ht⟩

theorem name_perform_of_mem_descriptionSteps {texts : List Text} {columns : List Column}
    {indexes : List Index} {o : Operation} (ho : o ∈ descriptionSteps texts columns indexes)
    (u : Table) : (u.perform o).1.name = u.name := by
  rcases List.mem_append.mp ho with ho | ho
  · obtain ⟨text, _, rfl⟩ := List.mem_map.mp ho
    rfl
  · rcases List.mem_append.mp ho with ho | ho
    · obtain ⟨c, _, rfl⟩ := List.mem_map.mp ho
      rfl
    · obtain ⟨i, _, rfl⟩ := List.mem_map.mp ho
      exact name_perform_addIndex u i

/-- The indexes of a described table are for the table by its own name. -/
theorem tableName_of_tableOf {tracked : Bool} {e : Element} {t : Table} {ctx ctx' : Context}
    (hctx : ctx.Reachable) (h : tableOf tracked e ctx = (.ok t, ctx')) :
    ∀ j ∈ t.indexes, j.tableName = some t.name := by
  obtain ⟨created, texts, columns, indexes, hcreated, rfl⟩ := tableOf_eq_run hctx h
  intro j hj
  obtain ⟨before, i, after, hsplit, rfl⟩ := exists_addIndex hcreated _ j hj
  have hname : (created.run before).name =
      (created.run (descriptionSteps texts columns indexes)).name :=
    name_settled (fun _ => List.not_mem_nil)
      (fun o ho u => name_perform_of_mem_descriptionSteps ho u) hsplit
  exact congrArg some hname

end SchemaPackage.Description
