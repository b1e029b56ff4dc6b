import Mathlib.Data.List.Forall2
import SchemaPackage.Artifacts
import SchemaPackage.Proofs.Outcome

/-!
Tables that are rendered side by side. If all of them can be rendered, there are artifacts for each,
in the order of the tables. If not, the fault that is reported is that of some table, whichever is
chosen.
-/
namespace SchemaPackage

open Outcome

namespace FaultChoice

variable {α : Type} {choice : FaultChoice} {outcomes : List (Except Fault α)}

theorem eq_map_ok (h : outcomes.filterMap fault? = []) :
    outcomes = (outcomes.filterMap Except.toOption).map .ok := by
  induction outcomes with
  | nil => rfl
  | cons outcome rest ih =>
    cases outcome with
    | ok a => exact congrArg (Except.ok a :: ·) (ih h)
    | error fault => cases h

theorem collect_eq_ok_iff {made : List α} :
    choice.collect outcomes = .ok made ↔ outcomes = made.map .ok := by
  constructor
  · intro h
    unfold collect at h
    split at h
    next hnone =>
      obtain rfl := Except.ok.inj h
      exact eq_map_ok hnone
    next => cases h
  · rintro rfl
    have hnone : (made.map .ok : List (Except Fault α)).filterMap fault? = [] := by
      simp [fault?]
    rw [collect, hnone, List.filterMap_map]
    exact congrArg Except.ok List.filterMap_some

/-- The fault that is reported is one of those that there are. -/
theorem mem_of_collect_eq_error {fault : Fault} (h : choice.collect outcomes = .error fault) :
    .error fault ∈ outcomes := by
  unfold collect at h
  split at h
  next => cases h
  next first more hfaults =>
    obtain rfl := Except.error.inj h
    have hmem := choice.mem first more
    rw [← hfaults, List.mem_filterMap] at hmem
    obtain ⟨outcome, hmem, hfault⟩ := hmem
    cases outcome with
    | ok a => cases hfault
    | error fault =>
      obtain rfl := Option.some.inj hfault
      exact hmem

/-- The choice makes a difference only if something has gone wrong, and then there are two faults to
choose from. -/
theorem collect_cases (choice choice' : FaultChoice) (outcomes : List (Except Fault α)) :
    choice'.collect outcomes = choice.collect outcomes ∨
      ∃ fault fault', choice.collect outcomes = .error fault ∧
        choice'.collect outcomes = .error fault' ∧
        .error fault ∈ outcomes ∧ .error fault' ∈ outcomes := by
  cases h : choice.collect outcomes with
  | ok made => exact Or.inl (collect_eq_ok_iff.mpr (collect_eq_ok_iff.mp h))
  | error fault =>
    cases h' : choice'.collect outcomes with
    | ok made =>
      rw [collect_eq_ok_iff.mpr (collect_eq_ok_iff.mp h')] at h
      cases h
    | error fault' =>
      exact Or.inr ⟨fault, fault', rfl, rfl, mem_of_collect_eq_error h, mem_of_collect_eq_error h'⟩

end FaultChoice

namespace Artifacts

variable {e : Encoder} {tables : List Table} {artifacts : List Artifacts} {choice : FaultChoice}

/-- Rendering all tables is rendering each of them. -/
theorem forall₂_of_renderAll (h : renderAll e tables choice = .ok artifacts) :
    List.Forall₂ (fun t a => render e t = .ok a) tables artifacts := by
  have hmap : List.Forall₂ (· = ·) (tables.map (render e)) (artifacts.map .ok) := by
    rw [List.forall₂_eq_eq_eq]
    exact FaultChoice.collect_eq_ok_iff.mp h
  rwa [List.forall₂_map_left_iff, List.forall₂_map_right_iff] at hmap

/-- What a table is rendered to. -/
theorem render_eq_ok {t : Table} {a : Artifacts} (h : render e t = .ok a) :
    ∃ controlFile objectRecord columnRecords indexRecords,
      t.controlFile = .ok controlFile ∧ t.objectRecord e = .ok objectRecord ∧
      t.columnRecords e = .ok columnRecords ∧ t.indexRecordText e = .ok indexRecords ∧
      a = {
        name := t.name
        tableStatement := t.statement
        indexStatements := if t.indexes.isEmpty then none else some t.indexStatements
        controlFile, objectRecord, columnRecords, indexRecords } := by
  obtain ⟨controlFile, hcontrol, hrest₁⟩ := except_bind_eq_ok_iff.mp h
  obtain ⟨objectRecord, hobject, hrest₂⟩ := except_bind_eq_ok_iff.mp hrest₁
  obtain ⟨columnRecords, hcolumns, hrest₃⟩ := except_bind_eq_ok_iff.mp hrest₂
  obtain ⟨indexRecords, hindexes, hmade⟩ := except_bind_eq_ok_iff.mp hrest₃
  exact ⟨_, _, _, _, hcontrol, hobject, hcolumns, hindexes, (Except.ok.inj hmade).symm⟩

end Artifacts

end SchemaPackage
