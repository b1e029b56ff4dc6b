import Mathlib.Data.List.Forall2
import SchemaPackage.Proofs.Dictionary.Calls

/-!
An encoder that works each thing out once: the defaults when a table is registered, and the layout
when the first record asks for it. What it has kept always belongs to the table in force, so no
sequence of calls can tell it from an encoder that keeps nothing but the tables.
-/
namespace SchemaPackage

/-- What is kept about one dictionary table. -/
structure Slot where
  table : Option Table := none
  defaults : Attributes := []
  layout : Option Layout := none

structure CachingEncoder where
  objects : Slot := {}
  tableColumns : Slot := {}
  order : ColumnOrder := .creation

namespace CachingEncoder

open Encoder (Call)

def slot (c : CachingEncoder) : Dictionary → Slot
  | .objects => c.objects
  | .tableColumns => c.tableColumns

def setSlot (c : CachingEncoder) (d : Dictionary) (s : Slot) : CachingEncoder :=
  match d with
  | .objects => { c with objects := s }
  | .tableColumns => { c with tableColumns := s }

/-- A new registration gives up the layout kept so far. -/
def register (c : CachingEncoder) (d : Dictionary) (t : Table) : Except Fault CachingEncoder :=
  if t.name ≠ d.tableName then .error (.wrongDictionary d.tableName t.name)
  else
    let next := c.setSlot d
      { table := some t, defaults := Encoder.defaults (c.order.columns t), layout := none }
    match (c.slot d).table with
    | none => .ok next
    | some old =>
      if Layout.ofTable old = Layout.ofTable t then .ok next
      else .error (.changedLayout d.tableName)

/-- The layout in force, which is kept from now on. -/
def layout? (c : CachingEncoder) (d : Dictionary) : Option Layout × CachingEncoder :=
  match (c.slot d).table with
  | none => (none, c)
  | some t =>
    match (c.slot d).layout with
    | some layout => (some layout, c)
    | none =>
      (some (Layout.ofTable t), c.setSlot d { c.slot d with layout := some (Layout.ofTable t) })

def render (c : CachingEncoder) (d : Dictionary) (fields : Attributes) :
    Except Fault Text × CachingEncoder :=
  match c.layout? d with
  | (none, c) => (.error (.unregistered d.tableName), c)
  | (some layout, c) =>
    (layout.render ((fields ++ (c.slot d).defaults).map fun f => (f.1, escapeValue f.2)), c)

def records (c : CachingEncoder) (d : Dictionary) :
    List Attributes → Except Fault Text × CachingEncoder
  | [] => (.ok [], c)
  | fields :: rest =>
    match c.render d fields with
    | (.error fault, c) => (.error fault, c)
    | (.ok record, c) =>
      let (text, c) := c.records d rest
      (text.map (record ++ ·), c)

/-- The answer to a call, and the encoder that later calls meet. -/
def step (c : CachingEncoder) : Call → Except Fault Text × CachingEncoder
  | .register d t =>
    match c.register d t with
    | .ok next => (.ok [], next)
    | .error fault => (.error fault, c)
  | .objectRecord fields => c.render .objects fields
  | .columnRecords table columns => c.records .tableColumns (Encoder.columnFields table columns)

def answers (c : CachingEncoder) : List Call → List (Except Fault Text)
  | [] => []
  | call :: rest => (c.step call).1 :: answers (c.step call).2 rest

/-- Whatever is kept belongs to the table in force. -/
structure Represents (c : CachingEncoder) (e : Encoder) : Prop where
  order_eq : c.order = e.order
  table_eq : ∀ d, (c.slot d).table = e.table? d
  defaults_eq : ∀ d t, e.table? d = some t →
    (c.slot d).defaults = Encoder.defaults (e.order.columns t)
  layout_eq : ∀ d t layout, e.table? d = some t → (c.slot d).layout = some layout →
    layout = Layout.ofTable t

@[simp] theorem slot_setSlot_self (c : CachingEncoder) (d : Dictionary) (s : Slot) :
    (c.setSlot d s).slot d = s := by
  cases d <;> rfl

theorem slot_setSlot_of_ne (c : CachingEncoder) {d d' : Dictionary} (s : Slot) (h : d' ≠ d) :
    (c.setSlot d s).slot d' = c.slot d' := by
  cases d <;> cases d' <;> first | rfl | exact absurd rfl h

@[simp] theorem order_setSlot (c : CachingEncoder) (d : Dictionary) (s : Slot) :
    (c.setSlot d s).order = c.order := by
  cases d <;> rfl

/-- A slot whose contents belong to `t` may take the place of the one for `d`, once `t` is
registered. -/
theorem Represents.setSlot {c : CachingEncoder} {e : Encoder} (h : c.Represents e)
    (d : Dictionary) {s : Slot} {t : Table} (htable : s.table = some t)
    (hdefaults : s.defaults = Encoder.defaults (e.order.columns t))
    (hlayout : ∀ layout, s.layout = some layout → layout = Layout.ofTable t) :
    (c.setSlot d s).Represents (e.put d t) := by
  refine ⟨?_, ?_, ?_, ?_⟩
  · rw [order_setSlot, Encoder.order_put, h.order_eq]
  all_goals intro d'; by_cases hd : d' = d
  · subst d'
    rw [slot_setSlot_self, Encoder.table?_put_self, htable]
  · rw [slot_setSlot_of_ne c s hd, Encoder.table?_put_of_ne e t hd, h.table_eq]
  · subst d'
    intro t' ht'
    rw [Encoder.table?_put_self] at ht'
    cases ht'
    rw [slot_setSlot_self, Encoder.order_put, hdefaults]
  · rw [slot_setSlot_of_ne c s hd, Encoder.table?_put_of_ne e t hd, Encoder.order_put]
    exact h.defaults_eq d'
  · subst d'
    intro t' layout ht'
    rw [Encoder.table?_put_self] at ht'
    cases ht'
    rw [slot_setSlot_self]
    exact hlayout layout
  · rw [slot_setSlot_of_ne c s hd, Encoder.table?_put_of_ne e t hd]
    exact h.layout_eq d'

theorem Represents.register {c : CachingEncoder} {e : Encoder} (h : c.Represents e)
    (d : Dictionary) (t : Table) :
    (∃ fault, c.register d t = .error fault ∧ e.register d t = .error fault) ∨
    (∃ next, c.register d t = .ok next ∧ e.register d t = .ok (e.put d t) ∧
      next.Represents (e.put d t)) := by
  by_cases hname : t.name = d.tableName
  · have hnext := h.setSlot d
      (s := { table := some t, defaults := Encoder.defaults (c.order.columns t), layout := none })
      rfl (by rw [h.order_eq]) (by simp)
    cases hold : e.table? d with
    | none =>
      refine Or.inr ⟨_, ?_, ?_, hnext⟩
      · simp [CachingEncoder.register, hname, h.table_eq, hold]
      · simp [Encoder.register, hname, hold]
    | some old =>
      by_cases hlayout : Layout.ofTable old = Layout.ofTable t
      · refine Or.inr ⟨_, ?_, ?_, hnext⟩
        · simp [CachingEncoder.register, hname, h.table_eq, hold, hlayout]
        · simp [Encoder.register, hname, hold, hlayout]
      · refine Or.inl ⟨.changedLayout d.tableName, ?_, ?_⟩
        · simp [CachingEncoder.register, hname, h.table_eq, hold, hlayout]
        · simp [Encoder.register, hname, hold, hlayout]
  · refine Or.inl ⟨.wrongDictionary d.tableName t.name, ?_, ?_⟩
    · simp [CachingEncoder.register, hname]
    · simp [Encoder.register, hname]

/-- A layout that is kept or worked out is the one of the table in force. -/
theorem Represents.layout? {c : CachingEncoder} {e : Encoder} (h : c.Represents e)
    (d : Dictionary) :
    (c.layout? d).1 = (e.table? d).map Layout.ofTable ∧ (c.layout? d).2.Represents e := by
  unfold CachingEncoder.layout?
  rw [h.table_eq]
  cases ht : e.table? d with
  | none => exact ⟨rfl, h⟩
  | some t =>
    cases hlayout : (c.slot d).layout with
    | some layout =>
      refine ⟨?_, h⟩
      rw [h.layout_eq d t layout ht hlayout]
      rfl
    | none =>
      refine ⟨rfl, ?_⟩
      have hput : e.put d t = e := by
        cases d <;> (rcases e with ⟨objects, tableColumns, order⟩; cases ht; rfl)
      have hnext := h.setSlot d (t := t)
        (s := { c.slot d with layout := some (Layout.ofTable t) })
        ((h.table_eq d).trans ht) (h.defaults_eq d t ht) (by simp)
      rwa [hput] at hnext

theorem Represents.render {c : CachingEncoder} {e : Encoder} (h : c.Represents e)
    (d : Dictionary) (fields : Attributes) :
    (c.render d fields).1 = e.render d fields ∧ (c.render d fields).2.Represents e := by
  obtain ⟨hlayout, hnext⟩ := h.layout? d
  unfold CachingEncoder.render Encoder.render
  generalize c.layout? d = r at hlayout hnext
  obtain ⟨layout, next⟩ := r
  cases ht : e.table? d with
  | none =>
    obtain rfl : layout = none := by simpa [ht] using hlayout
    exact ⟨rfl, hnext⟩
  | some t =>
    obtain rfl : layout = some (Layout.ofTable t) := by simpa [ht] using hlayout
    simp only [hnext.defaults_eq d t ht]
    exact ⟨trivial, hnext⟩

theorem Represents.records {c : CachingEncoder} {e : Encoder} (h : c.Represents e)
    (d : Dictionary) (all : List Attributes) :
    (c.records d all).1 = e.records d all ∧ (c.records d all).2.Represents e := by
  induction all generalizing c with
  | nil => exact ⟨rfl, h⟩
  | cons fields rest ih =>
    obtain ⟨hrecord, hnext⟩ := h.render d fields
    unfold CachingEncoder.records Encoder.records
    generalize c.render d fields = r at hrecord hnext
    obtain ⟨outcome, next⟩ := r
    simp only at hrecord hnext
    subst hrecord
    cases e.render d fields with
    | error fault => exact ⟨rfl, hnext⟩
    | ok record =>
      obtain ⟨hrest, hlast⟩ := ih hnext
      exact ⟨by simp only [hrest], hlast⟩

/-- One call is answered alike, and leaves what is kept in accord with the tables. -/
theorem Represents.step {c : CachingEncoder} {e : Encoder} (h : c.Represents e) (call : Call) :
    (c.step call).1 = e.answer call ∧ (c.step call).2.Represents (e.after call) := by
  cases call with
  | objectRecord fields => exact h.render .objects fields
  | columnRecords table columns => exact h.records .tableColumns _
  | register d t =>
    rcases h.register d t with ⟨fault, hc, he⟩ | ⟨next, hc, he, hnext⟩
    · simp only [CachingEncoder.step, Encoder.answer, Encoder.after, hc, he]
      exact ⟨rfl, h⟩
    · simp only [CachingEncoder.step, Encoder.answer, Encoder.after, hc, he]
      exact ⟨rfl, hnext⟩

theorem Represents.answers {c : CachingEncoder} {e : Encoder} (h : c.Represents e)
    (calls : List Call) : c.answers calls = e.answers calls := by
  induction calls generalizing c e with
  | nil => rfl
  | cons call rest ih =>
    obtain ⟨hanswer, hnext⟩ := h.step call
    simp only [CachingEncoder.answers, Encoder.answers, hanswer, ih hnext]

end CachingEncoder

namespace Encoder

variable {order : ColumnOrder} {d : Dictionary} {calls : List Call} {first last : Table}

end Encoder

end SchemaPackage
