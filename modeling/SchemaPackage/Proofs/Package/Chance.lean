import SchemaPackage.Proofs.Dictionary.Reading
import SchemaPackage.Proofs.Package.Containment
import SchemaPackage.Proofs.Table.Unloadable

/-!
What a compilation leaves to chance. On one disk, two compilations that meet with different chance
do the same work. They leave the same disk and come to the same outcome, unless each reports a fault
of some table, since the tables are all rendered before anything is written. The order of the
columns is of no account either, as long as each column of a dictionary table has a field of its
own.
-/
namespace SchemaPackage

open Job Outcome Text

namespace Encoder

variable {e e' : Encoder}

/-- The same registrations, with the columns in another order. -/
def reorder (e : Encoder) (order : ColumnOrder) : Encoder := { e with order }

@[simp] theorem table?_reorder (e : Encoder) (order : ColumnOrder) (k : Dictionary) :
    (e.reorder order).table? k = e.table? k := by
  cases k <;> rfl

theorem put_reorder (e : Encoder) (order : ColumnOrder) (k : Dictionary) (t : Table) :
    (e.reorder order).put k t = (e.put k t).reorder order := by
  cases k <;> rfl

theorem register_reorder (e : Encoder) (order : ColumnOrder) (k : Dictionary) (t : Table) :
    (e.reorder order).register k t = (e.register k t).map (·.reorder order) := by
  unfold register
  rw [table?_reorder, put_reorder]
  split
  · rfl
  · split
    · rfl
    · split <;> rfl

theorem Valid.reorder (he : e.Valid) (order : ColumnOrder) : (e.reorder order).Valid := by
  intro k t ht
  rw [table?_reorder] at ht
  exact he k t ht

/-- Each default is found under a field of its own, in whatever order the columns are. -/
theorem render_reorder (he : e.Valid)
    (hdistinct : ∀ k t, e.table? k = some t →
      (t.columns.toList.map fun c => Text.lower c.name).Nodup) (order : ColumnOrder) :
    (e.reorder order).render = e.render := by
  funext k fields
  cases ht : e.table? k with
  | none => rw [render, render, table?_reorder, ht]
  | some t =>
    have hname : isDictionaryObject t.name = true := by
      rw [he k t ht]
      exact k.isDictionaryObject_tableName
    rw [render_eq_ok (he.reorder order) ((table?_reorder e order k).trans ht), render_eq_ok he ht,
      map_valueIn hname (hdistinct k t ht), map_valueIn hname (hdistinct k t ht)]

theorem records_congr (h : e'.render = e.render) (k : Dictionary) (all : List Attributes) :
    e'.records k all = e.records k all := by
  induction all with
  | nil => rfl
  | cons fields rest ih => rw [records, records, h, ih]

end Encoder

theorem Artifacts.render_congr {e e' : Encoder} (h : e'.render = e.render) :
    render e' = render e := by
  funext t
  have hobject : t.objectRecord e' = t.objectRecord e := congrFun (congrFun h _) _
  have hcolumns : t.columnRecords e' = t.columnRecords e := Encoder.records_congr h _ _
  have hindexes : t.indexRecordText e' = t.indexRecordText e := Encoder.records_congr h _ _
  rw [render, render, hobject, hcolumns, hindexes]

namespace Compile

open Package Disk

variable {settings : Settings} {chance : Chance} {staging db : Path} {e e' : Encoder} {d : Disk}

theorem generateTables_congr (h : e'.render = e.render) (choice : FaultChoice) (staging db : Path)
    (tracked : Bool) (ctx : Context) :
    generateTables choice e' staging db tracked ctx =
      generateTables choice e staging db tracked ctx := by
  simp only [generateTables, Artifacts.renderAll, Artifacts.render_congr h]

theorem generateUnits_congr (h : e'.render = e.render) (staging db : Path) :
    generateUnits e' staging db = generateUnits e staging db := by
  have hunit : addUnit e' = addUnit e := by
    funext source target db kind name
    simp only [addUnit, ProgramUnit.objectRecord, Encoder.objectRecord, h]
  have hunits : addUnits e' = addUnits e := by
    funext staging db kind
    rw [addUnits, addUnits, hunit]
  rw [generateUnits, generateUnits, hunits]

theorem writeUpgradeControl_reorder (e : Encoder) (order : ColumnOrder) (db : Path) :
    writeUpgradeControl (e.reorder order) db = writeUpgradeControl e db := by
  funext k
  simp only [writeUpgradeControl, Encoder.table?_reorder]

theorem registerAll_reorder (e : Encoder) (order : ColumnOrder) (staging : Path) (ctx : Context)
    (kinds : List Dictionary) : registerAll staging (e.reorder order) ctx kinds =
      (fun r => (r.1.reorder order, r.2)) <$> registerAll staging e ctx kinds := by
  induction kinds generalizing e ctx with
  | nil => rfl
  | cons k rest ih =>
    simp only [registerAll, map_bind]
    refine congrArg _ (funext fun parsed => ?_)
    obtain ⟨t?, next⟩ := parsed
    cases t? with
    | none => rfl
    | some t =>
      dsimp only
      rw [Encoder.register_reorder, map_bind]
      cases e.register k t with
      | error fault => rfl
      | ok registered => exact ih registered next

theorem valid_registerAll {ctx ctx' : Context} {kinds : List Dictionary} {d' : Disk}
    (he : e.Valid) (h : registerAll staging e ctx kinds d = (.ok (e', ctx'), d')) : e'.Valid := by
  induction kinds generalizing e ctx d with
  | nil =>
    cases h
    exact he
  | cons k rest ih =>
    obtain ⟨⟨t?, next⟩, _, _, hmatch⟩ := bind_eq_ok_iff.mp h
    cases t? with
    | none => exact absurd hmatch throw_ne_ok
    | some t =>
      obtain ⟨registered, _, hlift, hmore⟩ := bind_eq_ok_iff.mp hmatch
      exact ih (he.register (lift_eq_ok_iff.mp hlift).1) hmore

/-- A fault that one choice may report and another one may not. It is the fault of a table. -/
def InDoubt (settings : Settings) (chance : Chance) (staged : Disk) (fault : Fault) : Prop :=
  chance.choice ≠ settings.chance.choice ∧
    ∃ t, Described settings staged t ∧ t.controlFile = .error fault

/-- Each column of a dictionary table has a field of its own. -/
def HasOwnFields (settings : Settings) (staged : Disk) : Prop :=
  ∀ k t, DescribesDictionary staged (settings.target.join "DB_STAGING") k t →
    (t.columns.toList.map fun c => Text.lower c.name).Nodup

theorem sameButFault_generateTables {ctx : Context} (he : e.Valid)
    (hregistered : ∀ k, (e.table? k).isSome = true) (hctx : ctx.Reachable) (db : Path) :
    SameButFault (InDoubt settings chance d)
      (generateTables settings.chance.choice e (settings.target.join "DB_STAGING") db
        settings.tracked ctx d)
      (generateTables chance.choice e (settings.target.join "DB_STAGING") db
        settings.tracked ctx d) := by
  by_cases hchoice : chance.choice = settings.chance.choice
  · rw [hchoice]
    exact SameButFault.refl _
  refine SameButFault.bind (.refl _) fun names d₁ hnames => ?_
  obtain ⟨rfl, rfl⟩ := descriptionNames_eq_ok hnames
  refine SameButFault.bind (.refl _) fun tables d₁ hparse => ?_
  obtain ⟨hsame, parsed, hparsed, htables⟩ := parseTables_eq_ok hctx hparse
  obtain rfl := hsame.symm
  refine SameButFault.bind (sameButFault_lift ?_ _) fun _ _ _ => .refl _
  have hdoubt {fault : Fault} (h : .error fault ∈ tables.map (Artifacts.render e)) :
      InDoubt settings chance d fault := by
    obtain ⟨t, ht, hfault⟩ := List.mem_map.mp h
    exact ⟨hchoice, t, ⟨tables, ⟨_, parsed, lists_descriptions _ _, hparsed, htables⟩, ht⟩,
      (Artifacts.render_eq_error_iff_controlFile he hregistered).mp hfault⟩
  unfold Artifacts.renderAll
  rcases FaultChoice.collect_cases settings.chance.choice chance.choice
    (tables.map (Artifacts.render e)) with hcollect | ⟨_, _, hfault, hfault', hmem, hmem'⟩
  · rw [hcollect]
    exact .same _
  · rw [hfault, hfault']
    exact .inDoubt (hdoubt hmem) (hdoubt hmem')

theorem sameButFault_fill (db : Path)
    (h : chance.order = settings.chance.order ∨ HasOwnFields settings d) :
    SameButFault (InDoubt settings chance d)
      (fill settings (settings.target.join "DB_STAGING") db d)
      (fill { settings with chance } (settings.target.join "DB_STAGING") db d) := by
  have hreorder : ({ order := chance.order } : Encoder) =
      ({ order := settings.chance.order } : Encoder).reorder chance.order := rfl
  unfold fill
  dsimp only
  rw [hreorder, registerAll_reorder, bind_map_left]
  refine SameButFault.bind (.refl _) fun registered d₁ hrun => ?_
  obtain ⟨e, ctx⟩ := registered
  obtain ⟨rfl, hctx, horder, hregistered⟩ := registerAll_eq_ok .new hrun
  have hvalid : e.Valid := valid_registerAll (Encoder.valid_empty _) hrun
  have htable (k : Dictionary) : Registered d₁ (settings.target.join "DB_STAGING") e k :=
    hregistered k (Or.inl k.mem_all)
  have hrender : (e.reorder chance.order).render = e.render := by
    rcases h with hsame | hown
    · have hkept : e.order = chance.order := horder.trans hsame.symm
      rw [← hkept]
      rfl
    · refine Encoder.render_reorder hvalid (fun k t ht => ?_) _
      obtain ⟨t', ht', hdescribed⟩ := htable k
      rw [ht', Option.some.injEq] at ht
      subst t'
      exact hown k t hdescribed
  dsimp only
  rw [generateTables_congr hrender, generateUnits_congr hrender, writeUpgradeControl_reorder]
  refine SameButFault.bind (sameButFault_generateTables hvalid (fun k => ?_) hctx db)
    fun _ _ _ => .refl _
  obtain ⟨t, ht, _⟩ := htable k
  rw [ht]
  rfl

/-- On one disk, chance decides at most which fault of a table is reported. -/
theorem sameButFault_run (moment : Moment)
    (h : chance.order = settings.chance.order ∨
      HasOwnFields settings (stagedDisk settings d)) :
    SameButFault (InDoubt settings chance (stagedDisk settings d))
      (run moment settings d) (run moment { settings with chance } d) := by
  rw [run_eq, run_eq]
  refine SameButFault.bind (.refl _) fun _ staged hprepare => ?_
  have hstaged : stagedDisk settings d = staged := by
    rw [stagedDisk_eq, hprepare]
  rw [hstaged] at h ⊢
  exact SameButFault.bind (sameButFault_fill _ h) fun _ _ _ => .refl _

end Compile
end SchemaPackage
