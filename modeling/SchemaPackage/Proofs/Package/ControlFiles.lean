import SchemaPackage.Proofs.Package.Clearing
import SchemaPackage.Proofs.Table.FieldLists

/-!
The control files of a finished package. Tables are written one after another, so of several control
files that go to one place the last one stays. Nothing that comes later touches it, except that the
upgrade of a dictionary table gets a control file of its own where there is none yet: it lists the
columns of the registered table, whose records the upgrade is loaded with.
-/
namespace SchemaPackage

open Job Outcome Text

namespace Compile

open Package Disk

variable {home l : Location} {db staging : Path} {e : Encoder} {d d' : Disk}

/-- The place of the control file for a table. -/
def controlPlace (home : Location) (db : Path) (table : Text) : Location :=
  (controlFile db table).place home

/-- Where control files are. -/
def IsControl (l : Location) : Prop := ∃ above name, ending name = "CTL" ∧ l = above ++ [name]

theorem isControl_controlPlace (home : Location) (db : Path) (table : Text) :
    IsControl (controlPlace home db table) := by
  obtain ⟨above, name, hplace, hending⟩ := exists_place_controlFile home db table
  exact ⟨above, name, hending, hplace⟩

theorem spares_isControl {ext : Text} (h : ext ≠ "CTL") : Spares IsControl ext := by
  rintro above name hname ⟨above', name', hname', heq⟩
  have hsame : name = name' := List.singleton_inj.mp (List.append_inj_right' heq rfl)
  rw [hsame, hname'] at hname
  exact h hname.symm

theorem ne_control_of_mem_extensions {kind : UnitKind} {ext : Text} (h : ext ∈ kind.extensions) :
    ext ≠ "CTL" := by
  have hall : ∀ ext ∈ kind.extensions, ext ≠ "CTL" := by
    cases kind <;> decide
  exact hall ext h

theorem not_isControl_recordsPlace (k : Dictionary) : ¬ IsControl (recordsPlace home db k) := by
  have hspares : Spares IsControl "DAT" := spares_isControl (by decide)
  rw [recordsPlace_eq]
  exact hspares _ _ (by cases k <;> decide)

theorem not_isControl_upgradePlace (k : Dictionary) : ¬ IsControl (upgradePlace home db k) := by
  have hspares : Spares IsControl "DAT" := spares_isControl (by decide)
  rw [upgradePlace_eq]
  exact hspares _ _ (by cases k <;> decide)

theorem fileAt?_of_write {p : Path} {text : Text} {u : Unit}
    (h : write p text d = (.ok u, d')) (l : Location) :
    d'.fileAt? l = if l = p.place d.home then some (.text text) else d.fileAt? l := by
  obtain ⟨_, hne, _, rfl⟩ := write?_eq_some (change_eq_ok h)
  exact fileAt?_put_file hne

/-- What a table has for the control file at a place. -/
def controlAt? (home : Location) (db : Path) (l : Location) (a : Artifacts) : Option Text :=
  if controlPlace home db a.name = l then a.controlFile else none

/-- Only the control file of a table is at a place for control files. -/
theorem fileAt?_of_addTable {a : Artifacts} {u : Unit} (hdb : db.WellFormed) (hd : d.Sound)
    (hl : IsControl l) (h : addTable db a d = (.ok u, d')) :
    d'.fileAt? l = ((controlAt? d.home db l a).map Content.text).or (d.fileAt? l) := by
  have hcontrolFile : (controlFile db a.name).WellFormed := (hdb.join _).join _
  have hstatements : Keeps d.home IsControl (writeStatements db a) :=
    keeps_writeStatements hdb (spares_isControl (by decide)) a
  have hnothing : Keeps d.home (fun _ => False)
      (a.controlFile.forM (write (controlFile db a.name))) :=
    keeps_optional (fun text => keeps_write hcontrolFile id text) _
  have hrecords : Keeps d.home IsControl (appendAll db a) :=
    keeps_appendAll hdb not_isControl_recordsPlace a
  rw [addTable_eq] at h
  obtain ⟨_, d₁, hwrite, hrest⟩ := bind_eq_ok_iff.mp h
  obtain ⟨_, d₂, hcontrol, happend⟩ := bind_eq_ok_iff.mp hrest
  obtain ⟨hhome₁, hd₁, hfiles₁⟩ := hstatements.of_eq_ok rfl hd hwrite
  obtain ⟨hhome₂, hd₂, _⟩ := hnothing.of_eq_ok hhome₁ hd₁ hcontrol
  obtain ⟨_, _, hfiles⟩ := hrecords.of_eq_ok hhome₂ hd₂ happend
  rw [hfiles l hl, ← hfiles₁ l hl, controlAt?]
  cases htext : a.controlFile with
  | none =>
    rw [htext] at hcontrol
    cases hcontrol
    rw [ite_self]
    rfl
  | some text =>
    rw [htext] at hcontrol
    rw [fileAt?_of_write hcontrol, hhome₁, ← controlPlace]
    by_cases hplace : controlPlace d.home db a.name = l
    · rw [if_pos hplace, if_pos hplace.symm]
      rfl
    · rw [if_neg hplace, if_neg (Ne.symm hplace)]
      rfl

/-- Of several control files that go to one place the last one stays. -/
theorem fileAt?_of_addTables {artifacts : List Artifacts} {u : Unit} (hdb : db.WellFormed)
    (hd : d.Sound) (hl : IsControl l) (h : artifacts.forM (addTable db) d = (.ok u, d')) :
    d'.fileAt? l = ((artifacts.reverse.findSome? (controlAt? d.home db l)).map Content.text).or
      (d.fileAt? l) := by
  induction artifacts generalizing d with
  | nil =>
    cases h
    rfl
  | cons a rest ih =>
    obtain ⟨_, d₁, hfirst, hrest⟩ := bind_eq_ok_iff.mp h
    have hadds := addTable_eq_ok hdb hfirst
    have hlater := ih (hadds.sound hd) hrest
    rw [hadds.home, fileAt?_of_addTable hdb hd hl hfirst] at hlater
    rw [hlater, List.reverse_cons, List.findSome?_append, List.findSome?_singleton]
    cases rest.reverse.findSome? (controlAt? d.home db l) <;> rfl

/-- The file at a place loads a table named `target` by the field clauses of the columns of `t`. -/
def HoldsControl (d : Disk) (l : Location) (target : Text) (t : Table) : Prop :=
  ∃ clauses, Table.fieldClauses t.sortedColumns = .ok clauses ∧
    d.fileAt? l = some (.text (Table.controlText target t.loadsDirectly clauses))

theorem holdsControl_of_controlFileFor {target control : Text} {t : Table}
    (h : t.controlFileFor target = .ok control) (hfile : d.fileAt? l = some (.text control)) :
    HoldsControl d l target t := by
  obtain ⟨clauses, hclauses, rfl⟩ := except_map_eq_ok_iff.mp h
  exact ⟨clauses, hclauses, hfile⟩

/-- The table has a control file, and that goes to the place. -/
def loadsAt (home : Location) (db : Path) (l : Location) (t : Table) : Bool :=
  t.isLoaded && decide (controlPlace home db t.name = l)

theorem loadsAt_iff {t : Table} :
    loadsAt home db l t = true ↔ t.isLoaded = true ∧ controlPlace home db t.name = l := by
  rw [loadsAt, Bool.and_eq_true, decide_eq_true_iff]

/-- The last table whose control file goes to a place. -/
def lastLoaded? (home : Location) (db : Path) (l : Location) (tables : List Table) :
    Option Table :=
  tables.reverse.find? (loadsAt home db l)

theorem controlFile_of_render {t : Table} {a : Artifacts} (h : Artifacts.render e t = .ok a) :
    a.name = t.name ∧ t.controlFile = .ok a.controlFile := by
  obtain ⟨_, _, _, _, hcontrol, _, _, _, rfl⟩ := Artifacts.render_eq_ok h
  exact ⟨rfl, hcontrol⟩

theorem controlAt?_eq (home : Location) (db : Path) (l : Location) {t : Table} {a : Artifacts}
    (hname : a.name = t.name) (hcontrol : t.controlFile = .ok a.controlFile) :
    (loadsAt home db l t = false → controlAt? home db l a = none) ∧
      (loadsAt home db l t = true → ∃ control, t.controlFileFor t.name = .ok control ∧
        controlAt? home db l a = some control) := by
  unfold controlAt?
  rw [hname]
  constructor
  · intro hother
    split
    next hplace =>
      have hunloaded : t.isLoaded = false := by
        rw [loadsAt, decide_eq_true hplace, Bool.and_true] at hother
        exact hother
      rw [Table.controlFile, hunloaded] at hcontrol
      exact (Except.ok.inj hcontrol).symm
    next => rfl
  · intro hloads
    obtain ⟨hloaded, hplace⟩ := loadsAt_iff.mp hloads
    rw [Table.controlFile, if_pos hloaded] at hcontrol
    obtain ⟨control, hmade, hsome⟩ := except_map_eq_ok_iff.mp hcontrol
    rw [if_pos hplace]
    exact ⟨control, hmade, hsome.symm⟩

theorem findSome?_controlAt? (home : Location) (db : Path) (l : Location) {tables : List Table}
    {artifacts : List Artifacts}
    (h : List.Forall₂ (fun t a => a.name = t.name ∧ t.controlFile = .ok a.controlFile) tables
      artifacts) :
    (tables.find? (loadsAt home db l) = none →
        artifacts.findSome? (controlAt? home db l) = none) ∧
      ∀ t, tables.find? (loadsAt home db l) = some t →
        ∃ control, t.controlFileFor t.name = .ok control ∧
          artifacts.findSome? (controlAt? home db l) = some control := by
  induction h with
  | nil => exact ⟨fun _ => rfl, fun _ hfound => absurd hfound (by simp)⟩
  | @cons t a tables artifacts hfirst _ ih =>
    obtain ⟨hother, hloads⟩ := controlAt?_eq home db l hfirst.1 hfirst.2
    rw [List.find?_cons, List.findSome?_cons]
    cases hloaded : loadsAt home db l t with
    | false =>
      rw [hother hloaded]
      exact ih
    | true =>
      obtain ⟨control, hmade, hfound⟩ := hloads hloaded
      rw [hfound]
      refine ⟨fun hnone => absurd hnone (Option.some_ne_none t), fun u hu => ?_⟩
      cases hu
      exact ⟨control, hmade, rfl⟩

/-- Where each control file comes from once all tables are written. -/
theorem controls_of_generateTables {choice : FaultChoice} {tracked : Bool} {ctx : Context}
    {u : Unit} (hdb : db.WellFormed) (hctx : ctx.Reachable) (hd : d.Sound)
    (h : generateTables choice e staging db tracked ctx d = (.ok u, d')) :
    ∃ tables, TablesIn d (staging.join "TABLE") tracked tables ∧ ∀ l, IsControl l →
      (lastLoaded? d.home db l tables = none → d'.fileAt? l = d.fileAt? l) ∧
      ∀ t, lastLoaded? d.home db l tables = some t → HoldsControl d' l t.name t := by
  obtain ⟨names, _, hnames, hrest₁⟩ := bind_eq_ok_iff.mp h
  obtain ⟨rfl, rfl⟩ := descriptionNames_eq_ok hnames
  obtain ⟨tables, _, hparse, hrest₂⟩ := bind_eq_ok_iff.mp hrest₁
  obtain ⟨hsame, parsed, hparsed, htables⟩ := parseTables_eq_ok hctx hparse
  obtain rfl := hsame.symm
  obtain ⟨artifacts, _, hlift, hrest₃⟩ := bind_eq_ok_iff.mp hrest₂
  obtain ⟨hrender, rfl⟩ := lift_eq_ok_iff.mp hlift
  obtain ⟨_, d₁, hempty, hadd⟩ := bind_eq_ok_iff.mp hrest₃
  have hrecords : Keeps d.home IsControl (Dictionary.all.forM fun k => appendRecords db k []) :=
    keeps_forM fun k _ => keeps_appendRecords hdb (not_isControl_recordsPlace k) []
  obtain ⟨hhome₁, hd₁, hfiles₁⟩ := hrecords.of_eq_ok rfl hd hempty
  refine ⟨tables, ⟨_, parsed, lists_descriptions _ _, hparsed, htables⟩, fun l hl => ?_⟩
  have hfile := fileAt?_of_addTables hdb hd₁ hl hadd
  rw [hhome₁, hfiles₁ l hl] at hfile
  have hrendered := (Artifacts.forall₂_of_renderAll hrender).imp fun _ _ => controlFile_of_render
  obtain ⟨hnone, hsome⟩ := findSome?_controlAt? d.home db l
    (List.forall₂_reverse_iff.mpr hrendered)
  constructor
  · intro hlast
    rw [hfile, hnone hlast]
    rfl
  · intro t ht
    obtain ⟨control, hmade, hfound⟩ := hsome t ht
    refine holdsControl_of_controlFileFor hmade ?_
    rw [hfile, hfound]
    rfl

/-- Both paths of a copy lead to their places, and no folder is made or lost. -/
theorem locate?_of_copy? {p q : Path} (h : d.copy? p q = some d') :
    d.locate? p = some (p.place d.home) ∧ d.locate? q = some (q.place d.home) ∧
      d'.home = d.home ∧ ∀ l, d'.isFolderAt l = d.isFolderAt l := by
  obtain ⟨emptied, c, hempty, hcontent, hwrite⟩ := copy?_eq_some h
  have hfolders := isFolderAt_of_write? hempty
  have hfolders' := isFolderAt_of_write? hwrite
  obtain ⟨hlocate, _, _, rfl⟩ := write?_eq_some hempty
  obtain ⟨_, _, _, rfl⟩ := write?_eq_some hwrite
  rw [content?_eq, locate?_congr (home_put _ _ _) hfolders] at hcontent
  obtain ⟨l, hsource, _⟩ := Option.bind_eq_some_iff.mp hcontent
  rw [locate?_eq_some hsource] at hsource
  exact ⟨hsource, hlocate, rfl, fun l => (hfolders' l).trans (hfolders l)⟩

/-- Cloning the records has found the data files and the places for their copies. -/
theorem locate?_of_clone {kinds : List Dictionary} {u : Unit}
    (h : (kinds.forM fun k => copy (dataFile db k.tableName) (dataFile db (upgradeName k))) d =
      (.ok u, d')) :
    (∀ k ∈ kinds, d.locate? (dataFile db k.tableName) = some (recordsPlace d.home db k) ∧
        d.locate? (dataFile db (upgradeName k)) = some (upgradePlace d.home db k)) ∧
      d'.home = d.home ∧ ∀ l, d'.isFolderAt l = d.isFolderAt l := by
  induction kinds generalizing d with
  | nil =>
    cases h
    exact ⟨fun _ hk => absurd hk List.not_mem_nil, rfl, fun _ => rfl⟩
  | cons k rest ih =>
    obtain ⟨_, d₁, hfirst, hrest⟩ := bind_eq_ok_iff.mp h
    obtain ⟨hsource, htarget, hhome, hfolders⟩ := locate?_of_copy? (change_eq_ok hfirst)
    obtain ⟨hlater, hhome', hfolders'⟩ := ih hrest
    refine ⟨fun j hj => ?_, hhome'.trans hhome, fun l => (hfolders' l).trans (hfolders l)⟩
    rcases List.mem_cons.mp hj with rfl | hj
    · exact ⟨hsource, htarget⟩
    · rw [← locate?_congr hhome hfolders, ← locate?_congr hhome hfolders, ← hhome]
      exact hlater j hj

/-- The place of the control file for the upgrade of a dictionary table. -/
def upgradeControlPlace (home : Location) (db : Path) (k : Dictionary) : Location :=
  controlPlace home db (upgradeName k)

theorem HoldsControl.congr {target : Text} {t : Table} (h : HoldsControl d l target t)
    (hfile : d'.fileAt? l = d.fileAt? l) : HoldsControl d' l target t := by
  obtain ⟨clauses, hclauses, hcontrol⟩ := h
  exact ⟨clauses, hclauses, hfile.trans hcontrol⟩

theorem HoldsControl.entryAt?_ne_none {target : Text} {t : Table}
    (h : HoldsControl d l target t) : d.entryAt? l ≠ none := by
  obtain ⟨clauses, _, hcontrol⟩ := h
  rw [fileAt?_eq_some.mp hcontrol]
  exact Option.some_ne_none _

/-- The upgrade of a dictionary table gets a control file exactly if nothing is in its place. -/
theorem writeUpgradeControl_eq_ok {k : Dictionary} {t : Table} {u : Unit}
    (ht : e.table? k = some t) (h : writeUpgradeControl e db k d = (.ok u, d')) :
    d'.home = d.home ∧
      (∀ l, d.entryAt? l ≠ none ∨ l ≠ upgradeControlPlace d.home db k →
        d'.entryAt? l = d.entryAt? l) ∧
      (d.entryAt? (upgradeControlPlace d.home db k) = none →
        HoldsControl d' (upgradeControlPlace d.home db k) (upgradeName k) t) := by
  unfold writeUpgradeControl at h
  obtain ⟨there, _, hinspect, hrest⟩ := bind_eq_ok_iff.mp h
  obtain ⟨hthere, rfl⟩ := inspect_eq_ok hinspect
  cases there with
  | true =>
    obtain ⟨_, rfl⟩ := pure_eq_ok_iff.mp hrest
    refine ⟨rfl, fun _ _ => rfl, fun hnone => ?_⟩
    -- What is there has been found by its path, which leads to this place.
    obtain ⟨entry, hentry⟩ := Option.isSome_iff_exists.mp hthere.symm
    obtain ⟨l, hlocate, hfound⟩ := Option.bind_eq_some_iff.mp hentry
    rw [locate?_eq_some hlocate] at hfound
    exact absurd (hfound.symm.trans hnone) (Option.some_ne_none entry)
  | false =>
    rw [ht] at hrest
    obtain ⟨control, _, hlift, hwrite⟩ := bind_eq_ok_iff.mp hrest
    obtain ⟨hmade, rfl⟩ := lift_eq_ok_iff.mp hlift
    obtain ⟨hlocate, hne, _, rfl⟩ := write?_eq_some (change_eq_ok hwrite)
    have hfree : d.entryAt? (upgradeControlPlace d.home db k) = none := by
      have hentry : d.entry? (controlFile db (upgradeName k)) = none :=
        Option.not_isSome_iff_eq_none.mp (Bool.eq_false_iff.mp hthere.symm)
      unfold entry? at hentry
      rwa [hlocate] at hentry
    refine ⟨rfl, fun l hl => ?_, fun _ => ?_⟩
    · have hother : l ≠ upgradeControlPlace d.home db k := by
        rcases hl with hl | hl
        · rintro rfl
          exact hl hfree
        · exact hl
      exact (entryAt?_put hne _).trans (if_neg hother)
    · refine holdsControl_of_controlFileFor hmade ?_
      exact (fileAt?_put_file hne).trans (if_pos rfl)

theorem place_controlFile {table : Text} (h : 2 < table.length ∧ '/' ∉ table) :
    controlPlace home db table = recordsLocation home db ++ [table ++ ".CTL"] := by
  have hfolder : IsName "INIT_TABLE" := by decide
  have hfile : IsName (table ++ ".CTL") := by
    refine isName_of_length ?_ ?_
    · rw [List.length_append]
      exact Nat.lt_add_right _ h.1
    · exact fun hmem => (List.mem_append.mp hmem).elim h.2 (by decide)
  rw [controlPlace, controlFile, Path.place_join hfile, recordsFolder, Path.place_join hfolder]
  rfl

theorem controlPlace_tableName (home : Location) (db : Path) (k : Dictionary) :
    controlPlace home db k.tableName = recordsLocation home db ++ [k.tableName ++ ".CTL"] :=
  place_controlFile (by cases k <;> decide)

theorem upgradeControlPlace_eq (home : Location) (db : Path) (k : Dictionary) :
    upgradeControlPlace home db k = recordsLocation home db ++ [upgradeName k ++ ".CTL"] :=
  place_controlFile (by cases k <;> decide)

theorem upgradeControlPlace_inj {j k : Dictionary}
    (h : upgradeControlPlace home db j = upgradeControlPlace home db k) : j = k := by
  rw [upgradeControlPlace_eq, upgradeControlPlace_eq] at h
  have hname := List.append_cancel_left h
  cases j <;> cases k <;> first | rfl | exact absurd hname (by decide)

/-- A control file that is there stays, and one that is missing is made from the columns of the
registered table. -/
theorem forM_writeUpgradeControl_eq_ok {kinds : List Dictionary} {u : Unit}
    {t : Dictionary → Table} (ht : ∀ k, e.table? k = some (t k))
    (h : kinds.forM (writeUpgradeControl e db) d = (.ok u, d')) :
    (∀ l, d.entryAt? l ≠ none ∨ (∀ k, l ≠ upgradeControlPlace d.home db k) →
        d'.entryAt? l = d.entryAt? l) ∧
      ∀ k ∈ kinds, d.entryAt? (upgradeControlPlace d.home db k) = none →
        HoldsControl d' (upgradeControlPlace d.home db k) (upgradeName k) (t k) := by
  induction kinds generalizing d with
  | nil =>
    cases h
    exact ⟨fun _ _ => rfl, fun _ hk => absurd hk List.not_mem_nil⟩
  | cons k rest ih =>
    obtain ⟨_, d₁, hfirst, hrest⟩ := bind_eq_ok_iff.mp h
    obtain ⟨hhome, hkept, hmade⟩ := writeUpgradeControl_eq_ok (ht k) hfirst
    obtain ⟨hlater, hmadeLater⟩ := ih hrest
    rw [hhome] at hlater hmadeLater
    constructor
    · intro l hl
      have hsame : d₁.entryAt? l = d.entryAt? l := hkept l (hl.imp_right fun hother => hother k)
      rw [← hsame] at hl ⊢
      exact hlater l hl
    · intro j hj hfree
      by_cases hjk : j = k
      · subst hjk
        have hholds := hmade hfree
        exact hholds.congr (fileAt?_congr (hlater _ (Or.inl hholds.entryAt?_ne_none)))
      · have hother : upgradeControlPlace d.home db j ≠ upgradeControlPlace d.home db k :=
          fun heq => hjk (upgradeControlPlace_inj heq)
        refine hmadeLater j ((List.mem_cons.mp hj).resolve_left hjk) ?_
        rw [hkept _ (Or.inr hother), hfree]

theorem isFolderAt_of_writeUpgradeControls {u : Unit} {t : Dictionary → Table}
    (ht : ∀ k, e.table? k = some (t k))
    (h : Dictionary.all.forM (writeUpgradeControl e db) d = (.ok u, d')) (l : Location) :
    d'.isFolderAt l = d.isFolderAt l := by
  obtain ⟨hkept, hmade⟩ := forM_writeUpgradeControl_eq_ok ht h
  by_cases hl : d.entryAt? l ≠ none ∨ ∀ k, l ≠ upgradeControlPlace d.home db k
  · rw [isFolderAt, hkept l hl, isFolderAt]
  · push Not at hl
    obtain ⟨hfree, k, rfl⟩ := hl
    obtain ⟨clauses, _, hcontrol⟩ := hmade k k.mem_all hfree
    rw [isFolderAt, fileAt?_eq_some.mp hcontrol, (entryAt?_eq_none_iff.mp hfree).1]
    rfl

/-- The table that the staged file of a dictionary table describes, as it is registered. -/
def DescribesDictionary (d : Disk) (staging : Path) (k : Dictionary) (t : Table) : Prop :=
  DescribesTable d (staging.join "TABLE") false (k.tableName ++ ".XML") (some t)

/-- What a filled package has for control files: those of the staged tables `tables`, of which the
last one counts at each place, and those of the registered tables `t` for upgrades without one.
Other files of that kind are as they were. The upgrades have the same records as the tables, and
all data files are found by their paths. -/
structure Filled (home : Location) (db : Path) (tables : List Table) (t : Dictionary → Table)
    (d d' : Disk) : Prop where
  loaded : ∀ l, IsControl l → ∀ s, lastLoaded? home db l tables = some s →
    HoldsControl d' l s.name s
  others : ∀ l, IsControl l → lastLoaded? home db l tables = none →
    (∀ k, l ≠ upgradeControlPlace home db k) → d'.fileAt? l = d.fileAt? l
  upgrades : ∀ k, lastLoaded? home db (upgradeControlPlace home db k) tables = none →
    d.entryAt? (upgradeControlPlace home db k) = none →
      HoldsControl d' (upgradeControlPlace home db k) (upgradeName k) (t k)
  records : ∀ k, ∃ c, d'.fileAt? (recordsPlace home db k) = some c ∧
    d'.fileAt? (upgradePlace home db k) = some c
  located : ∀ k, d'.locate? (dataFile db k.tableName) = some (recordsPlace home db k) ∧
    d'.locate? (dataFile db (upgradeName k)) = some (upgradePlace home db k)

/-- What the upgrades add to a package. -/
theorem upgrades_eq_ok {t : Dictionary → Table} {u : Unit} (hdb : db.WellFormed) (hd : d.Sound)
    (ht : ∀ k, e.table? k = some (t k))
    (h : (do
      cloneRecords db
      Dictionary.all.forM (writeUpgradeControl e db) : Job Unit) d = (.ok u, d')) :
    (∀ l, IsControl l → d.entryAt? l ≠ none ∨ (∀ k, l ≠ upgradeControlPlace d.home db k) →
        d'.fileAt? l = d.fileAt? l) ∧
      (∀ k, d.entryAt? (upgradeControlPlace d.home db k) = none →
        HoldsControl d' (upgradeControlPlace d.home db k) (upgradeName k) (t k)) ∧
      ∀ k, (∃ c, d'.fileAt? (recordsPlace d.home db k) = some c ∧
          d'.fileAt? (upgradePlace d.home db k) = some c) ∧
        d'.locate? (dataFile db k.tableName) = some (recordsPlace d.home db k) ∧
        d'.locate? (dataFile db (upgradeName k)) = some (upgradePlace d.home db k) := by
  obtain ⟨_, cloned, hclone, hupgrades⟩ := bind_eq_ok_iff.mp h
  have hkeepsClones : Keeps d.home IsControl (cloneRecords db) :=
    keeps_forM fun k _ => keeps_copy _ (wellFormed_dataFile hdb _) (not_isControl_upgradePlace k)
  obtain ⟨hhome, hcloned, hfiles⟩ := hkeepsClones.of_eq_ok rfl hd hclone
  obtain ⟨hlocated, _, hfolders⟩ := locate?_of_clone hclone
  have hentry (l : Location) (hl : IsControl l) : cloned.entryAt? l = d.entryAt? l :=
    entryAt?_congr (hfolders l) (hfiles l hl)
  obtain ⟨hkept, hmade⟩ := forM_writeUpgradeControl_eq_ok ht hupgrades
  rw [hhome] at hkept hmade
  refine ⟨fun l hl hcase => ?_, fun k hfree => ?_, fun k => ⟨?_, ?_⟩⟩
  · rw [← hentry l hl] at hcase
    rw [fileAt?_congr (hkept l hcase), hfiles l hl]
  · exact hmade k k.mem_all ((hentry _ (isControl_controlPlace _ _ _)).trans hfree)
  · obtain ⟨hrecords, _, hclones⟩ := fileAt?_of_clone hclone
    obtain ⟨_, _, hlast⟩ := (keeps_writeUpgradeControls e hdb).of_eq_ok hhome hcloned hupgrades
    obtain ⟨c, hc, hcopy⟩ := hclones k k.mem_all
    refine ⟨c, ?_, ?_⟩
    · rw [hlast _ (isData_recordsPlace k), hrecords, hc]
    · rw [hlast _ (isData_upgradePlace k), hcopy]
  · obtain ⟨hhome', _⟩ := (keeps_writeUpgradeControls e hdb).of_eq_ok hhome hcloned hupgrades
    have hsame (p : Path) : d'.locate? p = d.locate? p := by
      have hlast := isFolderAt_of_writeUpgradeControls ht hupgrades
      rw [locate?_congr (hhome'.trans hhome.symm) hlast, locate?_congr hhome hfolders]
    rw [hsame, hsame]
    exact hlocated k k.mem_all

theorem fill_eq_ok {settings : Settings} (hdb : db.WellFormed) (hd : d.Sound)
    (h : fill settings staging db d = (.ok (), d')) :
    ∃ tables t, TablesIn d (staging.join "TABLE") settings.tracked tables ∧
      (∀ k, DescribesDictionary d staging k (t k)) ∧ Filled d.home db tables t d d' := by
  obtain ⟨⟨e, ctx⟩, _, hregister, hrest₁⟩ := bind_eq_ok_iff.mp h
  obtain ⟨hsame, hctx, _, hregistered⟩ := registerAll_eq_ok .new hregister
  obtain rfl := hsame.symm
  obtain ⟨_, d₁, htables, hrest₂⟩ := bind_eq_ok_iff.mp hrest₁
  obtain ⟨_, _, _, _, hadds⟩ := generateTables_eq_ok hdb hctx htables
  obtain ⟨tables, hin, hcontrols⟩ := controls_of_generateTables hdb hctx hd htables
  obtain ⟨_, d₂, hunits, hupgrade⟩ := bind_eq_ok_iff.mp hrest₂
  obtain ⟨_, _, _, _, hadds'⟩ := generateUnits_eq_ok hd hdb hadds hunits
  have hkeepsUnits : Keeps d.home IsControl (generateUnits e staging db) :=
    keeps_generateUnits hdb (fun _ _ hext => spares_isControl (ne_control_of_mem_extensions hext))
      (not_isControl_recordsPlace _)
  obtain ⟨hhome, hd₂, hfiles⟩ := hkeepsUnits.of_eq_ok hadds.home (hadds.sound hd) hunits
  choose t ht hdescribed using fun k => hregistered k (Or.inl k.mem_all)
  obtain ⟨hkept, hmade, hdata⟩ := upgrades_eq_ok hdb hd₂ ht hupgrade
  rw [hhome] at hkept hmade hdata
  refine ⟨tables, t, hin, hdescribed, ?_, ?_, ?_, fun k => (hdata k).1, fun k => (hdata k).2⟩
  · intro l hl s hs
    have hholds := ((hcontrols l hl).2 s hs).congr (hfiles l hl)
    exact hholds.congr (hkept l hl (Or.inl hholds.entryAt?_ne_none))
  · intro l hl hlast hother
    rw [hkept l hl (Or.inr hother), hfiles l hl, (hcontrols l hl).1 hlast]
  · intro k hlast hfree
    have hcontrol := isControl_controlPlace d.home db (upgradeName k)
    have hfile := (hfiles _ hcontrol).trans ((hcontrols _ hcontrol).1 hlast)
    have hfolder := (hadds'.folders (upgradeControlPlace d.home db k)).trans (hadds.folders _)
    exact hmade k ((entryAt?_congr hfolder hfile).trans hfree)

theorem inRecords_upgradeControlPlace (k : Dictionary) :
    InRecords home db (upgradeControlPlace home db k) :=
  ⟨_, upgradeControlPlace_eq home db k⟩

/-- What comes after the filling leaves the folder of the records as it is. -/
theorem Filled.of_run {made : Moment} {settings : Settings} {package : Path}
    (htarget : settings.target.WellFormed) (hd : d.Sound)
    (h : run made settings d = (.ok package, d')) :
    ∃ tables t,
      TablesIn (stagedDisk settings d) ((settings.target.join "DB_STAGING").join "TABLE")
        settings.tracked tables ∧
      (∀ k, DescribesDictionary (stagedDisk settings d) (settings.target.join "DB_STAGING") k
        (t k)) ∧
      Filled d.home (settings.target.join "DB") tables t (stagedDisk settings d)
        (filledDisk settings d) ∧
      ∀ l, InRecords d.home (settings.target.join "DB") l →
        d'.fileAt? l = (filledDisk settings d).fileAt? l := by
  obtain ⟨hhome, hstaged, hfill, hrest⟩ := run_eq_ok htarget hd h
  obtain ⟨tables, t, hin, hdescribed, hfilled⟩ := fill_eq_ok (htarget.join "DB") hstaged hfill
  obtain ⟨hhome', hd'⟩ := sound_of_fill (htarget.join "DB") hstaged hfill
  rw [hhome] at hfilled hhome'
  obtain ⟨_, _, hfiles⟩ := (keeps_completion made settings htarget).of_eq_ok hhome' hd' hrest
  exact ⟨tables, t, hin, hdescribed, hfilled, fun l hl => hfiles l (isLasting_of_inRecords hl)⟩

/-- When a compilation succeeds, the upgrade of each dictionary table has the records of the table.
If control files of staged tables go to its place, its control file is that of the last of them. If
there is none and nothing was at the place, its control file lists the columns of the registered
table. -/
theorem upgradeControls_of_run {made : Moment} {settings : Settings} {package : Path}
    (htarget : settings.target.WellFormed) (hd : d.Sound)
    (h : run made settings d = (.ok package, d')) :
    ∃ (tables : List Table) (t : Dictionary → Table),
      TablesIn (stagedDisk settings d) ((settings.target.join "DB_STAGING").join "TABLE")
        settings.tracked tables ∧
      ∀ k, DescribesDictionary (stagedDisk settings d) (settings.target.join "DB_STAGING") k
          (t k) ∧
        (∃ c, d'.fileAt? (recordsPlace d.home (settings.target.join "DB") k) = some c ∧
          d'.fileAt? (upgradePlace d.home (settings.target.join "DB") k) = some c) ∧
        (∀ s, lastLoaded? d.home (settings.target.join "DB")
            (upgradeControlPlace d.home (settings.target.join "DB") k) tables = some s →
          HoldsControl d' (upgradeControlPlace d.home (settings.target.join "DB") k) s.name s) ∧
        (lastLoaded? d.home (settings.target.join "DB")
            (upgradeControlPlace d.home (settings.target.join "DB") k) tables = none →
          (stagedDisk settings d).entryAt?
            (upgradeControlPlace d.home (settings.target.join "DB") k) = none →
          HoldsControl d' (upgradeControlPlace d.home (settings.target.join "DB") k)
            (upgradeName k) (t k)) := by
  obtain ⟨tables, t, hin, hdescribed, hfilled, hfiles⟩ := Filled.of_run htarget hd h
  have hrecords (k : Dictionary) :
      InRecords d.home (settings.target.join "DB") (recordsPlace d.home _ k) :=
    ⟨_, recordsPlace_eq _ _ k⟩
  have hupgrade (k : Dictionary) :
      InRecords d.home (settings.target.join "DB") (upgradePlace d.home _ k) :=
    ⟨_, upgradePlace_eq _ _ k⟩
  refine ⟨tables, t, hin, fun k => ⟨hdescribed k, ?_, ?_, ?_⟩⟩
  · obtain ⟨c, hc, hcopy⟩ := hfilled.records k
    exact ⟨c, (hfiles _ (hrecords k)).trans hc, (hfiles _ (hupgrade k)).trans hcopy⟩
  · intro s hs
    have hcontrol := hfilled.loaded _ (isControl_controlPlace _ _ _) s hs
    exact hcontrol.congr (hfiles _ (inRecords_upgradeControlPlace k))
  · intro hlast hfree
    exact (hfilled.upgrades k hlast hfree).congr (hfiles _ (inRecords_upgradeControlPlace k))

/-- The upgrade of the objects is described too, as a table with another column. -/
def describedUpgrade : Disk :=
  olderDisk.put ["source", "TABLE", "DB_OBJECTS_UPGRADE.XML"]
    (.file (.text ("<table name='DB_OBJECTS_UPGRADE' init_on_install='yes'><columns>" ++
      "<column name='OTHER' data_type='NUMBER'/></columns></table>")))

def straight : Settings := { detour with target := .ofText "target" }

theorem sound_describedUpgrade : describedUpgrade.Sound :=
  sound_olderDisk.put (by decide) _

/-- The package has the described control file for the upgrade, and none for the table itself. -/
theorem run_describedUpgrade :
    ∃ d', run ⟨2026, 1, 1, 4, 0, 0, 0⟩ straight describedUpgrade =
        (.ok (.ofText "target/DB.zip"), d') ∧
      d'.fileAt? (upgradeControlPlace describedUpgrade.home (straight.target.join "DB") .objects) =
        some (.text (Table.controlText "DB_OBJECTS_UPGRADE" true
          [",OTHER \"TO_NUMBER(:OTHER)\""])) ∧
      d'.fileAt? (controlPlace describedUpgrade.home (straight.target.join "DB") "DB_OBJECTS") =
        none := by
  have hrun : (run ⟨2026, 1, 1, 4, 0, 0, 0⟩ straight describedUpgrade).1 =
        .ok (.ofText "target/DB.zip") ∧
      (run ⟨2026, 1, 1, 4, 0, 0, 0⟩ straight describedUpgrade).2.fileAt?
        (upgradeControlPlace describedUpgrade.home (straight.target.join "DB") .objects) =
          some (.text (Table.controlText "DB_OBJECTS_UPGRADE" true
            [",OTHER \"TO_NUMBER(:OTHER)\""])) ∧
      (run ⟨2026, 1, 1, 4, 0, 0, 0⟩ straight describedUpgrade).2.fileAt?
        (controlPlace describedUpgrade.home (straight.target.join "DB") "DB_OBJECTS") = none := by
    decide +kernel
  obtain ⟨d', hd'⟩ := exists_of_fst_eq hrun.1
  rw [hd'] at hrun
  exact ⟨d', hd', hrun.2⟩

theorem below_stagedDisk_describedUpgrade :
    (stagedDisk straight describedUpgrade).below
      (recordsLocation describedUpgrade.home (straight.target.join "DB")) = [] := by
  obtain ⟨d', hd', _⟩ := run_describedUpgrade
  have hthere : describedUpgrade.isThere (straight.target.join "DB") = true := by decide +kernel
  exact below_stagedDisk (Path.wellFormed_ofText _) (by decide) sound_describedUpgrade
    (by decide) (Or.inl hthere) hd'

theorem upgradeControls_of_describedUpgrade :
    ∃ d' tables t, run ⟨2026, 1, 1, 4, 0, 0, 0⟩ straight describedUpgrade =
        (.ok (.ofText "target/DB.zip"), d') ∧
      TablesIn (stagedDisk straight describedUpgrade)
        ((straight.target.join "DB_STAGING").join "TABLE") false tables ∧
      (stagedDisk straight describedUpgrade).entryAt?
        (upgradeControlPlace describedUpgrade.home (straight.target.join "DB") .tableColumns) =
          none ∧
      (lastLoaded? describedUpgrade.home (straight.target.join "DB")
          (upgradeControlPlace describedUpgrade.home (straight.target.join "DB") .tableColumns)
          tables = none →
        HoldsControl d'
          (upgradeControlPlace describedUpgrade.home (straight.target.join "DB") .tableColumns)
          "DB_TABLE_COLUMNS_UPGRADE" t) := by
  obtain ⟨d', hd', _⟩ := run_describedUpgrade
  have hfree : (stagedDisk straight describedUpgrade).entryAt?
      (upgradeControlPlace describedUpgrade.home (straight.target.join "DB") .tableColumns) =
        none := by
    rw [upgradeControlPlace_eq]
    exact entryAt?_of_below_eq_nil below_stagedDisk_describedUpgrade (List.cons_ne_nil _ _)
  obtain ⟨tables, t, hin, hcontrols⟩ :=
    upgradeControls_of_run (Path.wellFormed_ofText _) sound_describedUpgrade hd'
  obtain ⟨_, _, _, hregistered⟩ := hcontrols .tableColumns
  exact ⟨d', tables, t .tableColumns, hd', hin, hfree, fun hlast => hregistered hlast hfree⟩

/-- The control file of a described upgrade lists its own columns, not those of the records. -/
theorem upgradeControl_apart :
    ∃ d' t control, run ⟨2026, 1, 1, 4, 0, 0, 0⟩ straight describedUpgrade =
        (.ok (.ofText "target/DB.zip"), d') ∧
      DescribesDictionary (stagedDisk straight describedUpgrade)
        (straight.target.join "DB_STAGING") .objects t ∧
      d'.fileAt? (upgradeControlPlace describedUpgrade.home (straight.target.join "DB") .objects) =
        some (.text control) ∧
      t.dataFields.map DataField.name = [("TABLE_NAME" : Text)] ∧
      Table.listedNames control = [("OTHER" : Text)] := by
  let source : Path := ((straight.target.join "DB_STAGING").join "TABLE").join "DB_OBJECTS.XML"
  let text : Text := "<table name='DB_OBJECTS'><columns>" ++
    "<column name='TABLE_NAME' data_type='NUMBER'/></columns></table>"
  have hread : (stagedDisk straight describedUpgrade).text? source = some text := by
    decide +kernel
  have hparse : ((Description.parseTable source text false {}).1.map
      fun t? => t?.map fun t => t.dataFields.map DataField.name) =
        .ok (some [("TABLE_NAME" : Text)]) := by
    decide +kernel
  obtain ⟨t?, ht, htable⟩ := except_map_eq_ok_iff.mp hparse
  obtain ⟨t, rfl, hnames⟩ := Option.map_eq_some_iff.mp htable
  obtain ⟨ctx, hctx⟩ := exists_of_fst_eq ht
  obtain ⟨d', hd', hcontrol, _⟩ := run_describedUpgrade
  exact ⟨d', t, _, hd', ⟨text, {}, ctx, hread, .new, hctx⟩, hcontrol, hnames, by decide +kernel⟩

end Compile
end SchemaPackage
