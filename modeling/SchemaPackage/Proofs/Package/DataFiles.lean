import SchemaPackage.Proofs.Package.Recording

/-!
The data files of a finished package. Each holds the records of all staged descriptions, in the
order of the listings and exactly once, and its upgrade file holds the same bytes. Nothing from an
earlier run is in front of them if the path to the package led to it; if a folder on the way was
missing, the old data files have escaped the removal, and the records follow what they held.
-/
namespace SchemaPackage.Compile

open Job Outcome Text Package Disk

variable {home : Location} {db p q : Path} {d d' : Disk}

/-- The place of the data file for an upgrade. -/
def upgradePlace (home : Location) (db : Path) (k : Dictionary) : Location :=
  (dataFile db (upgradeName k)).place home

theorem upgradePlace_eq (home : Location) (db : Path) (k : Dictionary) :
    upgradePlace home db k =
      db.place home ++ [("INIT_TABLE" : Text)] ++ [upgradeName k ++ ".DAT"] :=
  place_dataFile (by cases k <;> decide)

theorem recordsPlace_ne_upgradePlace (j k : Dictionary) :
    recordsPlace home db j ≠ upgradePlace home db k := by
  rw [recordsPlace_eq, upgradePlace_eq]
  intro h
  have hname := List.append_cancel_left h
  cases j <;> cases k <;> exact absurd hname (by decide)

theorem upgradePlace_inj {j k : Dictionary} (h : upgradePlace home db j = upgradePlace home db k) :
    j = k := by
  rw [upgradePlace_eq, upgradePlace_eq] at h
  have hname := List.append_cancel_left h
  cases j <;> cases k <;> first | rfl | exact absurd hname (by decide)

/-- The target of a copy holds what the source holds, if they are different files. -/
theorem fileAt?_of_copy? (hpq : p.place d.home ≠ q.place d.home) (h : d.copy? p q = some d') :
    d'.home = d.home ∧ ∃ c, d.fileAt? (p.place d.home) = some c ∧
      ∀ l, d'.fileAt? l = if l = q.place d.home then some c else d.fileAt? l := by
  obtain ⟨emptied, c, hempty, hcontent, hwrite⟩ := copy?_eq_some h
  obtain ⟨_, hne, _, rfl⟩ := write?_eq_some hempty
  obtain ⟨_, _, _, rfl⟩ := write?_eq_some hwrite
  rw [content?_eq] at hcontent
  obtain ⟨l, hlocate, hfile⟩ := Option.bind_eq_some_iff.mp hcontent
  rw [locate?_eq_some hlocate, home_put, fileAt?_put_file hne, if_neg hpq] at hfile
  refine ⟨rfl, c, hfile, fun m => ?_⟩
  rw [home_put, fileAt?_put_file hne, fileAt?_put_file hne]
  by_cases hm : m = q.place d.home
  · rw [if_pos hm, if_pos hm]
  · rw [if_neg hm, if_neg hm, if_neg hm]

/-- Cloning leaves the data files as they are, and then the upgrade files hold the same. -/
theorem fileAt?_of_clone {kinds : List Dictionary} {u : Unit}
    (h : (kinds.forM fun k => copy (dataFile db k.tableName) (dataFile db (upgradeName k))) d =
      (.ok u, d')) :
    (∀ k, d'.fileAt? (recordsPlace d.home db k) = d.fileAt? (recordsPlace d.home db k)) ∧
      (∀ k, k ∉ kinds →
        d'.fileAt? (upgradePlace d.home db k) = d.fileAt? (upgradePlace d.home db k)) ∧
      ∀ k ∈ kinds, ∃ c, d.fileAt? (recordsPlace d.home db k) = some c ∧
        d'.fileAt? (upgradePlace d.home db k) = some c := by
  induction kinds generalizing d with
  | nil =>
    obtain ⟨_, rfl⟩ := pure_eq_ok_iff.mp h
    exact ⟨fun _ => rfl, fun _ _ => rfl, fun _ hk => absurd hk List.not_mem_nil⟩
  | cons k rest ih =>
    obtain ⟨_, d₁, hfirst, hrest⟩ := bind_eq_ok_iff.mp h
    obtain ⟨hhome, c, hc, hfiles⟩ :=
      fileAt?_of_copy? (recordsPlace_ne_upgradePlace _ _) (change_eq_ok hfirst)
    obtain ⟨hrecords, hothers, hclones⟩ := ih hrest
    rw [hhome] at hrecords hothers hclones
    have hkept (j : Dictionary) :
        d₁.fileAt? (recordsPlace d.home db j) = d.fileAt? (recordsPlace d.home db j) :=
      (hfiles _).trans (if_neg (recordsPlace_ne_upgradePlace j k))
    refine ⟨fun j => (hrecords j).trans (hkept j), fun j hj => ?_, fun j hj => ?_⟩
    · have hne : upgradePlace d.home db j ≠ upgradePlace d.home db k := by
        intro heq
        rw [upgradePlace_inj heq] at hj
        exact hj List.mem_cons_self
      rw [hothers j (mt (List.mem_cons_of_mem k) hj), hfiles]
      exact if_neg hne
    · by_cases hjrest : j ∈ rest
      · obtain ⟨content, hcontent, hclone⟩ := hclones j hjrest
        exact ⟨content, (hkept j).symm.trans hcontent, hclone⟩
      · obtain rfl := (List.mem_cons.mp hj).resolve_right hjrest
        refine ⟨c, hc, ?_⟩
        rw [hothers j hjrest, hfiles]
        exact if_pos rfl

/-- Whatever is recorded, it is for a data file in the folder of the records. -/
def IsData (home : Location) (db : Path) (l : Location) : Prop :=
  ∃ file, ending file = "DAT" ∧ l = db.place home ++ [("INIT_TABLE" : Text)] ++ [file]

theorem isData_recordsPlace (k : Dictionary) : IsData home db (recordsPlace home db k) :=
  ⟨_, by cases k <;> decide, recordsPlace_eq home db k⟩

theorem isData_upgradePlace (k : Dictionary) : IsData home db (upgradePlace home db k) :=
  ⟨_, by cases k <;> decide, upgradePlace_eq home db k⟩

theorem not_isData_of_ending {above : Location} {name : Text} (h : ending name ≠ "DAT") :
    ¬ IsData home db (above ++ [name]) := by
  rintro ⟨file, hfile, heq⟩
  have hsame : name = file := List.singleton_inj.mp (List.append_inj_right' heq rfl)
  rw [hsame] at h
  exact h hfile

/-- What a compilation does once the records are cloned touches no data file. -/
theorem keeps_writeUpgradeControls (e : Encoder) (hdb : db.WellFormed) :
    Keeps home (IsData home db) (Dictionary.all.forM (writeUpgradeControl e db)) := by
  refine keeps_forM fun k _ => keeps_writeUpgradeControl e hdb k fun above name hname => ?_
  refine not_isData_of_ending ?_
  rw [hname]
  decide

theorem keeps_scriptFile {made : Moment} {release : Text} (hdb : db.WellFormed) :
    Keeps home (IsData home db) (writeScript made release db) := by
  have hname : IsName "IFS_MODEL.SQL" := isName_of_length (by decide) (by decide)
  refine keeps_writeScript hdb ?_
  rw [scriptFile, Path.place_join hname]
  exact not_isData_of_ending (by decide)

theorem keeps_templates (hdb : db.WellFormed) (shared : Path) :
    Keeps home (IsData home db) (copyTemplates shared db) := by
  refine keeps_copyTemplates hdb ?_
  rintro l ⟨file, _, rfl⟩ hbelow
  rw [List.append_assoc, List.prefix_append_right_inj] at hbelow
  exact absurd (List.cons_prefix_cons.mp hbelow).1 (by decide)

theorem keeps_writeRelease {release : Text} (hdb : db.WellFormed) :
    Keeps home (IsData home db) (writeRelease db release) := by
  have hname : IsName "RELEASE.TXT" := isName_of_length (by decide) (by decide)
  refine keeps_write (hdb.join _) ?_ release
  rw [Path.place_join hname]
  exact not_isData_of_ending (by decide)

/-- What is left to do once the records are cloned. -/
def complete (made : Moment) (settings : Settings) (e : Encoder) (db : Path) : Job Unit := do
  Dictionary.all.forM (writeUpgradeControl e db)
  writeScript made settings.release db
  if let some shared := settings.shared then
    copyTemplates shared db
  writeRelease db settings.release

theorem keeps_complete (made : Moment) (settings : Settings) (e : Encoder) (hdb : db.WellFormed) :
    Keeps home (IsData home db) (complete made settings e db) := by
  refine keeps_bind (keeps_writeUpgradeControls e hdb) fun _ _ =>
    keeps_bind (keeps_scriptFile hdb) fun _ _ => ?_
  dsimp only
  split
  · exact keeps_bind (keeps_templates hdb _) fun _ _ => keeps_writeRelease hdb
  · exact keeps_writeRelease hdb

theorem keeps_cloneRecords (hdb : db.WellFormed) :
    Keeps home (fun _ => False) (cloneRecords db) :=
  keeps_forM fun _ _ => keeps_copy _ (wellFormed_dataFile hdb _) id

/-- The records of all tables, and behind them those of all program units, which only the data
file of the objects has. -/
def recorded (e : Encoder) (tables : List Table) (units : List ProgramUnit) :
    Dictionary → Except Fault Text
  | .objects => do
    let ofTables ← concatenated (tableRecords e .objects) tables
    let ofUnits ← concatenated (·.objectRecord e) units
    return ofTables ++ ofUnits
  | .tableColumns => concatenated (tableRecords e .tableColumns) tables

theorem recorded_eq_ok {e : Encoder} {tables : List Table} {units : List ProgramUnit}
    {texts : Dictionary → Text} {text : Text}
    (htables : ∀ k, concatenated (tableRecords e k) tables = .ok (texts k))
    (hunits : concatenated (·.objectRecord e) units = .ok text) (k : Dictionary) :
    recorded e tables units k = .ok (texts k ++ only .objects text k) := by
  cases k with
  | objects =>
    rw [recorded, htables, hunits]
    rfl
  | tableColumns =>
    rw [recorded, htables]
    exact congrArg Except.ok (List.append_nil _).symm

/-- From the staged descriptions to the data files: what was in them is followed by the records
of everything that is described. -/
theorem generate_eq_ok {made : Moment} {settings : Settings} {staging : Path} {u : Unit}
    (hdb : db.WellFormed) (hd : d.Sound)
    (h : generate made settings staging db d = (.ok u, d')) :
    d'.home = d.home ∧ d'.Sound ∧ ∃ e tables units, e.order = settings.chance.order ∧
      (∀ k, Registered d staging e k) ∧
      TablesIn d (staging.join "TABLE") settings.tracked tables ∧
      List.Forall₂ (fun kind => UnitsIn d (staging.join kind.name)) UnitKind.all units ∧
      ∀ k, ∃ text c, recorded e tables units.flatten k = .ok text ∧
        d'.fileAt? (recordsPlace d.home db k) = some c ∧
        d'.fileAt? (upgradePlace d.home db k) = some c ∧
        c.toBytes = d.bytesAt (recordsPlace d.home db k) ++ text.utf8 := by
  obtain ⟨⟨e, ctx⟩, _, hregister, hrest₁⟩ := bind_eq_ok_iff.mp h
  obtain ⟨rfl, hctx, horder, hregistered⟩ := registerAll_eq_ok .new hregister
  obtain ⟨_, d₁, htables, hrest₂⟩ := bind_eq_ok_iff.mp hrest₁
  obtain ⟨tables, hin, texts, htexts, hadds⟩ := generateTables_eq_ok hdb hctx htables
  obtain ⟨_, d₂, hunits, hrest₃⟩ := bind_eq_ok_iff.mp hrest₂
  obtain ⟨units, hunitsIn, text, htext, hadds'⟩ := generateUnits_eq_ok hd hdb hadds hunits
  obtain ⟨_, d₃, hclone, hrest₄⟩ := bind_eq_ok_iff.mp hrest₃
  change complete made settings e db d₃ = (.ok u, d') at hrest₄
  have hboth := hadds.trans hadds'
  have hcloned := keeps_cloneRecords hdb d₂ hboth.home (hboth.sound hd)
  rw [hclone] at hcloned
  have hcompleted := keeps_complete made settings e hdb d₃ hcloned.1 hcloned.2.1
  rw [hrest₄] at hcompleted
  obtain ⟨hhome', hd', hkept⟩ := hcompleted
  obtain ⟨hrecords, _, hclones⟩ := fileAt?_of_clone hclone
  rw [hboth.home] at hrecords hclones
  refine ⟨hhome', hd', e, tables, units, horder, fun k => hregistered k (Or.inl ?_), hin, hunitsIn,
    fun k => ?_⟩
  · cases k <;> decide
  · obtain ⟨c, hc, hclone⟩ := hclones k (by cases k <;> decide)
    refine ⟨_, c, recorded_eq_ok htexts htext k, ?_, ?_, ?_⟩
    · rw [hkept _ (isData_recordsPlace k), hrecords, hc]
    · rw [hkept _ (isData_upgradePlace k), hclone]
    · rw [← hboth.records k, bytesAt, hc]
      rfl

/-- What the compilation works on once the descriptions are staged. -/
def stagedDisk (settings : Settings) (d : Disk) : Disk :=
  ((do
    let _ ← createStructure settings.target "DB"
    let staging ← createStructure settings.target "DB_STAGING"
    stage settings staging : Job Unit) d).2

/-- What is in a data file before anything is recorded: nothing, unless an old one has escaped
the removal because the path to the package led through a folder that was missing. -/
def leftover (db : Path) (d : Disk) (k : Dictionary) : ByteArray :=
  if d.isThere db then .empty else d.bytesAt (recordsPlace d.home db k)

/-- The data files are in no folder next to that of the package. -/
theorem not_below_of_isData {target : Path} {name : Text} (hname : IsName name)
    (hne : name ≠ "DB") {l : Location} (hl : IsData home (target.join "DB") l) :
    ¬ (target.join name).place home <+: l := by
  have hdb : IsName "DB" := ⟨by decide, by decide, by decide, by decide⟩
  obtain ⟨file, _, rfl⟩ := hl
  intro hbelow
  rw [Path.place_join hname, Path.place_join hdb, List.append_assoc, List.append_assoc,
    List.prefix_append_right_inj] at hbelow
  exact hne (List.cons_prefix_cons.mp hbelow).1

theorem isName_staging : IsName "DB_STAGING" := isName_of_length (by decide) (by decide)

/-- Staging touches no file outside of the staging folder. -/
theorem keeps_staging_of_not_below {P : Location → Prop} {settings : Settings}
    (htarget : settings.target.WellFormed)
    (hP : ∀ l, P l → ¬ (settings.target.join "DB_STAGING").place home <+: l) :
    Keeps home P (do
      let staging ← createStructure settings.target "DB_STAGING"
      stage settings staging) := by
  refine keeps_bind (keeps_createStructure htarget hP) fun staging hmade => ?_
  obtain ⟨d, hd, hrun⟩ := hmade
  obtain ⟨rfl, _⟩ := fileAt?_of_createStructure htarget hd (Prod.ext hrun rfl)
  exact keeps_stage (htarget.join _) hP

theorem keeps_staging (home : Location) {settings : Settings}
    (htarget : settings.target.WellFormed) :
    Keeps home (IsData home (settings.target.join "DB")) (do
      let staging ← createStructure settings.target "DB_STAGING"
      stage settings staging) :=
  keeps_staging_of_not_below htarget fun _ hl => not_below_of_isData isName_staging (by decide) hl

/-- Archiving and cleaning up touch the archive and what is staged. -/
theorem keeps_archiving {target : Path} {P : Location → Prop} (htarget : target.WellFormed)
    (harchive : ¬ P ((target.join "DB.zip").place home))
    (hstaged : ∀ l, P l → ¬ (target.join "DB_STAGING").place home <+: l) :
    Keeps home P (do
      createArchive (target.join "DB") (target.join "DB.zip")
      advance (.removeFailed (target.join "DB_STAGING"))
        (Disk.removeFolder (target.join "DB_STAGING"))) :=
  keeps_bind (keeps_createArchive (htarget.join _) harchive) fun _ _ =>
    keeps_advance _ fun d => keeps_removeFolder hstaged d

theorem keeps_packing (home : Location) {target : Path} (htarget : target.WellFormed) :
    Keeps home (IsData home (target.join "DB")) (do
      createArchive (target.join "DB") (target.join "DB.zip")
      advance (.removeFailed (target.join "DB_STAGING"))
        (Disk.removeFolder (target.join "DB_STAGING"))) := by
  have hname : IsName "DB.zip" := isName_of_length (by decide) (by decide)
  have harchive : ¬ IsData home (target.join "DB") ((target.join "DB.zip").place home) := by
    rw [Path.place_join hname]
    exact not_isData_of_ending (by decide)
  exact keeps_archiving htarget harchive fun l hl =>
    not_below_of_isData isName_staging (by decide) hl

/-- When a compilation succeeds, the encoder knows the dictionary tables as they were staged, and
each data file holds what was left over in it, followed by the records of the staged tables and
program units in the order of their files. Its upgrade file holds the same. Which of several
defaults for one field the records show is left to chance. -/
theorem dataFiles_of_run {made : Moment} {settings : Settings} {package : Path}
    (htarget : settings.target.WellFormed) (hd : d.Sound)
    (h : run made settings d = (.ok package, d')) :
    ∃ e tables units, e.order = settings.chance.order ∧
      (∀ k, Registered (stagedDisk settings d) (settings.target.join "DB_STAGING") e k) ∧
      TablesIn (stagedDisk settings d) ((settings.target.join "DB_STAGING").join "TABLE")
        settings.tracked tables ∧
      List.Forall₂ (fun kind => UnitsIn (stagedDisk settings d)
        ((settings.target.join "DB_STAGING").join kind.name)) UnitKind.all units ∧
      ∀ k, ∃ text c, recorded e tables units.flatten k = .ok text ∧
        d'.fileAt? (recordsPlace d.home (settings.target.join "DB") k) = some c ∧
        d'.fileAt? (upgradePlace d.home (settings.target.join "DB") k) = some c ∧
        c.toBytes = leftover (settings.target.join "DB") d k ++ text.utf8 := by
  obtain ⟨db, d₁, hdb, hrest₁⟩ := bind_eq_ok_iff.mp h
  obtain ⟨rfl, hhome₁, hd₁, hfiles₁⟩ := fileAt?_of_createStructure htarget hd hdb
  obtain ⟨staging, d₂, hstaging, hrest₂⟩ := bind_eq_ok_iff.mp hrest₁
  obtain ⟨rfl, _⟩ := fileAt?_of_createStructure htarget hd₁ hstaging
  obtain ⟨_, staged, hstage, hrest₃⟩ := bind_eq_ok_iff.mp hrest₂
  obtain ⟨_, d₃, hgenerate, hrest₄⟩ := bind_eq_ok_iff.mp hrest₃
  obtain ⟨_, d₄, harchive, hrest₅⟩ := bind_eq_ok_iff.mp hrest₄
  obtain ⟨_, d₅, hremove, hpure⟩ := bind_eq_ok_iff.mp hrest₅
  obtain ⟨_, rfl⟩ := pure_eq_ok_iff.mp hpure
  have hstaged : stagedDisk settings d = staged := by
    simp only [stagedDisk, bind_run, hdb, hstaging, hstage]
  have hbefore := keeps_staging d.home htarget d₁ hhome₁ hd₁
  rw [bind_eq_ok_iff.mpr ⟨_, d₂, hstaging, hstage⟩] at hbefore
  obtain ⟨hhome, hsound, hstagedFiles⟩ := hbefore
  obtain ⟨hhome₃, hd₃, e, tables, units, horder, hregistered, htables, hunits, hrecords⟩ :=
    generate_eq_ok (htarget.join "DB") hsound hgenerate
  rw [hhome] at hhome₃ hrecords
  have hafter := keeps_packing d.home htarget d₃ hhome₃ hd₃
  rw [bind_eq_ok_iff.mpr ⟨_, d₄, harchive, hremove⟩] at hafter
  have hleftover (k : Dictionary) :
      staged.bytesAt (recordsPlace d.home (settings.target.join "DB") k) =
        leftover (settings.target.join "DB") d k := by
    have hbelow : (settings.target.join "DB").place d.home <+:
        recordsPlace d.home (settings.target.join "DB") k := by
      rw [recordsPlace_eq, List.append_assoc]
      exact List.prefix_append _ _
    rw [bytesAt, hstagedFiles _ (isData_recordsPlace k), hfiles₁, leftover]
    simp only [hbelow, and_true]
    split <;> rfl
  rw [hstaged]
  refine ⟨e, tables, units, horder, hregistered, htables, hunits, fun k => ?_⟩
  obtain ⟨text, c, htext, hfile, hupgrade, hbytes⟩ := hrecords k
  rw [hleftover k] at hbytes
  refine ⟨text, c, htext, ?_, ?_, hbytes⟩
  · exact (hafter.2.2 _ (isData_recordsPlace k)).trans hfile
  · exact (hafter.2.2 _ (isData_upgradePlace k)).trans hupgrade

/-- Descriptions of the two dictionary tables, and a package that was made before. -/
def olderEntries : List (Location × Entry) :=
  [(["source"], .folder), (["source", "TABLE"], .folder),
   (["source", "TABLE", "DB_OBJECTS.XML"], .file (.text ("<table name='DB_OBJECTS'><columns>" ++
     "<column name='TABLE_NAME' data_type='NUMBER'/></columns></table>"))),
   (["source", "TABLE", "DB_TABLE_COLUMNS.XML"],
     .file (.text ("<table name='DB_TABLE_COLUMNS'><columns>" ++
       "<column name='TABLE_NAME' data_type='NUMBER'/></columns></table>"))),
   (["target"], .folder), (["target", "DB"], .folder), (["target", "DB", "INIT_TABLE"], .folder),
   (["target", "DB", "INIT_TABLE", "DB_OBJECTS.DAT"], .file (.text "OLD"))]

def olderDisk : Disk := olderEntries.foldl (fun d e => d.put e.1 e.2) {}

/-- The target is named on the way through a folder that is not there yet. -/
def detour : Settings where
  source := .ofText "source"
  shared := none
  target := .ofText "target/new/.."
  release := "1"
  tracked := false

theorem sound_olderDisk : olderDisk.Sound := sound_foldl_put sound_empty (by decide +kernel)

theorem exists_of_fst_eq {α β : Type} {x : α × β} {a : α} (h : x.1 = a) : ∃ b, x = (a, b) :=
  ⟨x.2, Prod.ext h rfl⟩

/-- The old data file is still there, and the records come behind what it held. -/
theorem dataFiles_of_detour :
    ∃ d' text c, run ⟨2026, 1, 1, 4, 0, 0, 0⟩ detour olderDisk =
        (.ok (.ofText "target/new/../DB.zip"), d') ∧
      d'.fileAt? (recordsPlace olderDisk.home (detour.target.join "DB") .objects) = some c ∧
      c.toBytes = Text.utf8 "OLD" ++ Text.utf8 text := by
  have hrun : (run ⟨2026, 1, 1, 4, 0, 0, 0⟩ detour olderDisk).1 =
      .ok (.ofText "target/new/../DB.zip") := by
    decide +kernel
  obtain ⟨d', hd'⟩ := exists_of_fst_eq hrun
  have hleftover : leftover (detour.target.join "DB") olderDisk .objects = Text.utf8 "OLD" := by
    decide +kernel
  obtain ⟨e, tables, units, _, _, _, _, hrecords⟩ :=
    dataFiles_of_run (Path.wellFormed_ofText _) sound_olderDisk hd'
  obtain ⟨text, c, _, hfile, _, hbytes⟩ := hrecords .objects
  rw [hleftover] at hbytes
  exact ⟨d', text, c, hd', hfile, hbytes⟩

end SchemaPackage.Compile
