import SchemaPackage.Proofs.Package.ControlFiles

/-!
What the script of a package loads. The folder of the records holds the data files of the
dictionary tables and of their upgrades, and the script calls the loader for each of them, with
the control file of the same name. An upgrade always has that control file. A dictionary table has
one only if it, or a table whose control file goes to the same place, is loaded by its own
description.
-/
namespace SchemaPackage

open Job Outcome Text

namespace Compile

open Package Disk InstallScript

variable {home l : Location} {db staging target : Path} {d d' filled : Disk}

/-- The tables that a package brings records for. -/
def loadedNames : List Text :=
  ["DB_OBJECTS", "DB_OBJECTS_UPGRADE", "DB_TABLE_COLUMNS", "DB_TABLE_COLUMNS_UPGRADE"]

theorem tableName_mem_loadedNames (k : Dictionary) : k.tableName ∈ loadedNames := by
  cases k <;> decide

theorem upgradeName_mem_loadedNames (k : Dictionary) : upgradeName k ∈ loadedNames := by
  cases k <;> decide

theorem exists_of_mem_loadedNames {table : Text} (h : table ∈ loadedNames) :
    ∃ k : Dictionary, table = k.tableName ∨ table = upgradeName k := by
  simp only [loadedNames, List.mem_cons, List.not_mem_nil, or_false] at h
  rcases h with rfl | rfl | rfl | rfl
  · exact ⟨.objects, Or.inl rfl⟩
  · exact ⟨.objects, Or.inr rfl⟩
  · exact ⟨.tableColumns, Or.inl rfl⟩
  · exact ⟨.tableColumns, Or.inr rfl⟩

/-- The line that calls the loader for a table, with the data file and the control file that have
the name of the table. -/
def loaderCall (table : Text) : Text :=
  "host \"&SQLLDR_SCRIPT\" " ++ table ++ " \"&NEW_CENTRAL_CONNECTION\" "
    ++ "\"&DB_DIR/INIT_TABLE/" ++ table ++ ".DAT\" \"&DB_DIR/INIT_TABLE/" ++ table
    ++ ".CTL\" \"&OUTPUT_DIR\""

/-- A text has a line that calls the loader for a table. -/
def CallsLoader (text table : Text) : Prop :=
  ("\n" : Text) ++ loaderCall table ++ ("\n" : Text) <:+: text

theorem infix_joined_between {sep line : Text} (front : List Text) {back : List Text}
    (hfront : front ≠ []) (hback : back ≠ []) :
    sep ++ line ++ sep <:+: joined sep (front ++ [line] ++ back) := by
  rw [joined_append (fun h => hfront (List.append_eq_nil_iff.mp h).1) hback,
    joined_append hfront (List.cons_ne_nil line [])]
  refine ⟨joined sep front, joined sep back, ?_⟩
  simp only [joined, List.append_assoc]

theorem callsLoader_loaderPiece (table : Text) : CallsLoader (loaderPiece table) table := by
  delta CallsLoader loaderPiece loaderCall
  exact infix_joined_between [_, _, _, _] (List.cons_ne_nil _ _) (List.cons_ne_nil _ _)

theorem callsLoader_pieces {table : Text} (h : table ∈ loadedNames) (before after : Text) :
    CallsLoader (before ++ loadedNames.flatMap loaderPiece ++ after) table := by
  obtain ⟨front, back, hnames⟩ := List.append_of_mem h
  have hpiece : loaderPiece table <:+: loadedNames.flatMap loaderPiece := by
    rw [hnames, List.flatMap_append, List.flatMap_cons, ← List.append_assoc]
    exact List.infix_append _ _ _
  exact ((callsLoader_loaderPiece table).trans hpiece).trans (List.infix_append _ _ _)

theorem ending_of_endsWith {file : Text} (h : endsWith ".DAT" file = true) :
    ending file = "DAT" := by
  obtain ⟨front, rfl⟩ := endsWith_iff.mp h
  have hext : (".DAT" : Text) = "." ++ "DAT" := rfl
  rw [hext, ← List.append_assoc]
  exact ending_append front (by decide)

/-- Places for data files that no dictionary table and no upgrade has. -/
def IsSpareData (home : Location) (db : Path) (l : Location) : Prop :=
  ∃ file, ending file = "DAT" ∧ (∀ table ∈ loadedNames, file ≠ table ++ ".DAT") ∧
    l = recordsLocation home db ++ [file]

theorem not_isSpareData {table : Text} (h : table ∈ loadedNames) :
    ¬ IsSpareData home db (recordsLocation home db ++ [table ++ ".DAT"]) := by
  rintro ⟨file, _, hother, heq⟩
  exact hother table h (List.singleton_inj.mp (List.append_cancel_left heq)).symm

theorem keeps_fill_isSpareData (settings : Settings) (hdb : db.WellFormed) :
    Keeps home (IsSpareData home db) (fill settings staging db) := by
  refine keeps_fill hdb ?_ ?_ ?_ settings
  · rintro ext hext above name hname ⟨file, hfile, _, heq⟩
    have hsame : name = file := List.singleton_inj.mp (List.append_inj_right' heq rfl)
    rw [hsame, hfile] at hname
    subst hname
    exact absurd hext (by decide)
  · intro k
    rw [recordsPlace_eq]
    exact not_isSpareData (tableName_mem_loadedNames k)
  · intro k
    rw [upgradePlace_eq]
    exact not_isSpareData (upgradeName_mem_loadedNames k)

/-- The data files of a filled package whose folder of the records was empty. -/
theorem dataFile_iff {tables : List Table} {t : Dictionary → Table} {settings : Settings}
    (hdb : db.WellFormed) (hd : d.Sound)
    (hempty : d.below (recordsLocation d.home db) = [])
    (hfilled : Filled d.home db tables t d filled)
    (h : fill settings staging db d = (.ok (), filled)) (file : Text) :
    (endsWith ".DAT" file = true ∧ ∃ c, filled.fileAt? (recordsLocation d.home db ++ [file]) =
      some c) ↔ ∃ table ∈ loadedNames, file = table ++ ".DAT" := by
  constructor
  · rintro ⟨hends, c, hfile⟩
    by_contra hother
    push Not at hother
    have hkeeps : Keeps d.home (IsSpareData d.home db) (fill settings staging db) :=
      keeps_fill_isSpareData settings hdb
    obtain ⟨_, _, hfiles⟩ := hkeeps.of_eq_ok rfl hd h
    rw [hfiles _ ⟨file, ending_of_endsWith hends, hother, rfl⟩, fileAt?,
      entryAt?_of_below_eq_nil hempty (List.cons_ne_nil file [])] at hfile
    cases hfile
  · rintro ⟨table, htable, rfl⟩
    refine ⟨endsWith_iff.mpr (List.suffix_append table ".DAT"), ?_⟩
    obtain ⟨k, rfl | rfl⟩ := exists_of_mem_loadedNames htable
    · obtain ⟨c, hc, _⟩ := hfilled.records k
      rw [recordsPlace_eq] at hc
      exact ⟨c, hc⟩
    · obtain ⟨c, _, hc⟩ := hfilled.records k
      rw [upgradePlace_eq] at hc
      exact ⟨c, hc⟩

theorem recordsFolder_eq (db : Path) :
    (recordsFolder db).stump = (recordsFolder db).pieces ∧ (recordsFolder db).pieces ≠ [] := by
  have hname : IsName "INIT_TABLE" := by decide
  refine ⟨Path.stump_join db hname, ?_⟩
  rw [recordsFolder, Path.pieces_join db hname]
  simp

theorem place_recordsFolder (home : Location) (db : Path) :
    (recordsFolder db).place home = recordsLocation home db :=
  Path.place_join (by decide)

theorem isName_dataFile {table : Text} (h : table ∈ loadedNames) : IsName (table ++ ".DAT") := by
  have hall : ∀ table ∈ loadedNames, IsName (table ++ ".DAT") := by decide
  exact hall table h

/-- The script sees the data files, in the order of their names. -/
theorem filter_fileNames?_eq {tables : List Table} {t : Dictionary → Table} {settings : Settings}
    (hdb : db.WellFormed) (hd : d.Sound)
    (hempty : d.below (recordsLocation d.home db) = [])
    (hfilled : Filled d.home db tables t d filled)
    (h : fill settings staging db d = (.ok (), filled)) :
    ((filled.fileNames? (recordsFolder db)).getD []).filter (endsWith ".DAT") =
      loadedNames.map fun table : Text => table ++ ".DAT" := by
  have hhome := (sound_of_fill hdb hd h).1
  obtain ⟨hstump, hne⟩ := recordsFolder_eq db
  have hlocated {table : Text} (htable : table ∈ loadedNames) :
      ∃ l, filled.locate? ((recordsFolder db).join (table ++ ".DAT")) = some l := by
    obtain ⟨k, rfl | rfl⟩ := exists_of_mem_loadedNames htable
    · exact ⟨_, (hfilled.located k).1⟩
    · exact ⟨_, (hfilled.located k).2⟩
  have hfound {table : Text} (htable : table ∈ loadedNames) :=
    locate?_of_join (isName_dataFile htable) hstump hne (hlocated htable).choose_spec
  obtain ⟨hfolder, hisFolder, _⟩ := hfound (tableName_mem_loadedNames .objects)
  rw [place_recordsFolder, hhome] at hfolder hisFolder
  rw [fileNames?_of_locate? hfolder hisFolder, Option.getD_some]
  refine eq_of_pairwise_byteList (((pairwise_filesAt _ _).filter _).filter _)
    (by decide +kernel) fun file => ?_
  rw [List.mem_filter, List.mem_filter, mem_filesAt, List.mem_map]
  have hfiles := dataFile_iff hdb hd hempty hfilled h file
  constructor
  · rintro ⟨⟨hfile, _⟩, hends⟩
    obtain ⟨table, htable, rfl⟩ := hfiles.mp ⟨hends, hfile⟩
    exact ⟨table, htable, rfl⟩
  · rintro ⟨table, htable, rfl⟩
    obtain ⟨hends, hfile⟩ := hfiles.mpr ⟨table, htable, rfl⟩
    exact ⟨⟨hfile, (hfound htable).2.2⟩, hends⟩

theorem render_eq_append (made : Moment) (release : Text) (files : Text → List Text) :
    ∃ before after, render made release files =
      before ++ loading (files "INIT_TABLE") ++ after := by
  unfold render
  -- The parts around the loading are not to be worked out.
  generalize loading = load, releaseInserts = inserts, indexes = create, closing = last
  rw [List.append_assoc, List.append_assoc, List.append_assoc]
  exact ⟨_, _, rfl⟩

/-- The loader is called for each data file that the script sees. -/
theorem ofFolder_eq_append (made : Moment) (release : Text)
    (h : ((d.fileNames? (recordsFolder db)).getD []).filter (endsWith ".DAT") =
      loadedNames.map fun table : Text => table ++ ".DAT") :
    ∃ before after, ofFolder made release db d =
      before ++ loadedNames.flatMap loaderPiece ++ after := by
  have hstems : ∀ table ∈ loadedNames, stem (table ++ ".DAT") = table := by decide
  have hpieces : pieces (endsWith ".DAT") loaderPiece
      ((d.fileNames? (recordsFolder db)).getD []) = loadedNames.flatMap loaderPiece := by
    rw [pieces, h, List.flatMap_map]
    exact List.flatMap_congr fun table htable => by rw [hstems table htable]
  obtain ⟨before, after, hrender⟩ := render_eq_append made release
    fun folder => (d.fileNames? (db.join folder)).getD []
  have hloading : ∃ opening, loading ((d.fileNames? (recordsFolder db)).getD []) =
      opening ++ loadedNames.flatMap loaderPiece := by
    rw [← hpieces]
    exact ⟨_, rfl⟩
  obtain ⟨opening, hopening⟩ := hloading
  refine ⟨before ++ opening, after, ?_⟩
  rw [ofFolder, hrender, ← recordsFolder, hopening, ← List.append_assoc]

/-- The steps from the folder of the tools to the script. -/
def scriptSteps : Location := [("SCHEMA_CREATION" : Text), ("IFS_MODEL.SQL" : Text)]

/-- The place of the script. -/
def scriptPlace (home : Location) (db : Path) : Location := (scriptFile db).place home

theorem scriptPlace_eq (home : Location) (db : Path) :
    scriptPlace home db = db.place home ++ ("TOOLS" : Text) :: scriptSteps :=
  place_scriptFile home db

theorem keeps_copyTemplate {P : Location → Prop} {source : Path} (htarget : target.WellFormed)
    {entry : Location × Entry} (hnames : ∀ name ∈ entry.1, IsName name)
    (hP : (∃ c, entry.2 = .file c) → ¬ P (target.place home ++ ("TOOLS" : Text) :: entry.1)) :
    Keeps home P (copyTemplate source target entry) := by
  have hall : ∀ name ∈ ("TOOLS" : Text) :: entry.1, IsName name := by
    intro name hname
    rcases List.mem_cons.mp hname with rfl | hname
    · decide
    · exact hnames name hname
  unfold copyTemplate
  dsimp only
  split
  next =>
    refine keeps_bind (keeps_makeFolder (htarget.join _)) fun _ _ => ?_
    split
    · exact keeps_throw _
    · exact keeps_pure ()
  next c hfile =>
    refine keeps_copy _ (htarget.join _) ?_
    rw [Path.place_join_joined (List.cons_ne_nil _ _) hall]
    exact hP ⟨c, hfile⟩

/-- Templates replace no tool that they do not have themselves. -/
theorem fileAt?_of_copyTemplates {source : Path} {u : Unit} (htarget : target.WellFormed)
    (hd : d.Sound) {steps : Location}
    (hnone : d.fileAt? ((source.join "TOOLS").place d.home ++ steps) = none)
    (h : copyTemplates source target d = (.ok u, d')) :
    d'.home = d.home ∧ d'.Sound ∧
      d'.fileAt? (target.place d.home ++ ("TOOLS" : Text) :: steps) =
        d.fileAt? (target.place d.home ++ ("TOOLS" : Text) :: steps) := by
  obtain ⟨tools, _, hinspect, hcopies⟩ := bind_eq_ok_iff.mp h
  obtain ⟨htools, rfl⟩ := inspect_eq_ok hinspect
  have hbelow : ∀ entry ∈ tools, entry ∈ d.below ((source.join "TOOLS").place d.home) := by
    intro entry hentry
    rw [htools] at hentry
    split at hentry
    · cases hlocate : d.locate? (source.join "TOOLS") with
      | none =>
        rw [hlocate] at hentry
        exact absurd hentry List.not_mem_nil
      | some l =>
        rw [hlocate, locate?_eq_some hlocate] at hentry
        exact hentry
    · exact absurd hentry List.not_mem_nil
  have hkeeps : Keeps d.home (· = target.place d.home ++ ("TOOLS" : Text) :: steps)
      (tools.forM (copyTemplate source target)) := by
    refine keeps_forM fun entry hentry => keeps_copyTemplate htarget
      (fun name hname => hd.isName_of_mem_below (hbelow entry hentry) hname) ?_
    rintro ⟨c, hfile⟩ heq
    obtain ⟨location, content⟩ := entry
    obtain rfl : location = steps := List.tail_eq_of_cons_eq (List.append_cancel_left heq)
    obtain rfl : content = .file c := hfile
    have hentry := (mem_below.mp (hbelow _ hentry)).2
    rw [fileAt?_eq_some.mpr hentry] at hnone
    cases hnone
  obtain ⟨hhome, hd', hfiles⟩ := hkeeps.of_eq_ok rfl hd hcopies
  exact ⟨hhome, hd', hfiles _ rfl⟩

/-- The shared tools bring no script of their own, nor are they the tools of the package. -/
def NoSharedScript (settings : Settings) (d : Disk) (db : Path) : Prop :=
  ∀ shared ∈ settings.shared,
    (shared.join "TOOLS").place d.home ++ scriptSteps ≠ scriptPlace d.home db ∧
      d.fileAt? ((shared.join "TOOLS").place d.home ++ scriptSteps) = none

theorem noSharedScript_of_none {settings : Settings} (h : settings.shared = none) :
    NoSharedScript settings d db := by
  intro shared hshared
  rw [h] at hshared
  cases hshared

theorem script_of_finish {made : Moment} {settings : Settings} {u : Unit} (hdb : db.WellFormed)
    (hd : d.Sound) (hshared : NoSharedScript settings d db)
    (h : finish made settings db d = (.ok u, d')) :
    d'.fileAt? (scriptPlace d.home db) = some (.text (ofFolder made settings.release db d)) := by
  have hscriptFile : (scriptFile db).WellFormed := ((hdb.join _).join _).join _
  have hrelease : Keeps d.home (· = scriptPlace d.home db) (writeRelease db settings.release) := by
    refine keeps_write (hdb.join _) ?_ settings.release
    rw [scriptPlace_eq, Path.place_join (by decide)]
    intro heq
    exact absurd (List.append_cancel_left heq) (by decide)
  obtain ⟨_, d₁, hwrite, hrest⟩ := bind_eq_ok_iff.mp h
  obtain ⟨text, _, hinspect, hchange⟩ := bind_eq_ok_iff.mp hwrite
  obtain ⟨htext, rfl⟩ := inspect_eq_ok hinspect
  obtain ⟨_, hne, _, hput⟩ := write?_eq_some (change_eq_ok hchange)
  have hd₁ : d₁.Sound := hput ▸ hd.put (hd.isName_of_mem_place hscriptFile) _
  have hhome₁ : d₁.home = d.home := by
    rw [hput, home_put]
  have hfiles₁ (l : Location) : d₁.fileAt? l =
      if l = scriptPlace d.home db then some (.text text) else d.fileAt? l := by
    rw [hput]
    exact fileAt?_put_file hne
  have hscript : d₁.fileAt? (scriptPlace d.home db) = some (.text text) :=
    (hfiles₁ _).trans (if_pos rfl)
  rw [← htext]
  cases hsettings : settings.shared with
  | none =>
    rw [hsettings] at hrest
    rw [(hrelease.of_eq_ok hhome₁ hd₁ hrest).2.2 _ rfl, hscript]
  | some shared =>
    rw [hsettings] at hrest
    obtain ⟨hother, hnone⟩ := hshared shared hsettings
    obtain ⟨_, d₂, hcopy, hwriteRelease⟩ := bind_eq_ok_iff.mp hrest
    rw [← hhome₁] at hother hnone
    obtain ⟨hhome₂, hd₂, hkept⟩ := fileAt?_of_copyTemplates hdb hd₁
      ((hfiles₁ _).trans ((if_neg (hhome₁ ▸ hother)).trans hnone)) hcopy
    rw [hhome₁] at hkept hhome₂
    rw [(hrelease.of_eq_ok hhome₂ hd₂ hwriteRelease).2.2 _ rfl, scriptPlace_eq, hkept,
      ← scriptPlace_eq, hscript]

theorem lastLoaded?_ne_none_iff {tables : List Table} :
    lastLoaded? home db l tables ≠ none ↔ ∃ s ∈ tables, loadsAt home db l s = true := by
  simp [lastLoaded?]

/-- In a package whose folder of the records was empty, only staged tables bring control files for
other tables than the upgrades. -/
theorem controlFile_iff {tables : List Table} {t : Dictionary → Table}
    (hempty : d.below (recordsLocation home db) = []) (hfilled : Filled home db tables t d filled)
    (k : Dictionary) :
    (∃ c, filled.fileAt? (controlPlace home db k.tableName) = some c) ↔
      ∃ s ∈ tables, loadsAt home db (controlPlace home db k.tableName) s = true := by
  have hplace := controlPlace_tableName home db k
  rw [← lastLoaded?_ne_none_iff]
  cases hlast : lastLoaded? home db (controlPlace home db k.tableName) tables with
  | none =>
    have hother (j : Dictionary) :
        controlPlace home db k.tableName ≠ upgradeControlPlace home db j := by
      rw [hplace, upgradeControlPlace_eq]
      intro heq
      have hname := List.append_cancel_left heq
      cases k <;> cases j <;> exact absurd hname (by decide)
    have hnone := hfilled.others _ (isControl_controlPlace _ _ _) hlast hother
    rw [hnone, hplace, fileAt?, entryAt?_of_below_eq_nil hempty (List.cons_ne_nil _ _)]
    simp
  | some s =>
    obtain ⟨clauses, _, hcontrol⟩ := hfilled.loaded _ (isControl_controlPlace _ _ _) s hlast
    simp [hcontrol]

/-- The control file of an upgrade is there in any case. -/
theorem exists_upgradeControl {tables : List Table} {t : Dictionary → Table}
    (hempty : d.below (recordsLocation home db) = []) (hfilled : Filled home db tables t d filled)
    (k : Dictionary) : ∃ c, filled.fileAt? (upgradeControlPlace home db k) = some c := by
  cases hlast : lastLoaded? home db (upgradeControlPlace home db k) tables with
  | none =>
    have hfree : d.entryAt? (upgradeControlPlace home db k) = none := by
      rw [upgradeControlPlace_eq]
      exact entryAt?_of_below_eq_nil hempty (List.cons_ne_nil _ _)
    obtain ⟨clauses, _, hcontrol⟩ := hfilled.upgrades k hlast hfree
    exact ⟨_, hcontrol⟩
  | some s =>
    obtain ⟨clauses, _, hcontrol⟩ := hfilled.loaded _ (isControl_controlPlace _ _ _) s hlast
    exact ⟨_, hcontrol⟩

/-- The script that is made for a filled package. -/
def madeScript (made : Moment) (settings : Settings) (d : Disk) : Text :=
  ofFolder made settings.release (settings.target.join "DB") (filledDisk settings d)

/-- A successful compilation has finished the filled package, and what is in the package then
stays. -/
theorem exists_finished_of_run {made : Moment} {settings : Settings} {package : Path}
    (htarget : settings.target.WellFormed) (hd : d.Sound)
    (h : run made settings d = (.ok package, d')) :
    (filledDisk settings d).home = d.home ∧ (filledDisk settings d).Sound ∧
      ∃ finished, finish made settings (settings.target.join "DB") (filledDisk settings d) =
          (.ok (), finished) ∧
        ∀ l, (settings.target.join "DB").place d.home <+: l → d'.fileAt? l = finished.fileAt? l := by
  obtain ⟨hhome, hstaged, hfill, hrest⟩ := run_eq_ok htarget hd h
  obtain ⟨hhome', hd'⟩ := sound_of_fill (htarget.join _) hstaged hfill
  rw [hhome] at hhome'
  obtain ⟨_, finished, hfinish, hpack⟩ := bind_eq_ok_iff.mp hrest
  obtain ⟨hhome₁, hd₁⟩ := sound_of_finish htarget hd' hfinish
  rw [hhome'] at hhome₁
  refine ⟨hhome', hd', finished, hfinish, fun l hl => ?_⟩
  have hkeeps : Keeps d.home (· = l) (pack settings.target) := by
    refine keeps_archiving htarget (fun harchive => ?_) ?_
    · refine not_below_beside (by decide : IsName "DB.zip") (by decide) hl ?_
      rewrite [harchive]
      exact List.prefix_refl _
    · rintro l rfl
      exact not_below_beside isName_staging (by decide) hl
  exact (hkeeps.of_eq_ok hhome₁ hd₁ hpack).2.2 l rfl

/-- The package has that script, unless the shared tools bring another one. -/
theorem madeScript_of_run {made : Moment} {settings : Settings} {package : Path}
    (htarget : settings.target.WellFormed) (hd : d.Sound)
    (hshared : NoSharedScript settings (filledDisk settings d) (settings.target.join "DB"))
    (h : run made settings d = (.ok package, d')) :
    d'.fileAt? (scriptPlace d.home (settings.target.join "DB")) =
      some (.text (madeScript made settings d)) := by
  obtain ⟨hhome, hd', finished, hfinish, hstays⟩ := exists_finished_of_run htarget hd h
  have hwithin : (settings.target.join "DB").place d.home <+:
      scriptPlace d.home (settings.target.join "DB") := by
    rw [scriptPlace_eq]
    exact List.prefix_append _ _
  rw [hstays _ hwithin, ← hhome, script_of_finish (htarget.join _) hd' hshared hfinish]
  rfl

/-- With an empty folder of the records to begin with, the script of the package calls the loader
for each of the tables with records. -/
theorem script_of_run {made : Moment} {settings : Settings} {package : Path}
    (htarget : settings.target.WellFormed) (hd : d.Sound)
    (hempty : (stagedDisk settings d).below
      (recordsLocation d.home (settings.target.join "DB")) = [])
    (hshared : NoSharedScript settings (filledDisk settings d) (settings.target.join "DB"))
    (h : run made settings d = (.ok package, d')) :
    ∃ before after, d'.fileAt? (scriptPlace d.home (settings.target.join "DB")) =
      some (.text (before ++ loadedNames.flatMap loaderPiece ++ after)) := by
  have hdb : (settings.target.join "DB").WellFormed := htarget.join _
  obtain ⟨hhome, hstaged, hfill, _⟩ := run_eq_ok htarget hd h
  obtain ⟨tables, t, _, _, hfilled⟩ := fill_eq_ok hdb hstaged hfill
  obtain ⟨before, after, htext⟩ := ofFolder_eq_append made settings.release
    (filter_fileNames?_eq hdb hstaged (hhome ▸ hempty) hfilled hfill)
  refine ⟨before, after, ?_⟩
  rw [madeScript_of_run htarget hd hshared h, madeScript, htext]

/-- If the folder of the records is empty when the descriptions are staged, then after a successful
compilation its data files are those of the dictionary tables and of their upgrades. The script,
unless the shared tools bring another one, calls the loader for all of them with their control
files. Every upgrade has a control file; a dictionary table has one exactly if the control file of a
staged table goes to that place. -/
theorem loadedFiles_of_run {made : Moment} {settings : Settings} {package : Path}
    (htarget : settings.target.WellFormed) (hd : d.Sound)
    (hempty : (stagedDisk settings d).below
      (recordsLocation d.home (settings.target.join "DB")) = [])
    (h : run made settings d = (.ok package, d')) :
    ∃ tables, TablesIn (stagedDisk settings d) ((settings.target.join "DB_STAGING").join "TABLE")
        settings.tracked tables ∧
      (∀ file, endsWith ".DAT" file = true ∧
          (∃ c, d'.fileAt? (recordsLocation d.home (settings.target.join "DB") ++ [file]) =
            some c) ↔
        ∃ table ∈ loadedNames, file = table ++ ".DAT") ∧
      (NoSharedScript settings (filledDisk settings d) (settings.target.join "DB") →
        ∃ before after, d'.fileAt? (scriptPlace d.home (settings.target.join "DB")) =
            some (.text (before ++ loadedNames.flatMap loaderPiece ++ after)) ∧
          ∀ table ∈ loadedNames,
            CallsLoader (before ++ loadedNames.flatMap loaderPiece ++ after) table) ∧
      ∀ k : Dictionary,
        (∃ c, d'.fileAt? (upgradeControlPlace d.home (settings.target.join "DB") k) = some c) ∧
        ((∃ c, d'.fileAt? (controlPlace d.home (settings.target.join "DB") k.tableName) = some c) ↔
          ∃ s ∈ tables, loadsAt d.home (settings.target.join "DB")
            (controlPlace d.home (settings.target.join "DB") k.tableName) s = true) := by
  have hdb : (settings.target.join "DB").WellFormed := htarget.join _
  obtain ⟨hhome, hstaged, hfill, _⟩ := run_eq_ok htarget hd h
  obtain ⟨tables, t, hin, _, hfilled, hfiles⟩ := Filled.of_run htarget hd h
  refine ⟨tables, hin, fun file => ?_, fun hshared => ?_, fun k => ⟨?_, ?_⟩⟩
  · rw [hfiles _ ⟨file, rfl⟩, ← hhome]
    exact dataFile_iff hdb hstaged (hhome ▸ hempty) (hhome ▸ hfilled) hfill file
  · obtain ⟨before, after, htext⟩ := script_of_run htarget hd hempty hshared h
    exact ⟨before, after, htext, fun table htable => callsLoader_pieces htable before after⟩
  · rw [hfiles _ (inRecords_upgradeControlPlace k)]
    exact exists_upgradeControl hempty hfilled k
  · rw [hfiles _ ⟨_, controlPlace_tableName _ _ k⟩]
    exact controlFile_iff hempty hfilled k

theorem loadedFiles_of_describedUpgrade :
    ∃ d' before after, run ⟨2026, 1, 1, 4, 0, 0, 0⟩ straight describedUpgrade =
        (.ok (.ofText "target/DB.zip"), d') ∧
      (stagedDisk straight describedUpgrade).below
        (recordsLocation describedUpgrade.home (straight.target.join "DB")) = [] ∧
      d'.fileAt? (scriptPlace describedUpgrade.home (straight.target.join "DB")) =
        some (.text (before ++ loadedNames.flatMap loaderPiece ++ after)) ∧
      CallsLoader (before ++ loadedNames.flatMap loaderPiece ++ after) "DB_OBJECTS" := by
  obtain ⟨d', hd', _⟩ := run_describedUpgrade
  obtain ⟨_, _, _, hscript, _⟩ := loadedFiles_of_run (Path.wellFormed_ofText _)
    sound_describedUpgrade below_stagedDisk_describedUpgrade hd'
  obtain ⟨before, after, htext, hcalls⟩ := hscript (noSharedScript_of_none rfl)
  exact ⟨d', before, after, hd', below_stagedDisk_describedUpgrade, htext, hcalls _ (by decide)⟩

/-- The data of the objects are loaded, but there is no control file to load them with. -/
theorem loadedFile_apart :
    ∃ d' c script, run ⟨2026, 1, 1, 4, 0, 0, 0⟩ straight describedUpgrade =
        (.ok (.ofText "target/DB.zip"), d') ∧
      d'.fileAt? (recordsPlace describedUpgrade.home (straight.target.join "DB") .objects) =
        some c ∧
      d'.fileAt? (scriptPlace describedUpgrade.home (straight.target.join "DB")) =
        some (.text script) ∧
      loaderPiece "DB_OBJECTS" <:+: script ∧ CallsLoader script "DB_OBJECTS" ∧
      d'.fileAt? (controlPlace describedUpgrade.home (straight.target.join "DB") "DB_OBJECTS") =
        none := by
  obtain ⟨d', hd', _, hcontrol⟩ := run_describedUpgrade
  obtain ⟨_, _, _, _, hfilled, hfiles⟩ :=
    Filled.of_run (Path.wellFormed_ofText _) sound_describedUpgrade hd'
  obtain ⟨c, hc, _⟩ := hfilled.records .objects
  rw [← hfiles _ ⟨_, recordsPlace_eq _ _ _⟩] at hc
  obtain ⟨before, after, hscript⟩ := script_of_run (Path.wellFormed_ofText _)
    sound_describedUpgrade below_stagedDisk_describedUpgrade (noSharedScript_of_none rfl) hd'
  refine ⟨d', c, _, hd', hc, hscript, ?_, callsLoader_pieces (by decide) before after, hcontrol⟩
  have hfirst : loaderPiece "DB_OBJECTS" <:+: loadedNames.flatMap loaderPiece :=
    (List.prefix_append _ _).isInfix
  exact hfirst.trans (List.infix_append before _ after)

end Compile
end SchemaPackage
