import SchemaPackage.Proofs.Package.DataFiles

/-!
A compilation in two parts. First the package is filled from the staged descriptions, and then the
script that installs it is written from what is there, and the package is finished and archived. The
second part touches the tools, the note of the release and what is next to the package, and no other
files. The first writes data files and files with a few other extensions, and no other files.
-/
namespace SchemaPackage

open Job Outcome Text

theorem Dictionary.mem_all (k : Dictionary) : k ∈ Dictionary.all := by
  cases k <;> decide

namespace Disk

variable {d d' : Disk} {home : Location} {P Q : Location → Prop}

theorem Keeps.mono (hPQ : ∀ l, Q l → P l) (h : Keeps home P d d') : Keeps home Q d d' := by
  intro hhome hd
  obtain ⟨hhome', hd', hfiles⟩ := h hhome hd
  exact ⟨hhome', hd', fun l hl => hfiles l (hPQ l hl)⟩

end Disk

namespace Job

variable {α : Type} {home : Location} {P Q : Location → Prop}

theorem Keeps.mono {job : Job α} (hPQ : ∀ l, Q l → P l) (h : Keeps home P job) :
    Keeps home Q job :=
  fun d => (h d).mono hPQ

theorem Keeps.of_eq_ok {job : Job α} {a : α} {d d' : Disk} (h : Keeps home P job)
    (hhome : d.home = home) (hd : d.Sound) (hrun : job d = (.ok a, d')) :
    d'.home = home ∧ d'.Sound ∧ ∀ l, P l → d'.fileAt? l = d.fileAt? l := by
  have hkept := h d hhome hd
  rwa [hrun] at hkept

theorem keeps_building (ctx : Context) (build : Build α) : Keeps home P (building ctx build) := by
  intro d
  unfold building
  rcases build ctx with ⟨_ | _, _⟩ <;> exact Disk.Keeps.refl d

theorem keeps_optional {job : α → Job Unit} (h : ∀ a, Keeps home P (job a)) (a? : Option α) :
    Keeps home P (a?.forM job) := by
  cases a? with
  | none => exact keeps_pure ()
  | some a => exact h a

end Job

namespace Compile

open Package

/-- Fills the package from the staged descriptions. -/
def fill (settings : Settings) (staging db : Path) : Job Unit := do
  let (e, ctx) ← registerAll staging { order := settings.chance.order } {} Dictionary.all
  generateTables settings.chance.choice e staging db settings.tracked ctx
  generateUnits e staging db
  cloneRecords db
  Dictionary.all.forM (writeUpgradeControl e db)

/-- What is left to do in the package once it is filled. -/
def finish (made : Moment) (settings : Settings) (db : Path) : Job Unit := do
  writeScript made settings.release db
  if let some shared := settings.shared then
    copyTemplates shared db
  writeRelease db settings.release

/-- Archives the package and cleans up. -/
def pack (target : Path) : Job Unit := do
  createArchive (target.join "DB") (target.join "DB.zip")
  advance (.removeFailed (target.join "DB_STAGING"))
    (Disk.removeFolder (target.join "DB_STAGING"))

theorem generate_eq (made : Moment) (settings : Settings) (staging db : Path) :
    generate made settings staging db = (do
      fill settings staging db
      finish made settings db) := by
  rw [fill, bind_assoc]
  simp only [bind_assoc]
  rfl

/-- Makes way for the package and gathers the descriptions. -/
def prepare (settings : Settings) : Job Unit := do
  let _ ← createStructure settings.target "DB"
  let staging ← createStructure settings.target "DB_STAGING"
  stage settings staging

theorem stagedDisk_eq (settings : Settings) (d : Disk) :
    stagedDisk settings d = (prepare settings d).2 := rfl

theorem keeps_prepare {home : Location} {P : Location → Prop} {settings : Settings}
    (htarget : settings.target.WellFormed)
    (hpackage : ∀ l, P l → ¬ (settings.target.join "DB").place home <+: l)
    (hstaging : ∀ l, P l → ¬ (settings.target.join "DB_STAGING").place home <+: l) :
    Keeps home P (prepare settings) :=
  keeps_bind (keeps_createStructure htarget hpackage) fun _ _ =>
    keeps_staging_of_not_below htarget hstaging

/-- The path of a structure is known beforehand. -/
theorem createStructure_bind {β : Type} (root : Path) (name : Text) (f : Path → Job β) :
    (createStructure root name >>= f) =
      (createStructure root name >>= fun _ => f (root.join name)) := by
  unfold createStructure
  rw [bind_assoc, bind_assoc]
  refine congrArg _ (funext fun there => ?_)
  split <;> simp only [bind_assoc, pure_bind]

/-- A compilation in parts. -/
theorem run_eq (made : Moment) (settings : Settings) : run made settings = (do
    prepare settings
    fill settings (settings.target.join "DB_STAGING") (settings.target.join "DB")
    finish made settings (settings.target.join "DB")
    pack settings.target
    return settings.target.join "DB.zip") := by
  have hprepare : prepare settings = (do
      let _ ← createStructure settings.target "DB"
      let _ ← createStructure settings.target "DB_STAGING"
      stage settings (settings.target.join "DB_STAGING")) := by
    rw [prepare, createStructure_bind _ "DB_STAGING"]
  rw [run, createStructure_bind, hprepare, bind_assoc]
  refine congrArg _ (funext fun _ => ?_)
  rw [createStructure_bind, bind_assoc]
  refine congrArg _ (funext fun _ => ?_)
  simp only [generate_eq, pack, bind_assoc]

variable {home : Location} {P : Location → Prop} {db p staging : Path} {e : Encoder}

/-- The disk with the filled package, which the script is written from. -/
def filledDisk (settings : Settings) (d : Disk) : Disk :=
  (fill settings (settings.target.join "DB_STAGING") (settings.target.join "DB")
    (stagedDisk settings d)).2

/-- A successful compilation has staged the descriptions, filled the package and finished it. -/
theorem run_eq_ok {made : Moment} {settings : Settings} {package : Path} {d d' : Disk}
    (htarget : settings.target.WellFormed) (hd : d.Sound)
    (h : run made settings d = (.ok package, d')) :
    (stagedDisk settings d).home = d.home ∧ (stagedDisk settings d).Sound ∧
      fill settings (settings.target.join "DB_STAGING") (settings.target.join "DB")
        (stagedDisk settings d) = (.ok (), filledDisk settings d) ∧
      (do
        finish made settings (settings.target.join "DB")
        pack settings.target : Job Unit) (filledDisk settings d) = (.ok (), d') := by
  rw [run_eq] at h
  obtain ⟨_, staged, hprepare, hrest₁⟩ := bind_eq_ok_iff.mp h
  obtain ⟨_, filled, hfill, hrest₂⟩ := bind_eq_ok_iff.mp hrest₁
  obtain ⟨_, d₁, hfinish, hrest₃⟩ := bind_eq_ok_iff.mp hrest₂
  obtain ⟨_, d₂, hpack, hpure⟩ := bind_eq_ok_iff.mp hrest₃
  obtain ⟨_, rfl⟩ := pure_eq_ok_iff.mp hpure
  have hnothing : Keeps d.home (fun _ => False) (prepare settings) :=
    keeps_prepare htarget (fun _ => False.elim) fun _ => False.elim
  obtain ⟨hhome, hsound, _⟩ := hnothing.of_eq_ok rfl hd hprepare
  have hstaged : stagedDisk settings d = staged := by
    rw [stagedDisk_eq, hprepare]
  rw [filledDisk, hstaged, hfill]
  exact ⟨hhome, hsound, rfl, bind_eq_ok_iff.mpr ⟨_, d₁, hfinish, hpack⟩⟩

/-- The place of the folder of the records. -/
def recordsLocation (home : Location) (db : Path) : Location :=
  db.place home ++ [("INIT_TABLE" : Text)]

/-- Files directly in the folder of the records. -/
def InRecords (home : Location) (db : Path) (l : Location) : Prop :=
  ∃ file, l = recordsLocation home db ++ [file]

theorem place_scriptFile (home : Location) (db : Path) : (scriptFile db).place home =
    db.place home ++ [("TOOLS" : Text), ("SCHEMA_CREATION" : Text), ("IFS_MODEL.SQL" : Text)] := by
  have htools : IsName "TOOLS" := by decide
  have hcreation : IsName "SCHEMA_CREATION" := by decide
  have hscript : IsName "IFS_MODEL.SQL" := by decide
  rw [scriptFile, Path.place_join hscript, Path.place_join hcreation, Path.place_join htools,
    List.append_assoc, List.append_assoc]
  rfl

/-- The place of a file directly in a folder of the package. -/
def filePlace (home : Location) (db : Path) (folder file : Text) : Location :=
  db.place home ++ [folder, file]

/-- Folders next to each other have nothing in common. -/
theorem eq_of_places_above {target : Path} {name other : Text} {l : Location} (hname : IsName name)
    (hother : IsName other) (h : (target.join name).place home <+: l)
    (h' : (target.join other).place home <+: l) : name = other := by
  rw [Path.place_join hname] at h
  rw [Path.place_join hother] at h'
  obtain ⟨rest, rfl⟩ := h
  rw [List.append_assoc, List.prefix_append_right_inj] at h'
  exact (List.cons_prefix_cons.mp h').1.symm

/-- What is in the package is not in a folder or file next to it. -/
theorem not_below_beside {target : Path} {name : Text} {l : Location} (hname : IsName name)
    (hne : name ≠ "DB") (hl : (target.join "DB").place home <+: l) :
    ¬ (target.join name).place home <+: l := fun h =>
  hne (eq_of_places_above hname (by decide) h hl)

/-- Places that nothing touches any more once a package is filled: those that are not for tools,
not staged, and not for the note of the release or the archive. -/
structure IsLasting (home : Location) (target : Path) (l : Location) : Prop where
  tools : ¬ (target.join "DB").place home ++ [("TOOLS" : Text)] <+: l
  staged : ¬ (target.join "DB_STAGING").place home <+: l
  release : l ≠ (target.join "DB").place home ++ [("RELEASE.TXT" : Text)]
  archive : l ≠ (target.join "DB.zip").place home

theorem isLasting_filePlace {target : Path} {folder file : Text} (hfolder : folder ≠ "TOOLS") :
    IsLasting home target (filePlace home (target.join "DB") folder file) := by
  have hwithin : (target.join "DB").place home <+:
      filePlace home (target.join "DB") folder file :=
    List.prefix_append _ _
  refine ⟨?_, not_below_beside isName_staging (by decide) hwithin, ?_, ?_⟩
  · rw [filePlace, List.prefix_append_right_inj]
    intro h
    exact hfolder (List.cons_prefix_cons.mp h).1.symm
  · intro h
    exact absurd (List.append_cancel_left h) (by simp)
  · intro h
    refine not_below_beside (by decide : IsName "DB.zip") (by decide) hwithin ?_
    rewrite [h]
    exact List.prefix_refl _

theorem isLasting_of_inRecords {target : Path} {l : Location}
    (h : InRecords home (target.join "DB") l) : IsLasting home target l := by
  obtain ⟨file, rfl⟩ := h
  rw [recordsLocation, List.append_assoc]
  exact isLasting_filePlace (by decide)

/-- Once the package is filled, only its tools and the note of the release are still to come. -/
theorem keeps_finish (made : Moment) (settings : Settings)
    (htarget : settings.target.WellFormed)
    (htools : ∀ l, P l → ¬ (settings.target.join "DB").place home ++ [("TOOLS" : Text)] <+: l)
    (hnote : ∀ l, P l → l ≠ (settings.target.join "DB").place home ++ [("RELEASE.TXT" : Text)]) :
    Keeps home P (finish made settings (settings.target.join "DB")) := by
  have hdb : (settings.target.join "DB").WellFormed := htarget.join _
  have hscript : ¬ P ((scriptFile (settings.target.join "DB")).place home) := by
    intro hl
    refine htools _ hl ?_
    rw [place_scriptFile, List.prefix_append_right_inj]
    exact List.prefix_append [("TOOLS" : Text)] _
  have hrelease : Keeps home P (writeRelease (settings.target.join "DB") settings.release) := by
    refine keeps_write (hdb.join _) (fun hl => hnote _ hl ?_) settings.release
    exact Path.place_join (by decide)
  refine keeps_bind (keeps_writeScript hdb hscript) fun _ _ => ?_
  dsimp only
  split
  · exact keeps_bind (keeps_copyTemplates hdb htools) fun _ _ => hrelease
  · exact hrelease

/-- From one sound disk to another. -/
theorem sound_of_finish {made : Moment} {settings : Settings} {d d' : Disk}
    (htarget : settings.target.WellFormed) (hd : d.Sound)
    (h : finish made settings (settings.target.join "DB") d = (.ok (), d')) :
    d'.home = d.home ∧ d'.Sound := by
  have hnothing : Keeps d.home (fun _ => False) (finish made settings (settings.target.join "DB")) :=
    keeps_finish made settings htarget (fun _ => False.elim) fun _ => False.elim
  obtain ⟨hhome, hd', _⟩ := hnothing.of_eq_ok rfl hd h
  exact ⟨hhome, hd'⟩

theorem keeps_completion (made : Moment) (settings : Settings)
    (htarget : settings.target.WellFormed) :
    Keeps home (IsLasting home settings.target) (do
      finish made settings (settings.target.join "DB")
      pack settings.target) :=
  keeps_bind (keeps_finish made settings htarget (fun _ hl => hl.tools) fun _ hl => hl.release)
    fun _ _ => keeps_archiving htarget (fun hl => hl.archive rfl) fun _ hl => hl.staged

/-- None of the places has a name with that extension. -/
def Spares (P : Location → Prop) (ext : Text) : Prop :=
  ∀ above name, ending name = ext → ¬ P (above ++ [name])

theorem Spares.not_place {file front ext : Text} (hP : Spares P ext)
    (hfile : file = front ++ "." ++ ext) (hext : '/' ∉ ext ∧ '.' ∉ ext ∧ 1 < ext.length) :
    ¬ P ((p.join file).place home) := by
  obtain ⟨above, name, hplace, hending⟩ := Path.exists_place_join_ending home p hfile hext
  rw [hplace]
  exact hP above name hending

theorem keeps_appendRecords (hdb : db.WellFormed) {k : Dictionary}
    (hP : ¬ P (recordsPlace home db k)) (records : Text) :
    Keeps home P (appendRecords db k records) :=
  keeps_change _ fun _ _ h => Disk.keeps_write? (wellFormed_dataFile hdb _) hP h

/-- Writes the statements of a table and of its indexes. -/
def writeStatements (db : Path) (a : Artifacts) : Job Unit := do
  write ((db.join "TABLE").join (a.name ++ ".SQL")) a.tableStatement
  a.indexStatements.forM (write ((db.join "TABLE").join (a.name ++ ".IDX.SQL")))

/-- Adds the records of a table to the dictionary's. -/
def appendAll (db : Path) (a : Artifacts) : Job Unit := do
  appendRecords db .tableColumns a.columnRecords
  appendRecords db .objects a.objectRecord
  appendRecords db .objects a.indexRecords

theorem addTable_eq (db : Path) (a : Artifacts) : addTable db a = (do
    writeStatements db a
    a.controlFile.forM (write (controlFile db a.name))
    appendAll db a) := by
  rw [addTable, writeArtifacts_eq]
  simp only [writeStatements, appendAll, bind_assoc]

theorem keeps_writeStatements (hdb : db.WellFormed) (hP : Spares P "SQL") (a : Artifacts) :
    Keeps home P (writeStatements db a) := by
  have hfolder : (db.join "TABLE").WellFormed := hdb.join _
  have hindexFile : a.name ++ ".IDX.SQL" = (a.name ++ ".IDX") ++ "." ++ "SQL" := by
    rw [List.append_assoc, List.append_assoc]
    rfl
  refine keeps_bind (keeps_write (hfolder.join _) ?_ _) fun _ _ =>
    keeps_optional (fun statements => keeps_write (hfolder.join _) ?_ statements) _
  · exact hP.not_place (List.append_assoc a.name "." "SQL").symm (by decide)
  · exact hP.not_place hindexFile (by decide)

theorem keeps_appendAll (hdb : db.WellFormed) (hP : ∀ k, ¬ P (recordsPlace home db k))
    (a : Artifacts) : Keeps home P (appendAll db a) :=
  keeps_bind (keeps_appendRecords hdb (hP _) _) fun _ _ =>
    keeps_bind (keeps_appendRecords hdb (hP _) _) fun _ _ => keeps_appendRecords hdb (hP _) _

theorem keeps_addTable (hdb : db.WellFormed) (hSQL : Spares P "SQL") (hCTL : Spares P "CTL")
    (hrecords : ∀ k, ¬ P (recordsPlace home db k)) (a : Artifacts) :
    Keeps home P (addTable db a) := by
  have hcontrol : (controlFile db a.name).WellFormed := (hdb.join _).join _
  rw [addTable_eq]
  refine keeps_bind (keeps_writeStatements hdb hSQL a) fun _ _ =>
    keeps_bind (keeps_optional (fun text => keeps_write hcontrol ?_ text) _) fun _ _ =>
      keeps_appendAll hdb hrecords a
  exact hCTL.not_place (List.append_assoc a.name "." "CTL").symm (by decide)

theorem keeps_parseTableFile (ctx : Context) (p : Path) (tracked : Bool) :
    Keeps home P (parseTableFile ctx p tracked) :=
  keeps_bind (keeps_require _ _) fun _ _ => keeps_building _ _

theorem keeps_registerAll (staging : Path) (e : Encoder) (ctx : Context)
    (kinds : List Dictionary) : Keeps home P (registerAll staging e ctx kinds) := by
  induction kinds generalizing e ctx with
  | nil => exact keeps_pure _
  | cons k rest ih =>
    refine keeps_bind (keeps_parseTableFile _ _ _) fun parsed _ => ?_
    obtain ⟨t?, next⟩ := parsed
    cases t? with
    | none => exact keeps_throw _
    | some t => exact keeps_bind (keeps_lift _) fun registered _ => ih registered next

theorem keeps_parseTables (folder : Path) (tracked : Bool) (ctx : Context) (names : List Text) :
    Keeps home P (parseTables folder tracked ctx names) := by
  induction names generalizing ctx with
  | nil => exact keeps_pure _
  | cons name rest ih =>
    exact keeps_bind (keeps_parseTableFile _ _ _) fun parsed _ =>
      keeps_bind (ih parsed.2) fun _ _ => keeps_pure _

theorem keeps_descriptionNames (folder : Path) : Keeps home P (descriptionNames folder) := by
  intro d
  rw [Disk.descriptionNames_eq]
  exact Disk.Keeps.refl d

theorem keeps_generateTables (hdb : db.WellFormed) (hSQL : Spares P "SQL") (hCTL : Spares P "CTL")
    (hrecords : ∀ k, ¬ P (recordsPlace home db k)) (choice : FaultChoice) (tracked : Bool)
    (ctx : Context) : Keeps home P (generateTables choice e staging db tracked ctx) :=
  keeps_bind (keeps_descriptionNames _) fun _ _ => keeps_bind (keeps_parseTables _ _ _ _)
    fun _ _ => keeps_bind (keeps_lift _) fun _ _ =>
      keeps_bind (keeps_forM fun k _ => keeps_appendRecords hdb (hrecords k) _) fun _ _ =>
        keeps_forM fun a _ => keeps_addTable hdb hSQL hCTL hrecords a

theorem keeps_addUnit (hdb : db.WellFormed) {source target : Path} (htarget : target.WellFormed)
    {kind : UnitKind} (hsources : ∀ ext ∈ kind.extensions, Spares P ext)
    (hrecords : ¬ P (recordsPlace home db .objects)) (name : Text) :
    Keeps home P (addUnit e source target db kind name) := by
  refine keeps_bind (keeps_bind (keeps_require _ _) fun _ _ => keeps_lift _) fun u? _ => ?_
  cases u? with
  | none => exact keeps_pure ()
  | some u =>
    refine keeps_bind (keeps_lift _) fun record _ =>
      keeps_bind (keeps_appendRecords hdb hrecords _) fun _ _ => keeps_forM fun file hfile => ?_
    obtain ⟨ext, hext, hfound⟩ := List.mem_filterMap.mp hfile
    obtain ⟨front, hfront⟩ := exists_of_withExtension? hfound
    obtain ⟨hslash, hdot, hlength, _⟩ := isOther_of_mem_extensions hext
    exact keeps_change _ fun _ _ h => Disk.keeps_copy? (htarget.join _)
      ((hsources ext hext).not_place hfront ⟨hslash, hdot, hlength⟩) h

theorem keeps_generateUnits (hdb : db.WellFormed)
    (hsources : ∀ (kind : UnitKind), ∀ ext ∈ kind.extensions, Spares P ext)
    (hrecords : ¬ P (recordsPlace home db .objects)) :
    Keeps home P (generateUnits e staging db) :=
  keeps_bind (keeps_appendRecords hdb hrecords _) fun _ _ => keeps_forM fun kind _ =>
    keeps_bind (keeps_descriptionNames _) fun _ _ => keeps_forM fun name _ =>
      keeps_addUnit hdb (hdb.join _) (hsources kind) hrecords name

/-- The extensions of the files that filling a package writes, besides those of its data files. -/
def writtenExtensions : List Text := ["SQL", "PKS", "PKB", "CTL"]

theorem mem_writtenExtensions {kind : UnitKind} {ext : Text} (h : ext ∈ kind.extensions) :
    ext ∈ writtenExtensions := by
  have hall : ∀ ext ∈ kind.extensions, ext ∈ writtenExtensions := by
    cases kind <;> decide
  exact hall ext h

theorem keeps_fill (hdb : db.WellFormed) (hP : ∀ ext ∈ writtenExtensions, Spares P ext)
    (hrecords : ∀ k, ¬ P (recordsPlace home db k)) (hupgrades : ∀ k, ¬ P (upgradePlace home db k))
    (settings : Settings) : Keeps home P (fill settings staging db) := by
  have hcontrol : Spares P "CTL" := hP _ (by decide)
  refine keeps_bind (keeps_registerAll _ _ _ _) fun registered _ => ?_
  refine keeps_bind (keeps_generateTables hdb (hP _ (by decide)) hcontrol hrecords _ _ _)
    fun _ _ => ?_
  refine keeps_bind (keeps_generateUnits hdb (fun kind ext hext => ?_) (hrecords _)) fun _ _ => ?_
  · exact hP ext (mem_writtenExtensions hext)
  refine keeps_bind (keeps_forM fun k _ => ?_) fun _ _ => keeps_forM fun k _ => ?_
  · exact keeps_copy _ (wellFormed_dataFile hdb _) (hupgrades k)
  · exact keeps_writeUpgradeControl _ hdb k hcontrol

/-- From one sound disk to another. -/
theorem sound_of_fill {settings : Settings} {d d' : Disk} (hdb : db.WellFormed) (hd : d.Sound)
    (h : fill settings staging db d = (.ok (), d')) : d'.home = d.home ∧ d'.Sound := by
  have hnothing : Keeps d.home (fun _ => False) (fill settings staging db) :=
    keeps_fill hdb (fun _ _ _ _ _ => id) (fun _ => id) (fun _ => id) settings
  obtain ⟨hhome, hd', _⟩ := hnothing.of_eq_ok rfl hd h
  exact ⟨hhome, hd'⟩

end Compile
end SchemaPackage
