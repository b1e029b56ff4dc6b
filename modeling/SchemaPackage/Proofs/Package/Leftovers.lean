import SchemaPackage.Proofs.Package.Chance
import SchemaPackage.Proofs.Package.Clearing
import SchemaPackage.Proofs.Package.Readiness
import SchemaPackage.Proofs.Package.TableFiles

/-!
What an earlier compilation has left does not matter. Two disks that are the same outside of the
package, the staging folder and the archive are cleared in the same way, so that from the staging on
they are the same but for the archive, and the results are the same. In particular a compilation
that is repeated gives the same result, as long as no table is called by a name that leads out of
the package.
-/
namespace SchemaPackage

open Job Outcome Text Disk

namespace Compile

open Package

variable {home l : Location} {target made : Path} {d d' : Disk} {name : Text}
  {settings : Settings} {Doubted : Fault → Prop}

theorem acceptsFile_of_none {front : Location} (hnone : d.entryAt? (front ++ [name]) = none)
    (hopen : front ∉ d.closed) (hname : name.byteLength ≤ maxFileNameBytes) :
    d.acceptsFile (front ++ [name]) = true := by
  rw [acceptsFile_concat hnone, takesNew, Bool.and_eq_true, Bool.not_eq_true',
    List.contains_eq_mem, decide_eq_false_iff_not, decide_eq_true_iff]
  exact ⟨hopen, hname⟩

/-- In a staging folder that has just been made there is nothing but folders. -/
theorem entryAt?_of_makeStaging (htarget : target.WellFormed) (hdown : target.Descends)
    (hd : Ready home target d)
    (hnone : ∀ l, (target.join "DB_STAGING").place home <+: l → d.entryAt? l = none)
    (h : makeStructure (target.join "DB_STAGING") d = (.ok made, d')) {f : Text}
    (hf : f ∈ rawFolders) :
    d'.entryAt? ((target.join "DB_STAGING").place home ++ [f, name]) = none := by
  have hplace : (target.join "DB_STAGING").place home <+:
      (target.join "DB_STAGING").place home ++ [f, name] :=
    List.prefix_append _ _
  obtain ⟨_, _, _, hfiles⟩ := fileAt?_of_makeStructure (htarget.join _) hd.sound h
  have hbefore := hnone _ hplace
  rw [entryAt?_eq_none_iff] at hbefore ⊢
  refine ⟨?_, (hfiles _).trans hbefore.2⟩
  rw [Bool.eq_false_iff]
  intro hfolder
  have hsteps : ∀ steps ∈ structureSteps, ∀ l,
      l = (target.join "DB_STAGING").place home ++ [f, name] →
        ¬ l <+: (target.join "DB_STAGING").place home ++ steps := by
    rintro steps hsteps l rfl hway
    have hway := (List.prefix_append_right_inj _).mp hway
    rcases List.mem_append.mp hsteps with hsteps | hsteps
    · obtain ⟨_, _, rfl⟩ := List.mem_map.mp hsteps
      exact absurd hway.length_le (by simp)
    · obtain ⟨_, _, rfl⟩ := List.mem_map.mp hsteps
      have htools : ("TOOLS" : Text) ∉ rawFolders := by decide
      exact htools ((List.cons_prefix_cons.mp hway).1 ▸ hf)
  have hmakes : MakesNone home (· = (target.join "DB_STAGING").place home ++ [f, name])
      (makeStructure (target.join "DB_STAGING")) :=
    makesNone_makeStructure (hdown.join isName_staging) hsteps
  obtain ⟨_, hfolders⟩ := hmakes.of_eq_ok hd.home_eq h
  rw [hfolders _ rfl hfolder] at hbefore
  cases hbefore.1

/-- Where the target takes new files, the archive can be written. -/
theorem accepts_archive (hdown : target.Descends) (hd : Ready home target d)
    (hopen : target.place home ∉ d.closed) (husable : (target.join "DB_STAGING").isUsable = true)
    (hthere : d.isFolderAt (target.place home) = true) : d.Accepts (target.join "DB.zip") := by
  have hzip : IsName "DB.zip" := by decide
  have harchive : (target.join "DB.zip").isUsable = true := by
    have hjoin {name : Text} (hname : IsName name) :
        target.join name = ⟨target.stump ++ [name]⟩ := by
      rw [← Path.pieces_join target hname]
    rw [hjoin isName_staging] at husable
    rw [hjoin hzip]
    exact Path.isUsable_append (List.cons_ne_nil _ _) (List.cons_ne_nil _ _) (by decide)
      (by decide) husable
  refine ⟨(target.join "DB.zip").place home, ?_, ?_⟩
  · rw [← hd.home_eq] at hthere ⊢
    exact hd.rooted.locate?_join hdown hzip harchive hthere
  · cases hentry : d.entryAt? ((target.join "DB.zip").place home) with
    | none =>
      rw [Path.place_join hzip] at hentry ⊢
      exact acceptsFile_of_none hentry hopen (by decide)
    | some entry =>
      cases entry with
      | file c => rw [Disk.acceptsFile, hentry]
      | folder =>
        have hno := hd.archive
        rw [isFolderAt, hentry] at hno
        cases hno

/-- A file can be written in one of the folders of descriptions, if it has a short name. -/
theorem accepts_stagedCopy (hdown : target.Descends) (hd : Ready home target d) {f : Text}
    (hf : f ∈ rawFolders)
    (husable : (((target.join "DB_STAGING").join "TOOLS").join "SCHEMA_CREATION").isUsable = true)
    (hthere : d.isFolderAt (((target.join "DB_STAGING").join f).place home) = true)
    (hnone : d.entryAt? ((target.join "DB_STAGING").place home ++ [f, ("DB.zip" : Text)]) = none) :
    d.Accepts (((target.join "DB_STAGING").join f).join "DB.zip") := by
  have hname : IsName f := isName_of_mem_rawFolders hf
  have hzip : IsName "DB.zip" := by decide
  have hshort : ∀ f ∈ rawFolders, (Text.joined "/" [f, "DB.zip"]).byteLength ≤
      (Text.joined "/" [("TOOLS" : Text), "SCHEMA_CREATION"]).byteLength ∧
        '\x00' ∉ Text.joined "/" [f, "DB.zip"] := by
    decide
  have hcopy : (((target.join "DB_STAGING").join f).join "DB.zip").isUsable = true := by
    have hjoin {a b : Text} (ha : IsName a) (hb : IsName b) :
        ((target.join "DB_STAGING").join a).join b =
          ⟨(target.join "DB_STAGING").stump ++ [a, b]⟩ := by
      have hpieces := Path.pieces_join ((target.join "DB_STAGING").join a) hb
      rw [Path.stump_join _ ha, Path.pieces_join _ ha, List.append_assoc] at hpieces
      rw [← List.singleton_append, ← hpieces]
    rw [hjoin (by decide) (by decide)] at husable
    rw [hjoin hname hzip]
    exact Path.isUsable_append (List.cons_ne_nil _ _) (List.cons_ne_nil _ _) (hshort f hf).1
      (hshort f hf).2 husable
  refine ⟨(((target.join "DB_STAGING").join f).join "DB.zip").place home, ?_, ?_⟩
  · rw [← hd.home_eq] at hthere ⊢
    exact hd.rooted.locate?_join ((hdown.join isName_staging).join hname) hzip hcopy hthere
  · have hsplit : (target.join "DB_STAGING").place home ++ [f, ("DB.zip" : Text)] =
        ((target.join "DB_STAGING").place home ++ [f]) ++ [("DB.zip" : Text)] := by
      rw [List.append_assoc]
      rfl
    rw [place_stagedCopy hf, hsplit]
    rw [hsplit] at hnone
    refine acceptsFile_of_none hnone (fun hmem => ?_) (by decide)
    exact hd.closed _ hmem (List.prefix_append _ _)

theorem changes_makeStructure {folder : Path} (htarget : target.WellFormed)
    (hfolder : IsOwn target folder) (hd : Ready home target d) :
    Changes (scope home target fun _ => False) d (makeStructure folder d).2 :=
  takes_makeStructure hfolder htarget d hd.home_eq hd.sound

/-- Once the staging folder has been made, the archive can be written, and so can copies of it in
the folders of descriptions. -/
theorem hosts_of_makeStaging (htarget : target.WellFormed) (hdown : target.Descends)
    (hd : Ready home target d) (hopen : target.place home ∉ d.closed)
    (hnone : ∀ l, (target.join "DB_STAGING").place home <+: l → d.entryAt? l = none)
    (h : makeStructure (target.join "DB_STAGING") d = (.ok made, d')) :
    d'.Hosts home (IsSpare target) := by
  have hchanges := changes_makeStructure htarget (Or.inr rfl) hd
  rw [h] at hchanges
  have hd' := hd.of_changes hdown hchanges
  have hstart : d.isFolderAt (d.start (target.join "DB_STAGING")) = true := by
    rw [Disk.start, Path.isAbsolute_join target isName_staging]
    exact hd.start
  obtain ⟨hmade, husable⟩ := makeStructure_eq_ok hd.rooted hstart h
  have hfolders (f : Text) (hf : f ∈ packageFolders) :
      d'.isFolderAt (((target.join "DB_STAGING").join f).place home) = true := by
    rw [← hd'.home_eq]
    exact (isFolder_iff_locate?.mp (hmade f hf)).2
  refine ⟨hd'.home_eq, hd'.sound, ?_⟩
  rintro q (rfl | ⟨f, hf, rfl⟩)
  · have hthere : d'.isFolderAt (target.place home) = true := by
      have htable := hfolders "TABLE" (by decide)
      refine hd'.rooted.isFolderAt_above htable ?_
      rw [Path.place_join (by decide), Path.place_join isName_staging, List.append_assoc]
      exact List.prefix_append _ _
    refine accepts_archive hdown hd' ?_ ?_ hthere
    · rwa [hchanges.settings.2]
    · exact Path.isUsable_above (by decide) (Path.isUsable_above (by decide) husable)
  · exact accepts_stagedCopy hdown hd' hf husable
      (hfolders f (mem_packageFolders_of_mem_rawFolders f hf))
      (entryAt?_of_makeStaging htarget hdown hd hnone h hf)

/-- Places that have been cleared, or were never different. -/
def IsSettled (home : Location) (target : Path) (l : Location) : Prop :=
  ¬ (target.join "DB_STAGING").place home <+: l ∧ l ≠ (target.join "DB.zip").place home

theorem isSettled_of_above (hl : l <+: target.place home) : IsSettled home target l := by
  refine ⟨not_place_join_above isName_staging hl, ?_⟩
  rintro rfl
  exact not_place_join_above (by decide) hl (List.prefix_refl _)

theorem isSettled_of_package (hl : (target.join "DB").place home <+: l) :
    IsSettled home target l := by
  have hdb : IsName "DB" := by decide
  have hzip : IsName "DB.zip" := by decide
  refine ⟨fun h => absurd (eq_of_places_above isName_staging hdb h hl) (by decide), ?_⟩
  rintro rfl
  exact absurd (eq_of_places_above hdb hzip hl (List.prefix_refl _)) (by decide)

/-- The package is made alike, where there was one before as where there was none. -/
theorem agreeOn_createPackage (htarget : target.WellFormed) (hdown : target.Descends)
    (husable : (target.join "DB").isUsable = true) (hd : Ready home target d)
    (hd' : Ready home target d') (h : AgreeOn (IsForeign home target) d d') :
    (createStructure target "DB" d').1 = (createStructure target "DB" d).1 ∧
      (Ready home target (createStructure target "DB" d).2 ∧
        Ready home target (createStructure target "DB" d').2 ∧
        AgreeOn (IsSettled home target) (createStructure target "DB" d).2
          (createStructure target "DB" d').2) ∧
      ∀ made, (createStructure target "DB" d).1 = .ok made →
        target.place home ∉ (createStructure target "DB" d).2.closed := by
  have hname : IsName "DB" := by decide
  have hforeign (l : Location) (hl : IsSettled home target l)
      (hbeside : ¬ (target.join "DB").place home <+: l) : IsForeign home target l := by
    refine ⟨?_, hl.2⟩
    rintro folder (rfl | rfl)
    · exact hbeside
    · exact hl.1
  obtain ⟨e, e', he, he', hsame, hagree⟩ := agreeOn_createStructure hdown hname (Or.inl rfl) husable
    hd hd' h hforeign (fun _ => isSettled_of_above) (fun _ => isSettled_of_package)
  rw [he.run, he'.run]
  have hchanges := changes_makeStructure htarget (Or.inl rfl) he.ready
  have hchanges' := changes_makeStructure htarget (Or.inl rfl) he'.ready
  refine ⟨hsame, ⟨he.ready.of_changes hdown hchanges, he'.ready.of_changes hdown hchanges', hagree⟩,
    fun made hmade => ?_⟩
  obtain ⟨f, hf⟩ := exists_of_fst_eq hmade
  have htakes := takesNew_of_makeStructure hname he.ready
    (he.none _ (List.prefix_refl _)) hf
  rw [takesNew, Bool.and_eq_true, Bool.not_eq_true', List.contains_eq_mem,
    decide_eq_false_iff_not] at htakes
  rw [hchanges.settings.2]
  exact htakes.1

/-- A structure is begun with the folder of its tools. -/
theorem makeStructure_run (folder : Path) (d : Disk) : makeStructure folder d =
    match d.makeFolders (folder.join "TOOLS") with
    | (e, true) => (do
        packageFolders.tail.forM fun f => makeFolder (folder.join f)
        toolFolders.forM fun f => makeFolder ((folder.join "TOOLS").join f)
        return folder : Job Path) e
    | (e, false) => (.error (.unwritable (folder.join "TOOLS")), e) := by
  have hfirst : packageFolders.forM (fun f => makeFolder (folder.join f)) =
      (makeFolder (folder.join "TOOLS") >>= fun _ =>
        packageFolders.tail.forM fun f => makeFolder (folder.join f)) := rfl
  rw [makeStructure, hfirst, bind_assoc, bind_run]
  unfold makeFolder advance
  rcases d.makeFolders (folder.join "TOOLS") with ⟨e, _ | _⟩ <;> rfl

/-- Where nothing is, nothing is cleared. -/
theorem createStructure_of_missing (hthere : d.isThere (target.join name) = false) :
    createStructure target name d = makeStructure (target.join name) d := by
  rw [createStructure_run, hthere, if_neg Bool.false_ne_true]

theorem makeStructure_of_unusable {folder : Path} (h : (folder.join "TOOLS").isUsable = false)
    (d : Disk) :
    makeStructure folder d = (.error (.unwritable (folder.join "TOOLS")), d) := by
  have hmade : d.makeFolders (folder.join "TOOLS") = (d, false) := by
    rw [Disk.makeFolders, h]
    rfl
  rw [makeStructure_run, hmade]

/-- Nothing is done under a path that is too long. -/
theorem createStructure_of_unusable (hunusable : (target.join name).isUsable = false) (d : Disk) :
    createStructure target name d =
      (.error (.unwritable ((target.join name).join "TOOLS")), d) := by
  have htools : ((target.join name).join "TOOLS").isUsable = false := by
    rw [Bool.eq_false_iff]
    intro husable
    rw [Path.isUsable_above (by decide) husable] at hunusable
    cases hunusable
  have hthere : d.isThere (target.join name) = false := by
    rw [isThere, entry?, locate?, hunusable]
    rfl
  rw [createStructure_of_missing hthere, makeStructure_of_unusable htools]

/-- The staging folder is made alike, and then the disks are the same but for the archive. -/
theorem agrees_createStaging (htarget : target.WellFormed) (hdown : target.Descends)
    (hopen : target.place home ∉ d.closed) (hd : Ready home target d) (hd' : Ready home target d')
    (h : AgreeOn (IsSettled home target) d d') :
    (createStructure target "DB_STAGING" d').1 = (createStructure target "DB_STAGING" d).1 ∧
      (∀ l, (target.join "DB").place home <+: l →
        (createStructure target "DB_STAGING" d').2.entryAt? l =
          (createStructure target "DB_STAGING" d).2.entryAt? l) ∧
      ∀ made, (createStructure target "DB_STAGING" d).1 = .ok made →
        Alike home (IsSpare target) (createStructure target "DB_STAGING" d).2
          (createStructure target "DB_STAGING" d').2 := by
  cases husable : (target.join "DB_STAGING").isUsable with
  | false =>
    rw [createStructure_of_unusable husable,
      createStructure_of_unusable husable]
    exact ⟨rfl, fun l hl => h.same l (isSettled_of_package hl), fun _ hmade => by cases hmade⟩
  | true =>
    have hbelow (l : Location) (hl : (target.join "DB_STAGING").place home <+: l) :
        l ≠ (target.join "DB.zip").place home := by
      rintro rfl
      have hzip : IsName "DB.zip" := by decide
      exact absurd (eq_of_places_above isName_staging hzip hl (List.prefix_refl _)) (by decide)
    obtain ⟨e, e', he, he', hsame, hagree⟩ := agreeOn_createStructure hdown isName_staging
      (Or.inr rfl) husable hd hd' h (fun l hl hbeside => ⟨hbeside, hl⟩)
      (fun l hl => (isSettled_of_above hl).2) hbelow
    rw [he.run, he'.run]
    refine ⟨hsame, fun l hl => hagree.same l (isSettled_of_package hl).2, fun made hmade => ?_⟩
    obtain ⟨f, hf⟩ := exists_of_fst_eq hmade
    obtain ⟨f', hf'⟩ := exists_of_fst_eq (hsame.trans hmade)
    have hopen' : target.place home ∉ e'.closed := by
      rwa [he'.kept.closed, h.closed]
    have hleft := hosts_of_makeStaging htarget hdown he.ready (by rwa [he.kept.closed]) he.none hf
    have hright := hosts_of_makeStaging htarget hdown he'.ready hopen' he'.none hf'
    rw [hf, hf'] at hagree ⊢
    exact ⟨hleft, hright, hagree.home, hagree.closed, fun l hl => hagree.same l (hl _ (Or.inl rfl))⟩

/-- Whatever earlier compilations have left, the result is the same. -/
theorem result_of_leftovers (settings : Settings) (moment : Moment)
    (htarget : settings.target.WellFormed) (hdown : settings.target.Descends)
    (husable : (settings.target.join "DB").isUsable = true)
    (htools : ∀ shared ∈ settings.shared,
      ¬ (shared.join "TOOLS").place home <+: settings.target.place home)
    (hd : Ready home settings.target d) (hd' : Ready home settings.target d')
    (h : AgreeOn (IsForeign home settings.target) d d') :
    SameResult Doubted home settings.target (run moment settings d) (run moment settings d') := by
  have hpackage (e e' : Disk) (h : AgreeOn (IsSettled home settings.target) e e') (l : Location)
      (hl : (settings.target.join "DB").place home <+: l) : e'.entryAt? l = e.entryAt? l :=
    h.same l (isSettled_of_package hl)
  have hspare (e e' : Disk) (h : Alike home (IsSpare settings.target) e e') :=
    package_of_alike (fun _ => id) e e' h
  obtain ⟨hsame, ⟨hmade, hmade', hagree⟩, hopen⟩ :=
    agreeOn_createPackage htarget hdown husable hd hd' h
  rw [run_eq, prepare, createStructure_bind _ "DB_STAGING", bind_assoc]
  refine sameResult_bind (R := AgreeOn (IsSettled home settings.target)) ⟨hsame, hagree⟩ hpackage
    fun _ e e' hrun hrun' hagree => ?_
  rw [hrun] at hmade hopen
  rw [hrun'] at hmade'
  obtain ⟨hsame, hpackage, halike⟩ :=
    agrees_createStaging htarget hdown (hopen _ rfl) hmade hmade' hagree
  rw [bind_assoc]
  refine sameResult_bind (R := fun e e' => ∀ l, (settings.target.join "DB").place home <+: l →
    e'.entryAt? l = e.entryAt? l) ⟨hsame, hpackage⟩ (fun _ _ => id) fun _ f f' hrun hrun' _ => ?_
  have halike : Alike home (IsSpare settings.target) f f' := by
    have halike := halike _ (by rw [hrun])
    rwa [hrun, hrun'] at halike
  -- From the staging on, the archive and its copies are the only difference.
  refine sameResult_bind (agrees_stage htarget hdown f f' halike) hspare fun _ f f' _ _ halike => ?_
  refine sameResult_bind (agrees_fill htarget _ f f' halike) hspare fun _ f f' _ _ halike => ?_
  refine sameResult_bind (agrees_finish htarget hdown htools f f' halike) hspare
    fun _ f f' _ _ halike => ?_
  exact (sameResult_pack htarget hdown halike).andReturn _

/-- A compilation starts from the package that it makes. -/
theorem run_congr (moment : Moment)
    (h : createStructure settings.target "DB" d' = createStructure settings.target "DB" d) :
    stagedDisk settings d' = stagedDisk settings d ∧
      run moment settings d' = run moment settings d := by
  constructor
  · rw [stagedDisk_eq, stagedDisk_eq, prepare, bind_run, bind_run, h]
  · rw [run, bind_run, bind_run, h]

theorem run_of_createPackage_error {fault : Fault} (moment : Moment)
    (h : createStructure settings.target "DB" d = (.error fault, d')) :
    run moment settings d = (.error fault, d') := by
  rw [run, bind_run, h]

/-- A compilation into a folder that was there, after an earlier one into the same folder. -/
theorem result_of_earlier_into (settings : Settings) (first moment : Moment) {earlier : Settings}
    (hsame : earlier.target = settings.target) (htarget : settings.target.WellFormed)
    (hdown : settings.target.Descends)
    (htools : ∀ shared ∈ settings.shared,
      ¬ (shared.join "TOOLS").place home <+: settings.target.place home)
    (hd : Ready home settings.target d) (hthere : d.isFolderAt (settings.target.place home) = true)
    (hnames : ∀ t, Described earlier (stagedDisk earlier d) t → '/' ∉ t.name) :
    SameResult Doubted home settings.target (run moment settings d)
      (run moment settings (run first earlier d).2) := by
  cases husable : (settings.target.join "DB").isUsable with
  | false =>
    have hfailed := createStructure_of_unusable husable d
    rw [← hsame] at hfailed
    rw [run_of_createPackage_error first hfailed]
    exact SameResult.refl _
  | true =>
    rw [← hsame] at htarget hdown hd hthere
    obtain ⟨hhome, hclosed⟩ := (changes_run first htarget hd.sound).settings
    have hd' : Ready home earlier.target (run first earlier d).2 := hd.run htarget hdown
    have hforeign (l : Location) (hl : IsForeign home earlier.target l) :
        (run first earlier d).2.entryAt? l = d.entryAt? l := by
      rw [← hd.home_eq] at hl hthere
      rcases foreign_of_run first htarget hd.sound hl with
        hkept | ⟨hway, hnone, _⟩ | ⟨t, _, ht, hslash, _⟩
      · exact hkept
      · have hfolder := hd.rooted.isFolderAt_above hthere (hdown.prefix_of_onWay hway)
        rw [isFolderAt, hnone] at hfolder
        cases hfolder
      · exact absurd hslash (hnames t ht)
    rw [hsame] at htarget hdown hd hd' hforeign
    exact result_of_leftovers settings moment htarget hdown husable htools hd hd'
      ⟨hhome, hclosed, hforeign⟩

/-- In a target that is missing there is no package to be cleared. -/
theorem createPackage_of_missing (hhome : d.home = home)
    (hnone : d.entryAt? ((target.join "DB").place home) = none) :
    createStructure target "DB" d = makeStructure (target.join "DB") d := by
  refine createStructure_of_missing ?_
  rw [isThere, entry?]
  cases hlocate : d.locate? (target.join "DB") with
  | none => rfl
  | some l => rw [Option.bind_some, locate?_eq_some hlocate, hhome, hnone, Option.isSome_none]

/-- Making the target first makes no difference. -/
theorem createPackage_of_made (hdown : target.Descends) (hd : Ready home target d)
    (hnone : d.entryAt? ((target.join "DB").place home) = none)
    (husable : ((target.join "DB").join "TOOLS").isUsable = true) :
    createStructure target "DB" (d.makeFolders target).1 = createStructure target "DB" d ∧
      ((d.makeFolders target).2 = false → createStructure target "DB" d =
        (.error (.unwritable ((target.join "DB").join "TOOLS")), (d.makeFolders target).1)) := by
  have hdb : IsName "DB" := by decide
  have htools : IsName "TOOLS" := by decide
  have hstill : (d.makeFolders target).1.entryAt? ((target.join "DB").place home) = none := by
    rcases entryAt?_makeFolders target d ((target.join "DB").place home) with hsame | ⟨_, _, hway⟩
    · rw [hsame, hnone]
    · rw [hd.home_eq] at hway
      exact absurd (List.prefix_refl _)
        (not_place_join_above hdb (hdown.prefix_of_onWay hway))
  have hpieces : ((target.join "DB").join "TOOLS").pieces =
      target.stump ++ [("DB" : Text), ("TOOLS" : Text)] := by
    rw [Path.pieces_join _ htools, Path.stump_join _ hdb, Path.pieces_join _ hdb, List.append_assoc]
    rfl
  have habove := Path.isUsable_above htools husable
  obtain ⟨hsame, hfailed⟩ := makeFolders_above (Path.isUsable_above hdb habove) husable
    ((Path.isAbsolute_join _ htools).trans (Path.isAbsolute_join _ hdb)) hpieces d
  rw [createPackage_of_missing hd.home_eq hnone,
    createPackage_of_missing ((settings_makeFolders target d).1.trans hd.home_eq) hstill,
    makeStructure_run, makeStructure_run, hsame]
  refine ⟨rfl, fun hflag => ?_⟩
  rw [hfailed hflag]
  rcases hmade : d.makeFolders target with ⟨e, flag⟩
  rw [hmade] at hflag
  obtain rfl : flag = false := hflag
  rfl

/-- A compilation gives the same result after an earlier one into the same target, unless that one
had a table called by a name that leads elsewhere. -/
theorem result_of_earlier (settings : Settings) (first moment : Moment) {earlier : Settings}
    (hsame : earlier.target = settings.target) (htarget : settings.target.WellFormed)
    (hdown : settings.target.Descends)
    (htools : ∀ shared ∈ settings.shared,
      ¬ (shared.join "TOOLS").place home <+: settings.target.place home)
    (hd : Ready home settings.target d)
    (hnames : ∀ t, Described earlier (stagedDisk earlier d) t → '/' ∉ t.name) :
    SameResult Doubted home settings.target (run moment settings d)
      (run moment settings (run first earlier d).2) := by
  cases hthere : d.isFolderAt (settings.target.place home) with
  | true =>
    exact result_of_earlier_into settings first moment hsame htarget hdown htools hd hthere hnames
  | false =>
    have hnone : d.entryAt? ((settings.target.join "DB").place home) = none := by
      rw [Path.place_join (by decide)]
      by_contra hsome
      rw [hd.rooted _ _ hsome] at hthere
      cases hthere
    cases husable : ((settings.target.join "DB").join "TOOLS").isUsable with
    | false =>
      have hfailed := makeStructure_of_unusable husable d
      rw [← createPackage_of_missing hd.home_eq hnone, ← hsame] at hfailed
      rw [run_of_createPackage_error first hfailed]
      exact SameResult.refl _
    | true =>
      obtain ⟨hmade, hfailed⟩ := createPackage_of_made hdown hd hnone husable
      have hmade' := hmade
      rw [← hsame] at hmade'
      cases hflag : (d.makeFolders settings.target).2 with
      | false =>
        have hfailed := hfailed hflag
        rw [← hsame] at hfailed
        rw [run_of_createPackage_error first hfailed, hsame, (run_congr moment hmade).2]
        exact SameResult.refl _
      | true =>
        have hchange : Change (scope home settings.target fun _ => False) d
            (d.makeFolders settings.target).1 :=
          .make ⟨htarget, rfl, fun l => Or.inl⟩
        have hfolder := (isFolder_iff_locate?.mp (hd.rooted.isFolder_makeFolders hd.start hflag)).2
        rw [(settings_makeFolders _ _).1] at hfolder
        rw [hd.home_eq] at hfolder
        obtain ⟨hstaged, hfirst⟩ := run_congr first hmade'
        rw [hsame] at hstaged hfirst
        rw [← hstaged] at hnames
        have hresult : SameResult Doubted home settings.target _ _ :=
          result_of_earlier_into settings first moment hsame htarget hdown htools
            (hd.of_change hdown hchange) hfolder hnames
        rwa [hfirst, (run_congr moment hmade).2] at hresult

/-- What has been left in the package, in the staging folder and in place of the archive does not
matter to a compilation whose target never goes up and is not among the shared tools: its outcome is
the same, and unless the path to the package is too long, so is the package, and after success
everything. In particular it can be repeated, and it can follow any other compilation into its
target, unless a table of that one is called by a name with a slash. Each compilation may meet with
chance of its own. Only where two columns of a dictionary table have the same field, they have to go
through the columns in the same order, and where they choose differently among the faults of several
tables, each of these may be reported. -/
theorem leftovers_of_run (moment : Moment) (chance : Chance) (htarget : settings.target.WellFormed)
    (hdown : settings.target.Descends)
    (htools : ∀ shared ∈ settings.shared,
      ¬ (shared.join "TOOLS").place home <+: settings.target.place home)
    (hd : Ready home settings.target d)
    (horder : chance.order = settings.chance.order ∨
      HasOwnFields settings (stagedDisk settings d)) :
    (∀ d', Ready home settings.target d' → AgreeOn (IsForeign home settings.target) d d' →
      SameOutcome (InDoubt settings chance (stagedDisk settings d)) (run moment settings d).1
          (run moment { settings with chance } d').1 ∧
        ((settings.target.join "DB").isUsable = true →
          SameResult (InDoubt settings chance (stagedDisk settings d)) home settings.target
            (run moment settings d) (run moment { settings with chance } d'))) ∧
      ∀ (first : Moment) (earlier : Settings), earlier.target = settings.target →
        (∀ t, Described earlier (stagedDisk earlier d) t → '/' ∉ t.name) →
          SameResult (InDoubt settings chance (stagedDisk settings d)) home settings.target
            (run moment settings d)
            (run moment { settings with chance } (run first earlier d).2) := by
  have hchance := sameButFault_run moment horder
  refine ⟨fun d' hd' hagree => ?_, fun first earlier hsame hnames => .of_sameButFault hchance
    (result_of_earlier { settings with chance } first moment hsame htarget hdown htools hd hnames)⟩
  cases husable : (settings.target.join "DB").isUsable with
  | true =>
    have hresult := SameResult.of_sameButFault hchance (result_of_leftovers
      { settings with chance } moment htarget hdown husable htools hd hd' hagree)
    exact ⟨hresult.outcome, fun _ => hresult⟩
  | false =>
    have hfailed := createStructure_of_unusable husable
    rw [run_of_createPackage_error moment (hfailed d)]
    have hfailed' : (run moment { settings with chance } d').1 = _ :=
      congrArg Prod.fst (run_of_createPackage_error moment (hfailed d'))
    rw [hfailed']
    exact ⟨.same _, fun h => absurd h Bool.false_ne_true⟩

theorem not_mem_name_of_described
    (h : ∀ name ∈ d.descriptions ((settings.target.join "DB_STAGING").join "TABLE"),
      ∀ u ∈ readTable? d ((settings.target.join "DB_STAGING").join "TABLE") settings.tracked name,
        '/' ∉ u.name)
    {t : Table} (ht : Described settings d t) : '/' ∉ t.name := by
  obtain ⟨tables, hin, ht⟩ := ht
  have hmem : t.name ∈ tables.map Table.name := List.mem_map_of_mem ht
  rw [map_name_of_tablesIn hin] at hmem
  obtain ⟨name, hname, hmem⟩ := List.mem_flatMap.mp hmem
  obtain ⟨u, hread, hnames⟩ := List.mem_map.mp hmem
  rw [← hnames]
  exact h name hname u (Option.mem_toList.mp hread)

theorem hasOwnFields_of_checks
    (h : ∀ k : Dictionary, ∀ u ∈ readTable? d
      ((settings.target.join "DB_STAGING").join "TABLE") false (k.tableName ++ ".XML"),
        (u.columns.toList.map fun c => Text.lower c.name).Nodup) :
    HasOwnFields settings d := by
  intro k t ht
  obtain ⟨u, hread, hplain⟩ := Option.map_eq_some_iff.mp (plain_readTable? ht)
  have hcolumns : u.plain.columns.toList = t.plain.columns.toList := by rw [hplain]
  change u.columns.toList.map Column.undated = t.columns.toList.map Column.undated at hcolumns
  have hfields := congrArg (List.map fun c => Text.lower c.name) hcolumns
  rw [List.map_map, List.map_map] at hfields
  exact hfields ▸ h k u hread

theorem agreeOn_foldl_put {P : Location → Prop} {entries : List (Location × Entry)}
    (h : ∀ e ∈ entries, e.1 ≠ [] ∧ ¬ P e.1) (d : Disk) :
    AgreeOn P d (entries.foldl (fun d e => d.put e.1 e.2) d) := by
  induction entries generalizing d with
  | nil => exact AgreeOn.refl P d
  | cons e rest ih =>
    obtain ⟨hne, hoff⟩ := h e List.mem_cons_self
    have hfirst : AgreeOn P d (d.put e.1 e.2) := by
      refine ⟨rfl, rfl, fun l hl => ?_⟩
      rw [entryAt?_put hne, if_neg]
      rintro rfl
      exact hoff hl
    exact hfirst.trans (ih (fun e he => h e (List.mem_cons_of_mem _ he)) _)

/-- A staging folder and an archive that an earlier compilation has left. -/
def litter : List (Location × Entry) :=
  [(["target", "DB.zip"], .file (.text "OLD")), (["target", "DB_STAGING"], .folder),
   (["target", "DB_STAGING", "TABLE"], .folder),
   (["target", "DB_STAGING", "TABLE", "GONE.XML"], .file (.text "<table"))]

/-- The descriptions are as before, and what is left of the package is not. -/
def litteredDisk : Disk := (olderEntries.take 5 ++ litter).foldl (fun d e => d.put e.1 e.2) {}

theorem sound_litteredDisk : litteredDisk.Sound := sound_foldl_put sound_empty (by decide +kernel)

theorem ready_of_checks (hd : d.Sound) (hclosed : d.closed = [])
    (hchecks : (∀ e ∈ d.entries.toList, d.isFolderAt e.1.dropLast = true) ∧
      d.isFolderAt (d.start target) = true ∧
      (∀ folder ∈ [target.join "DB", target.join "DB_STAGING"],
        d.fileAt? (folder.place d.home) = none) ∧
      d.isFolderAt ((target.join "DB.zip").place d.home) = false) :
    Ready d.home target d where
  home_eq := rfl
  sound := hd
  rooted := rooted_of_forall hchecks.1
  start := hchecks.2.1
  own folder hfolder := by
    refine hchecks.2.2.1 folder ?_
    rcases hfolder with rfl | rfl
    · exact List.mem_cons_self
    · exact List.mem_cons_of_mem _ List.mem_cons_self
  archive := hchecks.2.2.2
  closed l hl := by
    rw [hclosed] at hl
    exact absurd hl List.not_mem_nil

theorem not_isForeign_of_own
    (h : (target.join "DB").place home <+: l ∨ (target.join "DB_STAGING").place home <+: l ∨
      l = (target.join "DB.zip").place home) : ¬ IsForeign home target l := by
  intro hl
  rcases h with hdb | hstaging | hzip
  · exact hl.outside _ (Or.inl rfl) hdb
  · exact hl.outside _ (Or.inr rfl) hstaging
  · exact hl.archive hzip

theorem agreeOn_litteredDisk
    (hown : ∀ e ∈ olderEntries.drop 5 ++ litter, e.1 ≠ [] ∧
      ((target.join "DB").place olderDisk.home <+: e.1 ∨
        (target.join "DB_STAGING").place olderDisk.home <+: e.1 ∨
        e.1 = (target.join "DB.zip").place olderDisk.home)) :
    AgreeOn (IsForeign olderDisk.home target) olderDisk litteredDisk := by
  have hsame (entries : List (Location × Entry)) (hentries : ∀ e ∈ entries,
      e ∈ olderEntries.drop 5 ++ litter) :
      AgreeOn (IsForeign olderDisk.home target)
        ((olderEntries.take 5).foldl (fun d e => d.put e.1 e.2) {})
        ((olderEntries.take 5 ++ entries).foldl (fun d e => d.put e.1 e.2) {}) := by
    rw [List.foldl_append]
    refine agreeOn_foldl_put (fun e he => ?_) _
    obtain ⟨hne, hown⟩ := hown e (hentries e he)
    exact ⟨hne, not_isForeign_of_own hown⟩
  have hleft := hsame _ fun e he => List.mem_append_left _ he
  rw [List.take_append_drop] at hleft
  exact hleft.symm.trans (hsame _ fun e he => List.mem_append_right _ he)

/-- The columns are gone through from behind, and the last fault is reported. -/
def contrary : Chance where
  order := { columns := fun t => t.columns.toList.reverse, perm := fun _ => List.reverse_perm _ }
  choice := {
    pick := fun fault more => (fault :: more).getLast (List.cons_ne_nil fault more)
    mem := fun _ _ => List.getLast_mem _ }

/-- A package that is half there and the litter of a staging folder come to the same, and so does a
second compilation, whatever chance they meet with. -/
theorem leftovers_of_litteredDisk :
    ∃ d', run ⟨2026, 1, 1, 4, 0, 0, 0⟩ straight olderDisk = (.ok (.ofText "target/DB.zip"), d') ∧
      (∀ l, (run ⟨2026, 1, 1, 4, 0, 0, 0⟩ { straight with chance := contrary }
        litteredDisk).2.entryAt? l = d'.entryAt? l) ∧
      ∀ first earlier l, (run ⟨2026, 1, 1, 4, 0, 0, 0⟩ { straight with chance := contrary }
        (run first { straight with chance := earlier } olderDisk).2).2.entryAt? l =
          d'.entryAt? l := by
  have hready : Ready olderDisk.home straight.target olderDisk :=
    ready_of_checks sound_olderDisk (by decide +kernel) (by decide +kernel)
  have hready' : Ready olderDisk.home straight.target litteredDisk := by
    have hhome : litteredDisk.home = olderDisk.home := by decide +kernel
    rw [← hhome]
    exact ready_of_checks sound_litteredDisk (by decide +kernel) (by decide +kernel)
  have hagree : AgreeOn (IsForeign olderDisk.home straight.target) olderDisk litteredDisk :=
    agreeOn_litteredDisk (by decide +kernel)
  have hnames : ∀ t, Described straight (stagedDisk straight olderDisk) t → '/' ∉ t.name := by
    intro t
    exact not_mem_name_of_described (by decide +kernel)
  have hfields : HasOwnFields straight (stagedDisk straight olderDisk) := by
    refine hasOwnFields_of_checks fun k => ?_
    cases k <;> decide +kernel
  obtain ⟨d', hd'⟩ := run_olderDisk
  obtain ⟨hleftovers, hearlier⟩ := leftovers_of_run ⟨2026, 1, 1, 4, 0, 0, 0⟩ contrary
    (Path.wellFormed_ofText _) (by decide) (fun shared hshared => by cases hshared) hready
    (Or.inr hfields)
  have hlittered := (hleftovers litteredDisk hready' hagree).2 (by decide)
  have hagain (first : Moment) (earlier : Chance) :=
    hearlier first { straight with chance := earlier } rfl hnames
  rw [hd'] at hlittered hagain
  exact ⟨d', hd', hlittered.all _ rfl, fun first earlier => (hagain first earlier).all _ rfl⟩

/-- Under a path through a folder that is not there yet, an old package is not cleared, so that its
records stay. -/
theorem leftover_apart :
    AgreeOn (IsForeign olderDisk.home detour.target) olderDisk litteredDisk ∧
      (run ⟨2026, 1, 1, 4, 0, 0, 0⟩ detour olderDisk).1 =
        .ok (.ofText "target/new/../DB.zip") ∧
      (run ⟨2026, 1, 1, 4, 0, 0, 0⟩ detour litteredDisk).1 =
        .ok (.ofText "target/new/../DB.zip") ∧
      (run ⟨2026, 1, 1, 4, 0, 0, 0⟩ detour olderDisk).2.fileAt?
          (recordsPlace olderDisk.home (detour.target.join "DB") .objects) ≠
        (run ⟨2026, 1, 1, 4, 0, 0, 0⟩ detour litteredDisk).2.fileAt?
          (recordsPlace olderDisk.home (detour.target.join "DB") .objects) := by
  refine ⟨agreeOn_litteredDisk (by decide +kernel), ?_⟩
  decide +kernel

end Compile
end SchemaPackage
