import SchemaPackage.Proofs.Package.Readiness

/-!
What a failed compilation leaves of the last package. Everything before the archiving happens in the
two folders that are cleared for it, or writes files with other extensions than that of the archive.
So a compilation that fails there leaves the archive as it was, whatever it has failed for. Nothing
but a folder can be new in the place of the archive: a target may be named by a way that leads
through that place and up again.
-/
namespace SchemaPackage

open Job Outcome Text Disk

namespace Compile

open Package

variable {home : Location} {target : Path} {d d' : Disk} {fault : Fault}

/-- All that is done before the package is archived. -/
def build (made : Moment) (settings : Settings) : Job Unit := do
  prepare settings
  fill settings (settings.target.join "DB_STAGING") (settings.target.join "DB")
  finish made settings (settings.target.join "DB")

theorem run_eq_build (made : Moment) (settings : Settings) : run made settings = (do
    build made settings
    pack settings.target
    return settings.target.join "DB.zip") := by
  rw [run_eq, build]
  simp only [bind_assoc]

/-- Nothing follows a failure. -/
theorem run_of_build {made : Moment} {settings : Settings}
    (h : build made settings d = (.error fault, d')) :
    run made settings d = (.error fault, d') := by
  rw [run_eq_build, bind_run, h]

/-- The place of the archive. -/
def archivePlace (home : Location) (target : Path) : Location :=
  (target.join "DB.zip").place home

theorem archivePlace_eq (home : Location) (target : Path) :
    archivePlace home target = target.place home ++ [("DB.zip" : Text)] :=
  Path.place_join (by decide)

theorem not_below_archivePlace {folder : Path} (hfolder : IsOwn target folder) :
    ¬ folder.place home <+: archivePlace home target := by
  obtain ⟨name, hname, rfl, hne, _⟩ := hfolder.exists_name
  exact fun hbelow => hne (eq_of_places_above hname (by decide) hbelow (List.prefix_refl _))

theorem archivePlace_of_ending {above : Location} {name : Text}
    (h : above ++ [name] = archivePlace home target) : ending name = "zip" := by
  rw [archivePlace_eq] at h
  obtain rfl := List.singleton_inj.mp (List.append_inj' h rfl).2
  decide

/-- No file is written in the place of the archive before the package is archived. -/
theorem keeps_build (made : Moment) {settings : Settings} (htarget : settings.target.WellFormed) :
    Keeps home (· = archivePlace home settings.target) (build made settings) := by
  have hoff (folder : Path) (hfolder : IsOwn settings.target folder) :
      ∀ l, l = archivePlace home settings.target → ¬ folder.place home <+: l := by
    rintro l rfl
    exact not_below_archivePlace hfolder
  have hpackage := hoff (settings.target.join "DB") (Or.inl rfl)
  have hspares : ∀ ext ∈ writtenExtensions,
      Spares (· = archivePlace home settings.target) ext := by
    intro ext hext above name hending hplace
    rw [archivePlace_of_ending hplace] at hending
    rw [← hending] at hext
    exact absurd hext (by decide)
  have hdata : ∀ l, IsData home (settings.target.join "DB") l →
      ¬ l = archivePlace home settings.target := by
    rintro l hl rfl
    rw [archivePlace_eq] at hl
    exact not_isData_of_ending (by decide) hl
  refine keeps_bind (keeps_prepare htarget hpackage (hoff _ (Or.inr rfl))) fun _ _ =>
    keeps_bind (keeps_fill (htarget.join _) hspares (fun k => hdata _ (isData_recordsPlace k))
      (fun k => hdata _ (isData_upgradePlace k)) settings) fun _ _ =>
      keeps_finish made settings htarget (fun l hl htools => ?_) fun l hl hnote => ?_
  · exact hpackage l hl ((List.prefix_append _ _).trans htools)
  · refine hpackage l hl ?_
    rw [hnote]
    exact List.prefix_append _ _

/-- A compilation that fails before the package is archived ends with that failure, and the place
that the path of the archive leads to, before or after, has the entry that it had before: none, or
the same file. The one exception is a new folder where nothing was, if the target is named by a way
through that place, which takes a step up. -/
theorem archive_of_failure {made : Moment} {settings : Settings}
    (htarget : settings.target.WellFormed) (hd : d.Sound)
    (hfail : build made settings d = (.error fault, d')) :
    run made settings d = (.error fault, d') ∧
      (∀ l, d.locate? (settings.target.join "DB.zip") = some l ∨
        d'.locate? (settings.target.join "DB.zip") = some l →
          l = archivePlace d.home settings.target) ∧
      (d'.entryAt? (archivePlace d.home settings.target) =
          d.entryAt? (archivePlace d.home settings.target) ∨
        ¬ settings.target.Descends ∧
          settings.target.OnWay d.home (archivePlace d.home settings.target) ∧
          d.entryAt? (archivePlace d.home settings.target) = none ∧
          d'.entryAt? (archivePlace d.home settings.target) = some .folder) := by
  have hrun := run_of_build hfail
  have hchanges := changes_run made htarget hd
  obtain ⟨hhome, _, hfiles⟩ := keeps_build made htarget d rfl hd
  rw [hrun] at hchanges
  rw [hfail] at hhome hfiles
  refine ⟨hrun, ?_, ?_⟩
  · rintro l (hl | hl)
    · exact locate?_eq_some hl
    · rw [locate?_eq_some hl, hhome]
      rfl
  have hfile := hfiles _ rfl
  have hentry := uncleared_of_changes (fun _ => not_below_archivePlace) rfl hchanges
  generalize hafter : d'.entryAt? (archivePlace d.home settings.target) = after at hentry ⊢
  cases hentry with
  | same => exact Or.inl rfl
  | folder hway hnone =>
    refine Or.inr ⟨fun hdown => ?_, hway, hnone, rfl⟩
    exact not_mayMake_archive hdown (Or.inl hway)
  | file _ =>
    -- a file that is there now was there before, with the same content
    rw [fileAt?_eq_some.mpr hafter] at hfile
    exact Or.inl (fileAt?_eq_some.mp hfile.symm).symm

/-- Besides what is astray, a function without a source file, and an archive of before. -/
def brokenEntries : List (Location × Entry) :=
  [(["source", "FUNCTION", "Q.XML"], .file (.text "<function name='Q'/>")),
   (["target", "DB.zip"], .file (.text "LAST"))]

def brokenDisk : Disk := brokenEntries.foldl (fun d e => d.put e.1 e.2) strayDisk

theorem sound_brokenDisk : brokenDisk.Sound := sound_foldl_put sound_strayDisk (by decide +kernel)

/-- The function is missing when the tables have been written already. -/
theorem archive_of_failure_brokenDisk :
    ∃ fault d', build ⟨2026, 1, 1, 4, 0, 0, 0⟩ equipped brokenDisk = (.error fault, d') ∧
      fault = .copyFailed (.ofText "target/DB_STAGING/FUNCTION/Q.SQL")
        (.ofText "target/DB/FUNCTION/Q.SQL") ∧
      run ⟨2026, 1, 1, 4, 0, 0, 0⟩ equipped brokenDisk = (.error fault, d') ∧
      d'.fileAt? ["target", "DB", "FUNCTION", "P.SQL"] = some (.text "CREATE FUNCTION P") ∧
      d'.entryAt? (archivePlace brokenDisk.home equipped.target) = some (.file (.text "LAST")) := by
  have hbuild : (build ⟨2026, 1, 1, 4, 0, 0, 0⟩ equipped brokenDisk).1 =
        .error (.copyFailed (.ofText "target/DB_STAGING/FUNCTION/Q.SQL")
          (.ofText "target/DB/FUNCTION/Q.SQL")) ∧
      (build ⟨2026, 1, 1, 4, 0, 0, 0⟩ equipped brokenDisk).2.fileAt?
        ["target", "DB", "FUNCTION", "P.SQL"] = some (.text "CREATE FUNCTION P") := by
    decide +kernel
  have hbefore : brokenDisk.entryAt? (archivePlace brokenDisk.home equipped.target) =
      some (.file (.text "LAST")) := by
    decide +kernel
  obtain ⟨d', hd'⟩ := exists_of_fst_eq hbuild.1
  obtain ⟨hrun, _, hentry⟩ := archive_of_failure target_equipped sound_brokenDisk hd'
  rw [hd'] at hbuild
  refine ⟨_, d', hd', rfl, hrun, hbuild.2, ?_⟩
  rcases hentry with hsame | ⟨_, _, hnone, _⟩
  · exact hsame.trans hbefore
  · rw [hbefore] at hnone
    cases hnone

/-- The target is named by a way through the place of its archive. -/
def roundabout : Settings := { detour with target := .ofText "target/DB.zip/.." }

/-- With nothing to compile, a folder is left where no archive was. -/
theorem archive_apart :
    ∃ fault d', build ⟨2026, 1, 1, 4, 0, 0, 0⟩ roundabout {} = (.error fault, d') ∧
      run ⟨2026, 1, 1, 4, 0, 0, 0⟩ roundabout {} = (.error fault, d') ∧
      archivePlace ({} : Disk).home roundabout.target = ["target", "DB.zip"] ∧
      ({} : Disk).entryAt? ["target", "DB.zip"] = none ∧
      d'.entryAt? ["target", "DB.zip"] = some .folder := by
  have hbuild : (build ⟨2026, 1, 1, 4, 0, 0, 0⟩ roundabout {}).1 =
        .error (.unreadable (.ofText "target/DB.zip/../DB_STAGING/TABLE/DB_OBJECTS.XML")) ∧
      (build ⟨2026, 1, 1, 4, 0, 0, 0⟩ roundabout {}).2.entryAt? ["target", "DB.zip"] =
        some .folder := by
    decide +kernel
  have hplace : archivePlace ({} : Disk).home roundabout.target = ["target", "DB.zip"] ∧
      ({} : Disk).entryAt? ["target", "DB.zip"] = none := by
    decide +kernel
  obtain ⟨d', hd'⟩ := exists_of_fst_eq hbuild.1
  rw [hd'] at hbuild
  exact ⟨_, d', hd', run_of_build hd', hplace.1, hplace.2, hbuild.2⟩

end Compile
end SchemaPackage
