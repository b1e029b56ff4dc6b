import SchemaPackage.Proofs.Package.Sources

/-!
What a finished package holds. The files of a filled package come from the tables, from the program
units, from the dictionary and from what was there before, and for each place it can be told which
of these counts. What comes after the filling touches the tools, the note of the release and what
is next to the package, and no other file.
-/
namespace SchemaPackage

open Job Outcome Text

namespace Compile

open Package Disk

variable {home l : Location} {db staging target : Path} {d d' : Disk} {tables : List Table}
  {text folder file : Text}

theorem writes_cloneRecords {u : Unit} (hdb : db.WellFormed) (hhome : d.home = home)
    (h : cloneRecords db d = (.ok u, d')) : Writes (IsData home db) [] d d' := by
  refine forM_writes_nil (fun k _ u d d' hhome hcopy => ?_) hhome h
  refine (writes_copy? (wellFormed_dataFile hdb _) ?_ (change_eq_ok hcopy)).1
  rw [hhome]
  exact isData_upgradePlace k

/-- Places that hold records, or source files of program units. -/
def IsBrought (home : Location) (db staging : Path) (staged : Disk) (l : Location) : Prop :=
  IsData home db l ∨ IsSource home db staging staged l

/-- What a filled package holds. At a place that is not for records or source files, the last text
of a table is what counts. Without one the place is as it was when the descriptions were staged,
unless the control file of an upgrade belongs there. Source files of program units can be read. -/
structure Stocked (home : Location) (db staging : Path) (tables : List Table) (d d' : Disk) :
    Prop where
  folders : ∀ p, d'.locate? p = d.locate? p
  written : ∀ l, ¬ IsBrought home db staging d l → ∀ text,
    lastAt? l (tables.flatMap (tableFiles home db)) = some text → d'.fileAt? l = some (.text text)
  others : ∀ l, ¬ IsBrought home db staging d l →
    lastAt? l (tables.flatMap (tableFiles home db)) = none →
    (∀ k, l ≠ upgradeControlPlace home db k) → d'.fileAt? l = d.fileAt? l
  sources : ∀ kind base, HasSources d staging kind base → ∀ ext ∈ kind.extensions,
    ∃ c, d'.content? (sourceFile db kind base ext) = some c
  controls : ∀ t ∈ tables, ∃ control?, t.controlFile = .ok control?

theorem stocked_of_fill {settings : Settings} (hdb : db.WellFormed) (hd : d.Sound)
    (h : fill settings staging db d = (.ok (), d')) :
    ∃ tables, TablesIn d (staging.join "TABLE") settings.tracked tables ∧
      Stocked d.home db staging tables d d' := by
  obtain ⟨⟨e, ctx⟩, _, hregister, hrest₁⟩ := bind_eq_ok_iff.mp h
  obtain ⟨hsame, hctx, _, hregistered⟩ := registerAll_eq_ok .new hregister
  obtain rfl := hsame.symm
  obtain ⟨_, d₁, htables, hrest₂⟩ := bind_eq_ok_iff.mp hrest₁
  obtain ⟨_, _, _, _, hadds⟩ := generateTables_eq_ok hdb hctx htables
  obtain ⟨tables, hin, hcontrols, hwrites₁⟩ := writes_generateTables hdb hctx rfl htables
  obtain ⟨_, d₂, hunits, hrest₃⟩ := bind_eq_ok_iff.mp hrest₂
  obtain ⟨hwrites₂, hsources⟩ := generateUnits_brings hdb hd hadds hunits
  obtain ⟨_, d₃, hclone, hupgrades⟩ := bind_eq_ok_iff.mp hrest₃
  have hwrites₃ := writes_cloneRecords hdb (hwrites₂.home.trans hwrites₁.home) hclone
  choose t ht _ using fun k => hregistered k (Or.inl k.mem_all)
  obtain ⟨hkept, _⟩ := forM_writeUpgradeControl_eq_ok ht hupgrades
  have hfolders := isFolderAt_of_writeUpgradeControls ht hupgrades
  have hwrites : Writes (IsBrought d.home db staging d) (tables.flatMap (tableFiles d.home db))
      d d₃ := by
    have hrecords : ∀ l, IsRecords d.home db l → IsBrought d.home db staging d l := by
      rintro _ ⟨k, rfl⟩
      exact Or.inl (isData_recordsPlace k)
    have hfirst := hwrites₁.mono hrecords
    have hsecond := hwrites₂.mono fun l hl => hl.elim (hrecords l) Or.inr
    have hthird := hwrites₃.mono fun l hl => (Or.inl hl : IsBrought d.home db staging d l)
    have hall := (hfirst.trans hsecond).trans hthird
    rwa [List.append_nil, List.append_nil] at hall
  rw [hwrites.home] at hkept
  have hhome : d'.home = d₃.home := by
    have hkeeps : Keeps d₃.home (IsData d₃.home db)
        (Dictionary.all.forM (writeUpgradeControl e db)) :=
      keeps_writeUpgradeControls e hdb
    exact (hkeeps.of_eq_ok rfl (hwrites.sound hd) hupgrades).1
  have hstays (l : Location) (hl : d₃.fileAt? l ≠ none) : d'.fileAt? l = d₃.fileAt? l :=
    fileAt?_congr (hkept l (Or.inl fun hnone => hl (entryAt?_eq_none_iff.mp hnone).2))
  refine ⟨tables, hin, ?_, ?_, ?_, ?_, hcontrols⟩
  · intro p
    rw [locate?_congr hhome hfolders, hwrites.locate?_eq]
  · intro l hl text hlast
    have hfile := hwrites.others l hl
    rw [hlast] at hfile
    have hthere : d₃.fileAt? l ≠ none := by
      rw [hfile]
      exact Option.some_ne_none _
    rw [hstays l hthere, hfile]
    rfl
  · intro l hl hlast hother
    have hfile := hwrites.others l hl
    rw [hlast] at hfile
    rw [fileAt?_congr (hkept l (Or.inr hother)), hfile]
    rfl
  · intro kind base hhas ext hext
    obtain ⟨c, hc⟩ := hwrites₃.exists_content? (hsources kind base hhas ext hext)
    rw [content?_eq] at hc
    obtain ⟨l, hlocate, hfile⟩ := Option.bind_eq_some_iff.mp hc
    refine ⟨c, ?_⟩
    rw [content?_eq, locate?_congr hhome hfolders, hlocate, Option.bind_some, hstays, hfile]
    rw [hfile]
    exact Option.some_ne_none c

/-- A successful compilation has filled the package, and what it holds stays in it. -/
theorem Stocked.of_run {made : Moment} {settings : Settings} {package : Path}
    (htarget : settings.target.WellFormed) (hd : d.Sound)
    (h : run made settings d = (.ok package, d')) :
    ∃ tables,
      TablesIn (stagedDisk settings d) ((settings.target.join "DB_STAGING").join "TABLE")
        settings.tracked tables ∧
      Stocked d.home (settings.target.join "DB") (settings.target.join "DB_STAGING") tables
        (stagedDisk settings d) (filledDisk settings d) ∧
      ∀ l, IsLasting d.home settings.target l →
        d'.fileAt? l = (filledDisk settings d).fileAt? l := by
  obtain ⟨hhome, hstaged, hfill, hrest⟩ := run_eq_ok htarget hd h
  obtain ⟨tables, hin, hstocked⟩ := stocked_of_fill (htarget.join "DB") hstaged hfill
  obtain ⟨hhome', hd'⟩ := sound_of_fill (htarget.join "DB") hstaged hfill
  rw [hhome] at hstocked hhome'
  obtain ⟨_, _, hfiles⟩ := (keeps_completion made settings htarget).of_eq_ok hhome' hd' hrest
  exact ⟨tables, hin, hstocked, hfiles⟩

end Compile
end SchemaPackage
