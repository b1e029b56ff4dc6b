import SchemaPackage.Proofs.Disk.Folders
import SchemaPackage.Proofs.Package.Filling

/-!
An old package makes way for the new one. The folder of the package is removed before it is made
again, if its path leads there, and staging puts nothing into it. So nothing is left in the folders
that the package is filled into, by the time that this is done.
-/
namespace SchemaPackage

open Job Outcome Text

namespace Package

variable {home l : Location} {P : Location → Prop} {root source target folder : Path}
  {d d' : Disk} {name : Text}

/-- The steps from the folder of a package to the folders that it is made of. -/
def structureSteps : List Location :=
  packageFolders.map (fun f => [f]) ++ toolFolders.map fun f => [("TOOLS" : Text), f]

theorem isName_of_mem_structureFolders {f : Text} (h : f ∈ packageFolders ++ toolFolders) :
    IsName f := by
  have hall : ∀ f ∈ packageFolders ++ toolFolders, IsName f := by decide
  exact hall f h

theorem makesNone_makeStructure (hfolder : folder.Descends)
    (hP : ∀ steps ∈ structureSteps, ∀ l, P l → ¬ l <+: folder.place home ++ steps) :
    MakesNone home P (makeStructure folder) := by
  have htools : IsName "TOOLS" := by decide
  refine makesNone_bind (makesNone_forM fun f hf => ?_) fun _ =>
    makesNone_bind (makesNone_forM fun f hf => ?_) fun _ => makesNone_pure _
  · have hname : IsName f := isName_of_mem_structureFolders (List.mem_append_left _ hf)
    refine makesNone_makeFolder (hfolder.join hname) ?_
    rw [Path.place_join hname]
    exact hP _ (List.mem_append_left _ (List.mem_map_of_mem hf))
  · have hname : IsName f := isName_of_mem_structureFolders (List.mem_append_right _ hf)
    refine makesNone_makeFolder ((hfolder.join htools).join hname) ?_
    rw [Path.place_join hname, Path.place_join htools, List.append_assoc]
    exact hP _ (List.mem_append_right _ (List.mem_map_of_mem hf))

theorem makesNone_createStructure (hfolder : (root.join name).Descends)
    (hP : ∀ steps ∈ structureSteps, ∀ l, P l → ¬ l <+: (root.join name).place home ++ steps) :
    MakesNone home P (createStructure root name) := by
  have hmake := makesNone_makeStructure hfolder hP
  rw [createStructure_eq]
  refine makesNone_bind (makesNone_inspect _) fun there => ?_
  cases there with
  | false => exact hmake
  | true =>
    exact makesNone_bind (makesNone_advance _ (Disk.makesNone_removeFolder _)) fun _ => hmake

/-- If the path to a structure leads somewhere, only what it is made of is there afterwards. -/
theorem isFolderAt_of_createStructure (hfolder : (root.join name).Descends)
    (hP : ∀ steps ∈ structureSteps, ∀ l, P l →
      ¬ l <+: (root.join name).place d.home ++ steps)
    (hbelow : (root.join name).place d.home <+: l) (hl : P l)
    (hne : l ≠ (root.join name).place d.home) (hthere : d.isThere (root.join name) = true)
    {made : Path} (h : createStructure root name d = (.ok made, d')) : d'.isFolderAt l = false := by
  obtain ⟨hnothing, _⟩ | ⟨_, hremoved, hmake⟩ := createStructure_eq_ok h
  · rw [hthere] at hnothing
    cases hnothing
  have hkept := Disk.makesNone_removeFolder (P := P) (root.join name) d rfl
  obtain ⟨_, hfolders⟩ := (makesNone_makeStructure hfolder hP).of_eq_ok hkept.1 hmake
  rw [Bool.eq_false_iff]
  intro hnew
  obtain ⟨_, hcleared⟩ := Disk.isFolderAt_of_removeFolder _ d (hfolders l hl hnew)
  exact hne (hcleared hremoved hbelow)

theorem makesNone_copyRaw (htarget : target.Descends)
    (hP : ∀ f ∈ rawFolders, ∀ l, P l → ¬ l <+: target.place home ++ [f]) :
    MakesNone home P (copyRaw source target) := by
  refine makesNone_forM fun f hf => ?_
  have hname : IsName f := isName_of_mem_rawFolders hf
  refine makesNone_bind (makesNone_inspect _) fun there => ?_
  cases there with
  | false => exact makesNone_pure ()
  | true =>
    refine makesNone_bind (makesNone_makeFolder (htarget.join hname) ?_) fun _ =>
      makesNone_bind (makesNone_require _ _) fun names =>
        makesNone_forM fun name _ => makesNone_copy _ _
    rw [Path.place_join hname]
    exact hP f hf

end Package

namespace Compile

open Package

variable {home : Location} {db staging target : Path} {d d' : Disk}

theorem makesNone_stage {P : Location → Prop} {settings : Settings} (hstaging : staging.Descends)
    (hP : ∀ f ∈ rawFolders, ∀ l, P l → ¬ l <+: staging.place home ++ [f]) :
    MakesNone home P (stage settings staging) := by
  have hown : MakesNone home P (copyRaw settings.source staging) := makesNone_copyRaw hstaging hP
  unfold stage
  dsimp only
  split
  · exact makesNone_bind (makesNone_copyRaw hstaging hP) fun _ => hown
  · exact hown

/-- Places below one of the folders of a package. -/
def BelowFolder (home : Location) (db : Path) (folder : Text) (l : Location) : Prop :=
  ∃ rest, rest ≠ [] ∧ l = db.place home ++ [folder] ++ rest

theorem BelowFolder.place_prefix_self {folder : Text} {l : Location}
    (h : BelowFolder home db folder l) : db.place home <+: l := by
  obtain ⟨rest, _, rfl⟩ := h
  rw [List.append_assoc]
  exact List.prefix_append _ _

theorem BelowFolder.not_on_way {folder : Text} {l steps : Location}
    (h : BelowFolder home db folder l) (hfolder : folder ≠ "TOOLS")
    (hsteps : steps ∈ structureSteps) : ¬ l <+: db.place home ++ steps := by
  obtain ⟨rest, hrest, rfl⟩ := h
  rw [List.append_assoc, List.prefix_append_right_inj]
  intro hbelow
  rcases List.mem_append.mp hsteps with hsteps | hsteps
  · obtain ⟨f, _, rfl⟩ := List.mem_map.mp hsteps
    exact hrest (List.prefix_nil.mp (List.cons_prefix_cons.mp hbelow).2)
  · obtain ⟨f, _, rfl⟩ := List.mem_map.mp hsteps
    exact hfolder (List.cons_prefix_cons.mp hbelow).1

/-- The new package has nothing in a folder other than that of the tools, provided that the path to
it led to the old one, or nothing was there. -/
theorem entryAt?_of_createPackage {folder : Text} {l : Location} (htarget : target.WellFormed)
    (hdown : target.Descends) (hd : d.Sound) (hfolder : folder ≠ "TOOLS")
    (hbefore : d.isThere (target.join "DB") = true ∨
      d.below ((target.join "DB").place d.home ++ [folder]) = [])
    (h : createStructure target "DB" d = (.ok db, d'))
    (hl : BelowFolder d.home (target.join "DB") folder l) : d'.entryAt? l = none := by
  have hname : IsName "DB" := by decide
  have hsteps : ∀ steps ∈ structureSteps, ∀ l, BelowFolder d.home (target.join "DB") folder l →
      ¬ l <+: (target.join "DB").place d.home ++ steps := fun steps hsteps l hl =>
    hl.not_on_way hfolder hsteps
  obtain ⟨rfl, hhome, _, hfiles⟩ := fileAt?_of_createStructure htarget hd h
  rw [Disk.entryAt?_eq_none_iff, hfiles]
  rcases hbefore with hthere | hempty
  · refine ⟨isFolderAt_of_createStructure (hdown.join hname) hsteps hl.place_prefix_self hl ?_
      hthere h, if_pos ⟨hthere, hl.place_prefix_self⟩⟩
    rintro rfl
    have htable : [("TABLE" : Text)] ∈ structureSteps := by decide
    exact hl.not_on_way hfolder htable (List.prefix_append _ _)
  · obtain ⟨rest, hrest, rfl⟩ := hl
    have hnone := Disk.entryAt?_of_below_eq_nil hempty hrest
    obtain ⟨hfolder, hfile⟩ := Disk.entryAt?_eq_none_iff.mp hnone
    obtain ⟨_, hfolders⟩ := (makesNone_createStructure (hdown.join hname) hsteps).of_eq_ok rfl h
    constructor
    · rw [Bool.eq_false_iff]
      intro hnew
      rw [hfolders _ ⟨rest, hrest, rfl⟩ hnew] at hfolder
      cases hfolder
    · rw [hfile, ite_self]

/-- Staging puts nothing into the package. -/
theorem entryAt?_of_staging {settings : Settings} {l : Location} {u : Unit}
    (htarget : settings.target.WellFormed) (hdown : settings.target.Descends) (hd : d.Sound)
    (h : (do
      let staging ← createStructure settings.target "DB_STAGING"
      stage settings staging : Job Unit) d = (.ok u, d'))
    (hl : (settings.target.join "DB").place d.home <+: l) (hnone : d.entryAt? l = none) :
    d'.entryAt? l = none := by
  have hdescends : (settings.target.join "DB_STAGING").Descends := hdown.join isName_staging
  have hbeside {m : Location} (hm : (settings.target.join "DB").place d.home <+: m) :
      ¬ (settings.target.join "DB_STAGING").place d.home <+: m := fun hbelow =>
    absurd (eq_of_places_above isName_staging (by decide) hbelow hm) (by decide)
  have hway (steps : Location) : ∀ m, (settings.target.join "DB").place d.home <+: m →
      ¬ m <+: (settings.target.join "DB_STAGING").place d.home ++ steps := fun m hm hbelow =>
    hbeside (hm.trans hbelow) (List.prefix_append _ _)
  obtain ⟨staging, made, hcreate, hstage⟩ := bind_eq_ok_iff.mp h
  obtain ⟨rfl, hhome, hmade, hcreated⟩ := fileAt?_of_createStructure htarget hd hcreate
  obtain ⟨_, _, hfiles⟩ :=
    (keeps_stage (htarget.join _) fun _ => hbeside).of_eq_ok hhome hmade hstage
  obtain ⟨_, hcreates⟩ := (makesNone_createStructure hdescends fun steps _ => hway steps).of_eq_ok
    rfl hcreate
  obtain ⟨_, hstages⟩ := (makesNone_stage hdescends fun f _ => hway [f]).of_eq_ok hhome hstage
  obtain ⟨hfolder, hfile⟩ := Disk.entryAt?_eq_none_iff.mp hnone
  rw [Disk.entryAt?_eq_none_iff]
  constructor
  · rw [Bool.eq_false_iff]
    intro hnew
    rw [hcreates l hl (hstages l hl hnew)] at hfolder
    cases hfolder
  · rw [hfiles l hl, hcreated, hfile, ite_self]

/-- When the descriptions are staged, there is nothing in a folder of the package other than that of
the tools, provided that the target never goes up, and that the path to the package leads there, or
nothing is there. -/
theorem below_stagedDisk {made : Moment} {settings : Settings} {package : Path} {folder : Text}
    (htarget : settings.target.WellFormed) (hdown : settings.target.Descends) (hd : d.Sound)
    (hfolder : folder ≠ "TOOLS")
    (hbefore : d.isThere (settings.target.join "DB") = true ∨
      d.below ((settings.target.join "DB").place d.home ++ [folder]) = [])
    (h : run made settings d = (.ok package, d')) :
    (stagedDisk settings d).below ((settings.target.join "DB").place d.home ++ [folder]) = [] := by
  obtain ⟨db, d₁, hdb, hrest⟩ := bind_eq_ok_iff.mp h
  obtain ⟨rfl, hhome, hd₁, _⟩ := fileAt?_of_createStructure htarget hd hdb
  obtain ⟨staging, d₂, hstaging, hrest₂⟩ := bind_eq_ok_iff.mp hrest
  obtain ⟨rfl, _⟩ := fileAt?_of_createStructure htarget hd₁ hstaging
  obtain ⟨_, staged, hstage, _⟩ := bind_eq_ok_iff.mp hrest₂
  have hstaged : stagedDisk settings d = staged := by
    simp only [stagedDisk, bind_run, hdb, hstaging, hstage]
  rw [hstaged]
  refine Disk.below_eq_nil fun rest hrest => ?_
  have hl : BelowFolder d.home (settings.target.join "DB") folder
      ((settings.target.join "DB").place d.home ++ [folder] ++ rest) := ⟨rest, hrest, rfl⟩
  refine entryAt?_of_staging htarget hdown hd₁ (bind_eq_ok_iff.mpr ⟨_, d₂, hstaging, hstage⟩) ?_
    (entryAt?_of_createPackage htarget hdown hd hfolder hbefore hdb hl)
  rw [hhome]
  exact hl.place_prefix_self

end Compile
end SchemaPackage
