import SchemaPackage.Compile
import SchemaPackage.Proofs.Disk.Work

/-!
What the steps of a compilation leave alone. Folders are filled with files right below them, and
whatever a compilation writes beside its data files has another place or another extension.
-/
namespace SchemaPackage.Package

open Job Outcome Text

variable {home : Location} {P : Location → Prop} {root source target folder db p : Path}
  {name : Text}

/-- Makes the folders of a structure, once nothing is in the way. -/
def makeStructure (folder : Path) : Job Path := do
  packageFolders.forM fun f => makeFolder (folder.join f)
  toolFolders.forM fun f => makeFolder ((folder.join "TOOLS").join f)
  return folder

theorem createStructure_eq (root : Path) (name : Text) : createStructure root name = (do
    if ← inspect (·.isThere (root.join name)) then
      advance (.unwritable (root.join name)) (Disk.removeFolder (root.join name))
      makeStructure (root.join name)
    else
      makeStructure (root.join name)) := rfl

/-- A structure is made where nothing is found, or in place of what has been removed. -/
theorem createStructure_eq_ok {d d' : Disk} {made : Path}
    (h : createStructure root name d = (.ok made, d')) :
    d.isThere (root.join name) = false ∧ makeStructure (root.join name) d = (.ok made, d') ∨
      d.isThere (root.join name) = true ∧ (d.removeFolder (root.join name)).2 = true ∧
        makeStructure (root.join name) (d.removeFolder (root.join name)).1 = (.ok made, d') := by
  rw [createStructure_eq] at h
  obtain ⟨there, _, hinspect, h⟩ := bind_eq_ok_iff.mp h
  obtain ⟨hthere, rfl⟩ := inspect_eq_ok hinspect
  cases there with
  | false => exact Or.inl ⟨hthere.symm, h⟩
  | true =>
    obtain ⟨_, emptied, hremove, hmake⟩ := bind_eq_ok_iff.mp h
    rw [advance_eq_ok hremove]
    exact Or.inr ⟨hthere.symm, rfl, hmake⟩

theorem keeps_makeStructure (hfolder : folder.WellFormed) :
    Keeps home P (makeStructure folder) :=
  keeps_bind (keeps_forM fun f _ => keeps_makeFolder (hfolder.join f)) fun _ _ =>
    keeps_bind (keeps_forM fun f _ => keeps_makeFolder ((hfolder.join "TOOLS").join f)) fun _ _ =>
      keeps_pure _

theorem fileAt?_of_makeStructure {d d' : Disk} {made : Path} (hfolder : folder.WellFormed)
    (hd : d.Sound) (h : makeStructure folder d = (.ok made, d')) :
    made = folder ∧ d'.home = d.home ∧ d'.Sound ∧ ∀ l, d'.fileAt? l = d.fileAt? l := by
  have hkeeps := keeps_makeStructure (P := fun _ => True) hfolder d rfl hd
  rw [h] at hkeeps
  obtain ⟨_, _, _, h⟩ := bind_eq_ok_iff.mp h
  obtain ⟨_, _, _, h⟩ := bind_eq_ok_iff.mp h
  obtain ⟨rfl, _⟩ := pure_eq_ok_iff.mp h
  exact ⟨rfl, hkeeps.1, hkeeps.2.1, fun l => hkeeps.2.2 l trivial⟩

/-- Making a structure touches no file outside of it. -/
theorem keeps_createStructure (hroot : root.WellFormed)
    (hP : ∀ l, P l → ¬ (root.join name).place home <+: l) :
    Keeps home P (createStructure root name) := by
  have hmake : Keeps home P (makeStructure (root.join name)) :=
    keeps_makeStructure (hroot.join name)
  rw [createStructure_eq]
  refine keeps_bind (keeps_inspect _) fun there _ => ?_
  cases there with
  | false => exact hmake
  | true =>
    exact keeps_bind (keeps_advance _ fun d => Disk.keeps_removeFolder hP d) fun _ _ => hmake

/-- Of the files that were there before, those in the place of the structure are gone, provided
that the path to it led there. -/
theorem fileAt?_of_createStructure {d d' : Disk} (hroot : root.WellFormed) (hd : d.Sound)
    (h : createStructure root name d = (.ok folder, d')) :
    folder = root.join name ∧ d'.home = d.home ∧ d'.Sound ∧ ∀ l, d'.fileAt? l =
      if d.isThere folder ∧ folder.place d.home <+: l then none else d.fileAt? l := by
  have hfolder : (root.join name).WellFormed := hroot.join name
  obtain ⟨hthere, hmake⟩ | ⟨hthere, hremoved, hmake⟩ := createStructure_eq_ok h
  · obtain ⟨rfl, hhome, hd', hfiles⟩ := fileAt?_of_makeStructure hfolder hd hmake
    refine ⟨rfl, hhome, hd', fun l => ?_⟩
    rw [hfiles, hthere, if_neg fun h => Bool.false_ne_true h.1]
  · obtain ⟨_, hfalse⟩ | ⟨hhome₁, hd₁, hfiles₁⟩ := Disk.fileAt?_removeFolder (root.join name) d
    · rw [hremoved] at hfalse
      cases hfalse
    obtain ⟨rfl, hhome, hd', hfiles⟩ := fileAt?_of_makeStructure hfolder (hd₁ hd) hmake
    refine ⟨rfl, hhome.trans hhome₁, hd', fun l => ?_⟩
    rw [hfiles, hfiles₁, hthere]
    simp only [true_and]

theorem keeps_copyRawFolder (htarget : target.WellFormed)
    (hP : ∀ name, IsName name → ¬ P (target.place home ++ [name])) :
    Keeps home P (copyRawFolder source target) := by
  refine keeps_bind (keeps_inspect _) fun there _ => ?_
  cases there with
  | false => exact keeps_pure ()
  | true =>
    refine keeps_bind (keeps_makeFolder htarget) fun _ _ =>
      keeps_bind (keeps_require _ _) fun names hnames => keeps_forM fun name hname => ?_
    obtain ⟨d, hd, hfound⟩ := hnames
    obtain ⟨hlisted, _⟩ := require_eq_ok (Prod.ext hfound rfl)
    have hname : IsName name := hd.isName_of_mem_fileNames? hlisted hname
    refine keeps_copy _ (htarget.join name) ?_
    rw [Path.place_join hname]
    exact hP name hname

theorem isName_of_mem_rawFolders {f : Text} (hf : f ∈ rawFolders) : IsName f := by
  have hlengths : ∀ f ∈ rawFolders, 2 < f.length ∧ '/' ∉ f := by decide
  exact isName_of_length (hlengths f hf).1 (hlengths f hf).2

theorem mem_packageFolders_of_mem_rawFolders : ∀ f ∈ rawFolders, f ∈ packageFolders := by decide

/-- Copied descriptions go below the target. -/
theorem keeps_copyRaw (htarget : target.WellFormed)
    (hP : ∀ l, P l → ¬ target.place home <+: l) : Keeps home P (copyRaw source target) := by
  refine keeps_forM fun f hf => keeps_copyRawFolder (htarget.join f) fun name _ h => hP _ h ?_
  rw [Path.place_join (isName_of_mem_rawFolders hf), List.append_assoc]
  exact List.prefix_append _ _

theorem keeps_stage {settings : Settings} {staging : Path} (hstaging : staging.WellFormed)
    (hP : ∀ l, P l → ¬ staging.place home <+: l) :
    Keeps home P (Compile.stage settings staging) := by
  have hown : Keeps home P (copyRaw settings.source staging) := keeps_copyRaw hstaging hP
  unfold Compile.stage
  dsimp only
  split
  · exact keeps_bind (keeps_copyRaw hstaging hP) fun _ _ => hown
  · exact hown

/-- The tools that are found in a folder, with all that is below them. -/
def templates (source : Path) (d : Disk) : List (Location × Entry) :=
  if d.isFolder (source.join "TOOLS") then
    ((d.locate? (source.join "TOOLS")).map d.below).getD []
  else []

theorem copyTemplates_eq (source target : Path) : copyTemplates source target = (do
    (← inspect (templates source)).forM (copyTemplate source target)) := rfl

theorem mem_templates_iff {d : Disk} {entry : Location × Entry} :
    entry ∈ templates source d ↔ d.isFolder (source.join "TOOLS") = true ∧
      entry ∈ d.below ((source.join "TOOLS").place d.home) := by
  unfold templates
  split
  · rename_i hfolder
    cases hlocate : d.locate? (source.join "TOOLS") with
    | none =>
      rw [Disk.isFolder, Disk.entry?, hlocate] at hfolder
      cases hfolder
    | some l =>
      rw [← Disk.locate?_eq_some hlocate]
      exact (and_iff_right hfolder).symm
  · rename_i hfolder
    exact ⟨fun hentry => absurd hentry List.not_mem_nil, fun h => absurd h.1 hfolder⟩

theorem isName_of_mem_templates {d : Disk} {entry : Location × Entry} (hd : d.Sound)
    (hentry : entry ∈ templates source d) :
    ∀ name ∈ ("TOOLS" : Text) :: entry.1, IsName name := by
  intro name hname
  rcases List.mem_cons.mp hname with rfl | hname
  · exact isName_of_length (by decide) (by decide)
  · exact hd.isName_of_mem_below (mem_templates_iff.mp hentry).2 hname

/-- Templates go below the tools of the target. -/
theorem keeps_copyTemplates (htarget : target.WellFormed)
    (hP : ∀ l, P l → ¬ target.place home ++ [("TOOLS" : Text)] <+: l) :
    Keeps home P (copyTemplates source target) := by
  rw [copyTemplates_eq]
  refine keeps_bind (keeps_inspect _) fun tools htools => keeps_forM fun entry hentry => ?_
  obtain ⟨d, hd, hfound⟩ := htools
  obtain ⟨rfl, _⟩ := inspect_eq_ok (Prod.ext hfound rfl)
  have hnames := isName_of_mem_templates hd hentry
  have hplace : ¬ P ((target.join (Text.joined "/" (("TOOLS" : Text) :: entry.1))).place home) := by
    intro h
    refine hP _ h ?_
    rw [Path.place_join_joined (List.cons_ne_nil _ _) hnames, List.prefix_append_right_inj]
    exact List.prefix_append [("TOOLS" : Text)] entry.1
  unfold copyTemplate
  dsimp only
  split
  · refine keeps_bind (keeps_makeFolder (htarget.join _)) fun _ _ => ?_
    split
    · exact keeps_throw _
    · exact keeps_pure ()
  · exact keeps_copy _ (htarget.join _) hplace

theorem wellFormed_of_parent? {q : Path} (hp : p.WellFormed) (h : p.parent? = some q) :
    q.WellFormed := by
  unfold Path.parent? at h
  split at h
  · cases h
  · rw [← Option.some.inj h]
    intro piece hpiece
    rcases List.mem_append.mp hpiece with hpiece | hpiece
    · split at hpiece
      · simp only [List.mem_cons, List.not_mem_nil, or_false, or_self] at hpiece
        rw [hpiece]
        exact List.not_mem_nil
      · cases hpiece
    · exact hp piece (List.mem_filter.mp ((List.dropLast_sublist _).subset hpiece)).1

/-- The archive itself is the only file that archiving changes. -/
theorem keeps_createArchive {output : Path} (houtput : output.WellFormed)
    (hP : ¬ P (output.place home)) : Keeps home P (createArchive folder output) := by
  have hwrite (content : Content) :
      Keeps home P (change (.unwritable output) (Disk.write? output content)) :=
    keeps_change _ fun _ _ h => Disk.keeps_write? houtput hP h
  unfold createArchive
  dsimp only
  split
  case' h_1 => refine keeps_bind (keeps_advance _ fun d =>
    Disk.keeps_makeFolders (wellFormed_of_parent? houtput ‹_›) d) fun _ _ => ?_
  -- With or without a folder to make, the archive is written twice and nothing else is.
  all_goals
    refine keeps_bind (hwrite _) fun _ _ => keeps_bind (keeps_require _ _) fun location _ =>
      keeps_bind (keeps_inspect _) fun found _ => keeps_bind (keeps_inspect _) fun self _ =>
        keeps_bind (hwrite _) fun _ _ => ?_
    split
    · exact keeps_throw _
    · exact keeps_pure ()

theorem exists_place_controlFile (home : Location) (db : Path) (table : Text) :
    ∃ above name, (controlFile db table).place home = above ++ [name] ∧ ending name = "CTL" :=
  Path.exists_place_join_ending home (recordsFolder db)
    (List.append_assoc table "." "CTL").symm (by decide)

theorem keeps_writeUpgradeControl (e : Encoder) (hdb : db.WellFormed) (d : Dictionary)
    (hP : ∀ above name, ending name = "CTL" → ¬ P (above ++ [name])) :
    Keeps home P (Compile.writeUpgradeControl e db d) := by
  have hcontrol : (controlFile db (upgradeName d)).WellFormed := (hdb.join _).join _
  have hplace : ¬ P ((controlFile db (upgradeName d)).place home) := by
    obtain ⟨above, name, hjoin, hending⟩ := exists_place_controlFile home db (upgradeName d)
    rw [hjoin]
    exact hP above name hending
  unfold Compile.writeUpgradeControl
  refine keeps_bind (keeps_inspect _) fun there _ => ?_
  split
  · split
    · exact keeps_bind (keeps_lift _) fun text _ =>
        keeps_change _ fun _ _ h => Disk.keeps_write? hcontrol hplace h
    · exact keeps_pure ()
  · exact keeps_pure ()

theorem keeps_writeScript {made : Moment} {release : Text} (hdb : db.WellFormed)
    (hP : ¬ P ((Compile.scriptFile db).place home)) :
    Keeps home P (Compile.writeScript made release db) := by
  have hscript : (Compile.scriptFile db).WellFormed := ((hdb.join _).join _).join _
  exact keeps_bind (keeps_inspect _) fun text _ =>
    keeps_change _ fun _ _ h => Disk.keeps_write? hscript hP h

end SchemaPackage.Package
