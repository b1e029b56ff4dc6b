import SchemaPackage.Proofs.Package.Spare

/-!
Disks on which a target can be compiled for, whatever earlier compilations have left there. No
compilation makes a disk unready for the next one. Making a structure first clears the place of the
structure, so what is made there does not depend on what was there before.
-/
namespace SchemaPackage

open Job Outcome Text Disk

namespace Compile

open Package

variable {home l : Location} {target folder p : Path} {described : Table → Prop} {d d' : Disk}
  {name : Text} {c : Content} {P : Location → Prop}

/-- A tree on which the package and the staging folder are folders, if they are there at all, and
the archive is a file, if it is. -/
structure Ready (home : Location) (target : Path) (d : Disk) : Prop where
  home_eq : d.home = home
  sound : d.Sound
  rooted : d.Rooted
  start : d.isFolderAt (d.start target) = true
  own : ∀ folder, IsOwn target folder → d.fileAt? (folder.place home) = none
  archive : d.isFolderAt ((target.join "DB.zip").place home) = false
  closed : ∀ l ∈ d.closed, ¬ (target.join "DB_STAGING").place home <+: l

theorem not_place_join_above (hname : IsName name) (hl : l <+: target.place home) :
    ¬ (target.join name).place home <+: l := by
  intro h
  have hlength := (h.trans hl).length_le
  rw [Path.place_join hname, List.length_append, List.length_singleton] at hlength
  omega

theorem IsOwn.exists_name (hfolder : IsOwn target folder) :
    ∃ name, IsName name ∧ folder = target.join name ∧ name ≠ "DB.zip" ∧
      ending name ≠ "SQL" ∧ ending name ≠ "CTL" := by
  rcases hfolder with rfl | rfl
  · exact ⟨_, by decide, rfl, by decide, by decide, by decide⟩
  · exact ⟨_, isName_staging, rfl, by decide, by decide, by decide⟩

/-- Nothing is written in place of a folder of the compilation. -/
theorem IsOwn.not_mayWrite (hfolder : IsOwn target folder) :
    ¬ MayWrite home target described (folder.place home) c := by
  obtain ⟨name, hname, rfl, hne, hSQL, hCTL⟩ := hfolder.exists_name
  have hzip : IsName "DB.zip" := by decide
  have hplace : (target.join name).place home = target.place home ++ [name] :=
    Path.place_join hname
  rintro (⟨other, hother, rest, hrest, hbelow⟩ | harchive | ⟨t, text, _, hmem, _⟩)
  · obtain ⟨otherName, hotherName, rfl, _⟩ := hother.exists_name
    rw [hplace, Path.place_join hotherName, List.append_assoc] at hbelow
    have htail := List.append_cancel_left hbelow
    exact hrest (List.cons.inj htail).2.symm
  · rw [hplace, Path.place_join hzip] at harchive
    exact hne (List.singleton_inj.mp (List.append_cancel_left harchive))
  · obtain ⟨above, last, hlast, hending⟩ := exists_ending_of_mem_tableFiles hmem
    rw [hplace] at hlast
    obtain rfl := List.singleton_inj.mp (List.append_inj' hlast rfl).2
    exact hending.elim hSQL hCTL

theorem not_mayMake_archive (hdown : target.Descends) :
    ¬ MayMake home target ((target.join "DB.zip").place home) := by
  have hzip : IsName "DB.zip" := by decide
  rintro (hway | ⟨folder, hfolder, hbelow⟩)
  · exact not_place_join_above hzip (hdown.prefix_of_onWay hway) (List.prefix_refl _)
  · obtain ⟨name, hname, rfl, hne, _⟩ := hfolder.exists_name
    exact hne (eq_of_places_above hname hzip hbelow (List.prefix_refl _))

theorem start_above (hdown : target.Descends) (d : Disk) :
    d.start target <+: target.place d.home :=
  Path.prefix_walk hdown _

/-- One change leaves a disk ready. -/
theorem Ready.of_change (hdown : target.Descends) (hd : Ready home target d)
    (h : Change (scope home target described) d d') : Ready home target d' := by
  obtain ⟨hhome, hclosed⟩ := h.settings
  have hsound := h.sound hd.sound
  have hstart (d' : Disk) (hhome : d'.home = d.home) : d'.start target = d.start target := by
    rw [Disk.start, Disk.start, hhome]
  cases h with
  | @write p c _ hp hwrite =>
    obtain ⟨⟨q, name, _, rfl⟩, hmay⟩ := hp
    have hfolders := isFolderAt_of_write? hwrite
    refine ⟨hhome.trans hd.home_eq, hsound, hd.rooted.write? (Path.join_pieces_ne_nil q name) hwrite,
      ?_, fun folder hfolder => ?_, ?_, hclosed ▸ hd.closed⟩
    · rw [hstart _ hhome, hfolders, hd.start]
    · have hother : folder.place home ≠ (q.join name).place d.home := by
        intro heq
        rw [hd.home_eq] at heq
        rw [← heq] at hmay
        exact hfolder.not_mayWrite hmay
      rw [fileAt?_congr ((entryAt?_write? hwrite _).trans (if_neg hother)), hd.own folder hfolder]
    · rw [hfolders, hd.archive]
  | @make p hp =>
    obtain ⟨_, habsolute, hway⟩ := hp
    have hsame : d.start p = d.start target := by rw [Disk.start, habsolute, Disk.start]
    refine ⟨hhome.trans hd.home_eq, hsound, hd.rooted.makeFolders (hsame ▸ hd.start), ?_,
      fun folder hfolder => ?_, ?_, hclosed ▸ hd.closed⟩
    · rw [hstart _ hhome]
      exact isFolderAt_makeFolders p d hd.start
    · rcases entryAt?_makeFolders p d (folder.place home) with hsame | ⟨_, hmade, _⟩
      · rw [fileAt?_congr hsame, hd.own folder hfolder]
      · rw [fileAt?, hmade]
    · rcases entryAt?_makeFolders p d ((target.join "DB.zip").place home) with hsame | ⟨_, _, hon⟩
      · rw [isFolderAt, hsame]
        exact hd.archive
      · rw [hd.home_eq] at hon
        exact absurd (hway _ hon) (not_mayMake_archive hdown)
  | @clear p hp =>
    have hremoved (l : Location) := entryAt?_removeFolder p d l
    refine ⟨hhome.trans hd.home_eq, hsound, hd.rooted.removeFolder p, ?_,
      fun folder hfolder => ?_, ?_, hclosed ▸ hd.closed⟩
    · rw [hstart _ hhome]
      rcases hremoved (d.start target) with hsame | ⟨hbelow, _⟩
      · rw [isFolderAt, hsame]
        exact hd.start
      · obtain ⟨name, hname, rfl, _⟩ := IsOwn.exists_name hp
        exact absurd hbelow (not_place_join_above hname (start_above hdown d))
    · rcases hremoved (folder.place home) with hsame | ⟨_, hgone⟩
      · rw [fileAt?_congr hsame, hd.own folder hfolder]
      · rw [fileAt?, hgone]
    · rcases hremoved ((target.join "DB.zip").place home) with hsame | ⟨_, hgone⟩
      · rw [isFolderAt, hsame]
        exact hd.archive
      · rw [isFolderAt, hgone]
        rfl

theorem Ready.of_changes (hdown : target.Descends) (hd : Ready home target d)
    (h : Changes (scope home target described) d d') : Ready home target d' :=
  h.induction (fun _ _ hchange hd => hd.of_change hdown hchange) hd

/-- Compiling leaves a disk ready to be compiled on again. -/
theorem Ready.run {made : Moment} {settings : Settings} (htarget : settings.target.WellFormed)
    (hdown : settings.target.Descends) (hd : Ready home settings.target d) :
    Ready home settings.target (run made settings d).2 := by
  have hchanges := changes_run made htarget hd.sound
  rw [hd.home_eq] at hchanges
  exact hd.of_changes hdown hchanges

/-- Folders that have been made are found, and none that was there is gone. -/
theorem forM_makeFolder_eq_ok {α : Type} {items : List α} {path : α → Path} {u : Unit}
    (hd : d.Rooted) (hstart : ∀ a ∈ items, d.isFolderAt (d.start (path a)) = true)
    (h : (items.forM fun a => makeFolder (path a)) d = (.ok u, d')) :
    d'.Rooted ∧ d'.home = d.home ∧ (∀ l, d.isFolderAt l = true → d'.isFolderAt l = true) ∧
      ∀ a ∈ items, d'.isFolder (path a) = true := by
  induction items generalizing d with
  | nil =>
    cases h
    exact ⟨hd, rfl, fun _ => id, fun a ha => absurd ha List.not_mem_nil⟩
  | cons a rest ih =>
    obtain ⟨_, d₁, hfirst, hrest⟩ := bind_eq_ok_iff.mp h
    have hmade := advance_eq_ok hfirst
    have hthere := hstart a List.mem_cons_self
    have hfound := hd.isFolder_makeFolders hthere (by rw [hmade])
    have hd₁ := hd.makeFolders hthere
    have hhome := (settings_makeFolders (path a) d).1
    have hfolders (l : Location) (hl : d.isFolderAt l = true) := isFolderAt_makeFolders (path a) d hl
    rw [hmade] at hfound hd₁ hhome hfolders
    obtain ⟨hd', hhome', hlater, hall⟩ := ih hd₁ (fun b hb => by
      rw [Disk.start, hhome]
      exact hfolders _ (hstart b (List.mem_cons_of_mem a hb))) hrest
    refine ⟨hd', hhome'.trans hhome, fun l hl => hlater l (hfolders l hl), fun b hb => ?_⟩
    rcases List.mem_cons.mp hb with rfl | hb
    · exact isFolder_mono hhome' hlater hfound
    · exact hall b hb

/-- A structure that has been made has its folders, and its paths can be used. -/
theorem makeStructure_eq_ok {made : Path} (hd : d.Rooted)
    (hstart : d.isFolderAt (d.start folder) = true)
    (h : makeStructure folder d = (.ok made, d')) :
    (∀ f ∈ packageFolders, d'.isFolder (folder.join f) = true) ∧
      ((folder.join "TOOLS").join "SCHEMA_CREATION").isUsable = true := by
  have htools : IsName "TOOLS" := by decide
  have hsame {p : Path} (d : Disk) (hp : p.isAbsolute = folder.isAbsolute) :
      d.start p = d.start folder := by
    rw [Disk.start, hp, Disk.start]
  obtain ⟨_, d₁, hfolders, hrest⟩ := bind_eq_ok_iff.mp h
  obtain ⟨_, d₂, hmore, hpure⟩ := bind_eq_ok_iff.mp hrest
  obtain ⟨_, rfl⟩ := pure_eq_ok_iff.mp hpure
  obtain ⟨hd₁, hhome, hkept, hall⟩ := forM_makeFolder_eq_ok hd (fun f hf => by
    have hf : IsName f := isName_of_mem_structureFolders (List.mem_append_left _ hf)
    rwa [hsame d (Path.isAbsolute_join _ hf)]) hfolders
  obtain ⟨_, hhome', hlater, htooled⟩ := forM_makeFolder_eq_ok hd₁ (fun f hf => by
    have hf : IsName f := isName_of_mem_structureFolders (List.mem_append_right _ hf)
    rw [hsame d₁ ((Path.isAbsolute_join _ hf).trans (Path.isAbsolute_join _ htools)), Disk.start,
      hhome]
    exact hkept _ hstart) hmore
  have hcreation : ("SCHEMA_CREATION" : Text) ∈ toolFolders := by decide
  exact ⟨fun f hf => isFolder_mono hhome' hlater (hall f hf),
    isUsable_of_locate? (isFolder_iff_locate?.mp (htooled _ hcreation)).1⟩

/-- The folder that a structure is made in takes new entries. -/
theorem takesNew_of_makeStructure {made : Path} (hname : IsName name)
    (hd : Ready home target d) (hnone : d.entryAt? ((target.join name).place home) = none)
    (h : makeStructure (target.join name) d = (.ok made, d')) :
    d.takesNew (target.place home) name = true := by
  have htools : IsName "TOOLS" := by decide
  obtain ⟨_, d₁, hfolders, _⟩ := bind_eq_ok_iff.mp h
  obtain ⟨_, d₂, hfirst, _⟩ := bind_eq_ok_iff.mp hfolders
  have hmade := advance_eq_ok hfirst
  have hstart : d.start ((target.join name).join "TOOLS") = d.start target := by
    rw [Disk.start, Path.isAbsolute_join _ htools, Path.isAbsolute_join _ hname, Disk.start]
  have hmade' := hd.rooted.isFolder_makeFolders (hstart ▸ hd.start) (by rw [hmade])
  have hfound := (isFolder_iff_locate?.mp hmade').2
  rw [(settings_makeFolders _ _).1, hd.home_eq, Path.place_join htools] at hfound
  have habove := (hd.rooted.makeFolders (hstart ▸ hd.start)).isFolderAt_above hfound
    (List.prefix_append _ _)
  rw [Path.place_join hname] at hnone habove
  have hsome : (d.makeFolders ((target.join name).join "TOOLS")).1.entryAt?
      (target.place home ++ [name]) ≠ none := by
    rw [beq_iff_eq.mp habove]
    exact Option.some_ne_none _
  exact takesNew_of_makeFolders hnone hsome

/-- Making a structure depends only on what is on the way to it and at its place. -/
theorem agrees_makeStructure (hname : IsName name) (hway : ∀ l, target.OnWay home l → P l)
    (hbelow : ∀ l, (target.join name).place home <+: l → P l) :
    Agrees (fun d d' => d.home = home ∧ AgreeOn P d d') (makeStructure (target.join name)) := by
  have hfolder : ∀ l, OnStructureWay home (target.join name) l → P l := by
    rintro l (hl | ⟨steps, _, rfl⟩)
    · rcases Path.onWay_join hname hl with hl | rfl
      · exact hway l hl
      · exact hbelow _ (List.prefix_refl _)
    · exact hbelow _ (List.prefix_append _ _)
  have hmake {p : Path} (hp : ∀ l, p.OnWay home l → P l) :
      Agrees (fun d d' => d.home = home ∧ AgreeOn P d d') (makeFolder p) := by
    refine agrees_advance _ fun d d' hd => ?_
    obtain ⟨hhome, hagree⟩ := hd
    obtain ⟨hflag, hafter⟩ := agreeOn_makeFolders hagree (by rwa [hhome])
    exact ⟨hflag, (settings_makeFolders p d).1.trans hhome, hafter⟩
  refine agrees_bind (agrees_forM fun f hf => hmake ?_) fun _ _ =>
    agrees_bind (agrees_forM fun f hf => hmake ?_) fun _ _ => agrees_pure _
  · exact fun l hl => hfolder l (onStructureWay_of_packageFolder hf hl)
  · exact fun l hl => hfolder l (onStructureWay_of_toolFolder hf hl)

theorem createStructure_run (root : Path) (name : Text) (d : Disk) :
    createStructure root name d =
      if d.isThere (root.join name) then (do
        advance (.unwritable (root.join name)) (Disk.removeFolder (root.join name))
        makeStructure (root.join name) : Job Path) d
      else makeStructure (root.join name) d := by
  rw [createStructure_eq, bind_run]
  unfold inspect
  dsimp only
  split <;> rfl

/-- The disk that a structure is made on, with nothing left in the place of the structure. -/
structure Cleared (home : Location) (target : Path) (name : Text) (d e : Disk) : Prop where
  run : createStructure target name d = makeStructure (target.join name) e
  ready : Ready home target e
  kept : AgreeOn (fun l => ¬ (target.join name).place home <+: l) d e
  none : ∀ l, (target.join name).place home <+: l → e.entryAt? l = none

/-- Whatever is in the place of a structure is cleared before it is made. -/
theorem Ready.exists_cleared (hd : Ready home target d) (hdown : target.Descends)
    (hname : IsName name) (hown : IsOwn target (target.join name))
    (husable : (target.join name).isUsable = true) : ∃ e, Cleared home target name d e := by
  have hfound := hd.rooted.entry?_join hdown hname husable
  have hlook := createStructure_run target name d
  rw [isThere, hfound, hd.home_eq] at hlook
  cases hentry : d.entryAt? ((target.join name).place home) with
  | none =>
    rw [hentry] at hlook
    exact ⟨d, hlook, hd, AgreeOn.refl _ d, fun l => hd.rooted.entryAt?_eq_none hentry⟩
  | some entry =>
    rw [hentry] at hlook
    cases entry with
    | file c =>
      have hnone := hd.own _ hown
      rw [fileAt?_eq_some.mpr hentry] at hnone
      cases hnone
    | folder =>
      have hfolder : d.isFolder (target.join name) = true := by
        rw [isFolder, hfound, hd.home_eq, hentry]
        rfl
      obtain ⟨hflag, hentries⟩ := hd.rooted.removeFolder_join hdown hname hfolder
      rw [hd.home_eq] at hentries
      have hchange : Change (scope home target fun _ => False) d
          (d.removeFolder (target.join name)).1 :=
        .clear hown
      refine ⟨(d.removeFolder (target.join name)).1, ?_, hd.of_change hdown hchange,
        ⟨hchange.settings.1, hchange.settings.2, fun l hl => ?_⟩, fun l hl => ?_⟩
      · rw [hlook, Option.isSome_some, if_pos rfl, bind_run]
        unfold advance
        rcases hremoved : d.removeFolder (target.join name) with ⟨removed, flag⟩
        rw [hremoved] at hflag
        obtain rfl : flag = true := hflag
        rfl
      · rw [hentries, if_neg hl]
      · rw [hentries, if_pos hl]

/-- A structure is made alike on disks that are the same but for what is cleared. -/
theorem agreeOn_createStructure {Q : Location → Prop} (hdown : target.Descends)
    (hname : IsName name) (hown : IsOwn target (target.join name))
    (husable : (target.join name).isUsable = true) (hd : Ready home target d)
    (hd' : Ready home target d') (h : AgreeOn P d d')
    (hP : ∀ l, Q l → ¬ (target.join name).place home <+: l → P l)
    (hway : ∀ l, l <+: target.place home → Q l)
    (hbelow : ∀ l, (target.join name).place home <+: l → Q l) :
    ∃ e e', Cleared home target name d e ∧ Cleared home target name d' e' ∧
      (makeStructure (target.join name) e').1 = (makeStructure (target.join name) e).1 ∧
      AgreeOn Q (makeStructure (target.join name) e).2 (makeStructure (target.join name) e').2 := by
  obtain ⟨e, he⟩ := hd.exists_cleared hdown hname hown husable
  obtain ⟨e', he'⟩ := hd'.exists_cleared hdown hname hown husable
  have hcleared : AgreeOn Q e e' := by
    refine ⟨?_, ?_, fun l hl => ?_⟩
    · rw [he.kept.home, he'.kept.home, h.home]
    · rw [he.kept.closed, he'.kept.closed, h.closed]
    · by_cases hcase : (target.join name).place home <+: l
      · rw [he.none l hcase, he'.none l hcase]
      · rw [he.kept.same l hcase, he'.kept.same l hcase, h.same l (hP l hl hcase)]
  obtain ⟨hsame, _, hagree⟩ := agrees_makeStructure hname
    (fun l hl => hway l (hdown.prefix_of_onWay hl)) hbelow e e' ⟨he.ready.home_eq, hcleared⟩
  exact ⟨e, e', he, he', hsame, hagree⟩

end Compile
end SchemaPackage
