import SchemaPackage.Proofs.Disk.Overlays
import SchemaPackage.Proofs.Package.Clearing
import SchemaPackage.Proofs.Package.Readiness

/-!
Staging. The descriptions that are shared and those of the source are copied, one tree after the
other, into a structure that has just been made. Each raw folder then holds the files that are
directly in that folder of either tree, those of the source where both have one of the same name,
and nothing else has been touched.
-/
namespace SchemaPackage.Package

open Job Outcome Text Disk Compile

variable {d d' : Disk} {root common source target folder staging made : Path} {name : Text}
  {l : Location} {cover : Location → Option Content}

/-- A structure can be made afresh under a path: the way there starts outside of it and does not
lead through it, and the path finds what is in its place. -/
structure CanRemake (d : Disk) (p : Path) : Prop where
  start : d.isFolderAt (d.start p) = true
  outside : ¬ p.place d.home <+: d.start p
  way : ∀ l, p.OnWay d.home l → p.place d.home <+: l → l = p.place d.home
  found : d.isThere p = true ∨ d.entryAt? (p.place d.home) = none

/-- On a tree, a path that never goes up is such a path. -/
theorem canRemake_join (hd : d.Rooted) (hroot : root.Descends) (hname : IsName name)
    (husable : (root.join name).isUsable = true) (hstart : d.isFolderAt (d.start root) = true) :
    CanRemake d (root.join name) := by
  have hsame : d.start (root.join name) = d.start root := by
    rw [Disk.start, Path.isAbsolute_join root hname, Disk.start]
  refine ⟨hsame ▸ hstart, ?_, fun l hway hbelow => ?_, ?_⟩
  · rw [hsame]
    exact not_place_join_above hname (start_above hroot d)
  · exact ((hroot.join hname).prefix_of_onWay hway).eq_of_length_le hbelow.length_le
  · rw [isThere, hd.entry?_join hroot hname husable]
    cases d.entryAt? ((root.join name).place d.home) with
    | none => exact Or.inr rfl
    | some entry => exact Or.inl rfl

/-- A structure as it is made: its folders are found, and the raw ones are empty. -/
structure IsFresh (d : Disk) (folder : Path) : Prop where
  folders : ∀ f ∈ packageFolders, d.isFolder (folder.join f) = true
  empty : ∀ f ∈ rawFolders, ∀ l, BelowFolder d.home folder f l → d.entryAt? l = none

/-- Before a structure is made, nothing is left below its place. -/
theorem exists_emptied (hd : d.Sound) (hrooted : d.Rooted) (hclear : CanRemake d (root.join name))
    (h : createStructure root name d = (.ok made, d')) :
    ∃ e, makeStructure (root.join name) e = (.ok made, d') ∧ e.home = d.home ∧ e.Sound ∧
      e.Rooted ∧ e.isFolderAt (e.start (root.join name)) = true ∧
      ∀ l, (root.join name).place d.home <+: l → l ≠ (root.join name).place d.home →
        e.entryAt? l = none := by
  obtain ⟨hthere, hmake⟩ | ⟨_, hremoved, hmake⟩ := createStructure_eq_ok h
  · have hnone := hclear.found.resolve_left (by rw [hthere]; exact Bool.false_ne_true)
    exact ⟨d, hmake, rfl, hd, hrooted, hclear.start, fun l hl _ => hrooted.entryAt?_eq_none hnone hl⟩
  · have hhome := (settings_removeFolder (root.join name) d).1
    refine ⟨_, hmake, hhome, hd.removeFolder _, hrooted.removeFolder _, ?_, fun l =>
      entryAt?_of_removeFolder hremoved⟩
    rw [Disk.start, hhome, ← Disk.start]
    rcases entryAt?_removeFolder (root.join name) d (d.start (root.join name)) with
      hsame | ⟨hbelow, _⟩
    · rw [isFolderAt, hsame]
      exact hclear.start
    · exact absurd hbelow hclear.outside

/-- Making folders changes nothing off the ways to them. -/
theorem forM_makeFolder_off {α : Type} {items : List α} {path : α → Path} {P : Location → Prop}
    {u : Unit} (hP : ∀ a ∈ items, ∀ l, P l → ¬ (path a).OnWay d.home l)
    (h : (items.forM fun a => makeFolder (path a)) d = (.ok u, d')) : AgreeOn P d d' := by
  induction items generalizing d with
  | nil =>
    cases h
    exact AgreeOn.refl P _
  | cons a rest ih =>
    obtain ⟨_, d₁, hfirst, hrest⟩ := bind_eq_ok_iff.mp h
    have hmade := advance_eq_ok hfirst
    have hsettings := settings_makeFolders (path a) d
    have hentries (l : Location) := entryAt?_makeFolders (path a) d l
    rw [hmade] at hsettings hentries
    have hagree : AgreeOn P d d₁ := by
      refine ⟨hsettings.1, hsettings.2, fun l hl => (hentries l).resolve_right ?_⟩
      rintro ⟨_, _, hway⟩
      exact hP a List.mem_cons_self l hl hway
    refine hagree.trans (ih (fun b hb => ?_) hrest)
    rw [hsettings.1]
    exact hP b (List.mem_cons_of_mem a hb)

theorem makeStructure_off {P : Location → Prop} (hP : ∀ l, P l → ¬ OnStructureWay d.home folder l)
    (h : makeStructure folder d = (.ok made, d')) : AgreeOn P d d' := by
  obtain ⟨_, d₁, hfolders, hrest⟩ := bind_eq_ok_iff.mp h
  obtain ⟨_, d₂, hmore, hpure⟩ := bind_eq_ok_iff.mp hrest
  obtain ⟨_, rfl⟩ := pure_eq_ok_iff.mp hpure
  have hfirst : AgreeOn P d d₁ := forM_makeFolder_off (fun f hf l hl hway =>
    hP l hl (onStructureWay_of_packageFolder hf hway)) hfolders
  refine hfirst.trans (forM_makeFolder_off (fun f hf l hl hway => ?_) hmore)
  rw [hfirst.home] at hway
  exact hP l hl (onStructureWay_of_toolFolder hf hway)

theorem isFresh_of_createStructure (hroot : root.WellFormed) (hd : d.Sound) (hrooted : d.Rooted)
    (hclear : CanRemake d (root.join name))
    (h : createStructure root name d = (.ok staging, d')) :
    staging = root.join name ∧ d'.home = d.home ∧ d'.Sound ∧ IsFresh d' staging := by
  obtain ⟨e, hmake, hhome, hsound, hrooted', hstart, hempty⟩ :=
    exists_emptied hd hrooted hclear h
  obtain ⟨rfl, hhome', hsound', _⟩ := fileAt?_of_makeStructure (hroot.join name) hsound hmake
  refine ⟨rfl, hhome'.trans hhome, hsound', (makeStructure_eq_ok hrooted' hstart hmake).1,
    fun f hf l hl => ?_⟩
  have htools : f ≠ "TOOLS" := by
    have hraw : ∀ f ∈ rawFolders, f ≠ "TOOLS" := by decide
    exact hraw f hf
  rw [hhome', hhome] at hl
  have hne {l : Location} (hl : BelowFolder d.home (root.join name) f l) :
      l ≠ (root.join name).place d.home := by
    rintro rfl
    have htable : [("TABLE" : Text)] ∈ structureSteps := by decide
    exact hl.not_on_way htools htable (List.prefix_append _ _)
  have hoff : AgreeOn (BelowFolder d.home (root.join name) f) e d' := by
    refine makeStructure_off (fun l hl hway => ?_) hmake
    rw [hhome] at hway
    rcases hway with hway | ⟨steps, hsteps, rfl⟩
    · exact hne hl (hclear.way l hway hl.place_prefix_self)
    · exact hl.not_on_way htools hsteps (List.prefix_refl _)
  rw [hoff.same l hl]
  exact hempty l hl.place_prefix_self (hne hl)

/-- What there is to copying one folder, once the target is there. -/
theorem copyRawFolder_run (htarget : d.isFolder target = true) : copyRawFolder source target d =
    if d.isFolder source then
      ((d.seen source).forM fun file => copy (source.join file) (target.join file)) d
    else (pure () : Job Unit) d := by
  rw [copyRawFolder, bind_run, inspect]
  dsimp only
  split
  · rename_i hsource
    rw [isFolder_eq, Option.isSome_iff_exists] at hsource
    obtain ⟨names, hnames⟩ := hsource
    rw [bind_run, makeFolder, advance, makeFolders_of_isFolder htarget]
    dsimp only
    rw [bind_run, fileNames, require, hnames, seen, hnames]
    rfl
  · rfl

theorem lays_copyRawFolder (hnames : ∀ file c, d.fileIn? source file = some c → IsName file)
    (htarget : d.isFolder target = true) (hne : source.place d.home ≠ target.place d.home) :
    Lays (d.layer source target) (d.Fits source target) (copyRawFolder source target) d := by
  have hrun : copyRawFolder source target d = _ := copyRawFolder_run htarget
  cases hsource : d.isFolder source with
  | true =>
    rw [hsource, if_pos rfl] at hrun
    exact (lays_copies hnames htarget hne).congr hrun (fun _ => rfl) Iff.rfl
  | false =>
    rw [hsource, if_neg Bool.false_ne_true] at hrun
    have hnone (file : Text) : file ∉ d.seen source := by
      intro hseen
      rw [(mem_seen.mp hseen).2.1] at hsource
      cases hsource
    refine (lays_pure d).congr hrun (fun l => ?_)
      (iff_true_intro fun file hseen => absurd hseen (hnone file))
    rw [Option.eq_none_iff_forall_ne_some]
    intro c hc
    obtain ⟨file, _, hfile⟩ := layer_eq_some hc
    exact hnone file (mem_seen_iff_fileIn?.mpr ⟨c, hfile⟩)

/-- The files that are directly in the raw folders of a tree, in the places that they have in
another. -/
def rawLayer (d : Disk) (source target : Path) : Location → Option Content :=
  stacked (fun f => d.layer (source.join f) (target.join f)) rawFolders

/-- What a raw folder gets is the files of that folder, with nothing nested. -/
theorem rawLayer_append {f : Text} (hf : f ∈ rawFolders) (rest : Location) :
    rawLayer d source target (target.place d.home ++ [f] ++ rest) =
      match rest with
      | [file] => d.fileIn? (source.join f) file
      | _ => none := by
  have hplace {g : Text} (hg : g ∈ rawFolders) :
      (target.join g).place d.home = target.place d.home ++ [g] :=
    Path.place_join (isName_of_mem_rawFolders hg)
  have hother (g : Text) (hg : g ∈ rawFolders) (hne : g ≠ f) :
      d.layer (source.join g) (target.join g) (target.place d.home ++ [f] ++ rest) = none := by
    refine layer_eq_none fun file heq => hne ?_
    rw [hplace hg, List.append_assoc, List.append_assoc] at heq
    exact (List.cons.inj (List.append_cancel_left heq)).1.symm
  rw [rawLayer, stacked_eq hf hother, ← hplace hf]
  split
  · exact layer_concat d _ _ _
  · rename_i hrest
    exact layer_eq_none fun file heq => hrest file (List.append_cancel_left heq)

theorem rawLayer_eq_none (h : ∀ f ∈ rawFolders, ¬ BelowFolder d.home target f l) :
    rawLayer d source target l = none := by
  refine stacked_eq_none fun f hf => layer_eq_none fun file heq => h f hf ⟨[file], by simp, ?_⟩
  rw [heq, Path.place_join (isName_of_mem_rawFolders hf)]

/-- Nothing is laid where a raw folder of a tree has its files, unless the tree is the target. -/
theorem layer_eq_none_of_apart {tree : Path} {f g file : Text} (hf : f ∈ rawFolders)
    (hg : g ∈ rawFolders) (hne : tree.place d.home ≠ target.place d.home) :
    d.layer (source.join g) (target.join g) ((tree.join f).place d.home ++ [file]) = none := by
  refine layer_eq_none fun other heq => hne ?_
  rw [Path.place_join (isName_of_mem_rawFolders hf), Path.place_join (isName_of_mem_rawFolders hg)]
    at heq
  exact (List.append_inj' (List.append_inj' heq rfl).1 rfl).1

/-- What has been laid over a disk makes no difference to copying, as long as it leaves the files
that are copied as they were. -/
theorem layer_eq_of_overlaid (h : Overlaid cover d d')
    (hsource : ∀ file, cover (source.place d.home ++ [file]) = none) (target : Path) :
    d'.layer source target = d.layer source target ∧
      (d'.Fits source target ↔ d.Fits source target) := by
  have hfiles (file : Text) : d'.fileIn? source file = d.fileIn? source file :=
    h.fileIn?_eq (hsource file)
  constructor
  · funext l
    unfold layer
    rw [h.home]
    split
    · exact hfiles _
    · rfl
  · simp only [Fits, mem_seen_iff_fileIn?, hfiles, h.home, h.acceptsFile_eq]

/-- Copying a tree lays the files of its raw folders over the target. -/
theorem lays_copyRaw
    (hnames : ∀ f ∈ rawFolders, ∀ file c, d.fileIn? (source.join f) file = some c → IsName file)
    (htarget : ∀ f ∈ rawFolders, d.isFolder (target.join f) = true)
    (hne : source.place d.home ≠ target.place d.home) :
    Lays (rawLayer d source target) (∀ f ∈ rawFolders, d.Fits (source.join f) (target.join f))
      (copyRaw source target) d := by
  refine lays_forM fun f hf cover d' hd' hcover => ?_
  have hsource (file : Text) : cover ((source.join f).place d.home ++ [file]) = none :=
    hcover _ fun g hg => layer_eq_none_of_apart hf hg hne
  obtain ⟨hlayer, hfits⟩ := layer_eq_of_overlaid hd' hsource (target.join f)
  rw [← hlayer, ← hfits]
  refine lays_copyRawFolder (fun file c hfile => ?_) ?_ ?_
  · rw [hd'.fileIn?_eq (hsource file)] at hfile
    exact hnames f hf file c hfile
  · rw [hd'.isFolder_eq]
    exact htarget f hf
  · have hname : IsName f := isName_of_mem_rawFolders hf
    rw [hd'.home, Path.place_join hname, Path.place_join hname]
    exact fun heq => hne (List.append_cancel_right heq)

/-- Copying one tree after the other lays the second over the first. -/
theorem lays_staging (hd : d.Sound)
    (hstaging : ∀ f ∈ rawFolders, d.isFolder (staging.join f) = true)
    (hcommon : common.place d.home ≠ staging.place d.home)
    (hsource : source.place d.home ≠ staging.place d.home) :
    Lays (fun l => (rawLayer d source staging l).or (rawLayer d common staging l))
      (∀ f ∈ rawFolders, d.Fits (common.join f) (staging.join f) ∧
        d.Fits (source.join f) (staging.join f))
      (do
        copyRaw common staging
        copyRaw source staging) d := by
  have hfirst : Lays (rawLayer d common staging)
      (∀ f ∈ rawFolders, d.Fits (common.join f) (staging.join f)) (copyRaw common staging) d :=
    lays_copyRaw (fun f _ file c hfile => hd.isName_of_fileIn? hfile) hstaging hcommon
  refine (hfirst.bind fun d₁ hd₁ => ?_).congr rfl (fun _ => rfl) forall₂_and
  have hfiles (f : Text) (hf : f ∈ rawFolders) (file : Text) :
      rawLayer d common staging ((source.join f).place d.home ++ [file]) = none :=
    stacked_eq_none fun g hg => layer_eq_none_of_apart hf hg hsource
  have hsame (f : Text) (hf : f ∈ rawFolders) :=
    layer_eq_of_overlaid hd₁ (hfiles f hf) (staging.join f)
  have hsecond : Lays (rawLayer d₁ source staging)
      (∀ f ∈ rawFolders, d₁.Fits (source.join f) (staging.join f)) (copyRaw source staging) d₁ := by
    refine lays_copyRaw (fun f hf file c hfile => ?_) (fun f hf => ?_) ?_
    · rw [hd₁.fileIn?_eq (hfiles f hf file)] at hfile
      exact hd.isName_of_fileIn? hfile
    · rw [hd₁.isFolder_eq]
      exact hstaging f hf
    · rwa [hd₁.home]
  exact hsecond.congr rfl (fun l => (stacked_congr (fun f hf => (hsame f hf).1) l).symm)
    (forall₂_congr fun f hf => (hsame f hf).2.symm)

/-- What a raw folder comes to: the file of the source, if it has one of that name, and else the
one that is shared. Nothing is nested. -/
def staged (d : Disk) (common source : Path) (f : Text) : Location → Option Entry
  | [file] => ((d.fileIn? (source.join f) file).or (d.fileIn? (common.join f) file)).map .file
  | _ => none

/-- Descriptions are staged in a structure that has just been made, in the place of neither of the
two trees. This succeeds exactly if the paths of the copies can be followed and the raw folders take
their names. Then each raw folder holds the files that are directly in that folder of either tree,
those of the source where both have one of the same name, and nothing else. Everything that is not
below a raw folder of the structure, in the two trees and anywhere else, is as it was. -/
theorem overlay_of_copyRaw (hroot : root.WellFormed) (hd : d.Sound) (hrooted : d.Rooted)
    (hclear : CanRemake d (root.join name))
    (hmade : createStructure root name d = (.ok staging, d'))
    (hcommon : common.place d.home ≠ staging.place d.home)
    (hsource : source.place d.home ≠ staging.place d.home) :
    ((∃ d'', (do
        copyRaw common staging
        copyRaw source staging : Job Unit) d' = (.ok (), d'')) ↔
      ∀ f ∈ rawFolders, ∀ file,
        file ∈ d'.seen (common.join f) ∨ file ∈ d'.seen (source.join f) →
          ((staging.join f).join file).isUsable = true ∧
            d'.takesNew (staging.place d.home ++ [f]) file = true) ∧
    ∀ d'', (do
        copyRaw common staging
        copyRaw source staging : Job Unit) d' = (.ok (), d'') →
      (∀ f ∈ rawFolders, d''.isFolder (staging.join f) = true ∧ ∀ rest, rest ≠ [] →
        d''.entryAt? (staging.place d.home ++ [f] ++ rest) = staged d' common source f rest) ∧
      ∀ l, (∀ f ∈ rawFolders, ¬ BelowFolder d.home staging f l) →
        d''.entryAt? l = d'.entryAt? l := by
  obtain ⟨_, hhome, hd', hfresh⟩ := isFresh_of_createStructure hroot hd hrooted hclear hmade
  have hfolders (f : Text) (hf : f ∈ rawFolders) : d'.isFolder (staging.join f) = true :=
    hfresh.folders f (mem_packageFolders_of_mem_rawFolders f hf)
  have hempty (f : Text) (hf : f ∈ rawFolders) (rest : Location) (hrest : rest ≠ []) :
      d'.entryAt? (staging.place d'.home ++ [f] ++ rest) = none :=
    hfresh.empty f hf _ ⟨rest, hrest, rfl⟩
  rw [← hhome] at hcommon hsource ⊢
  have hlays := lays_staging hd' hfolders hcommon hsource
  refine ⟨hlays.succeeds_iff.trans (forall₂_congr fun f hf => ?_), fun d'' hrun => ⟨fun f hf => ?_,
    fun l hl => ?_⟩⟩
  · have hplace : (staging.join f).place d'.home = staging.place d'.home ++ [f] :=
      Path.place_join (isName_of_mem_rawFolders hf)
    have haccepts (file : Text) : d'.acceptsFile ((staging.join f).place d'.home ++ [file]) =
        d'.takesNew (staging.place d'.home ++ [f]) file := by
      rw [hplace]
      exact acceptsFile_concat (hempty f hf [file] (List.cons_ne_nil _ _))
    simp only [Fits, haccepts]
    exact ⟨fun h file hfile => hfile.elim (h.1 file) (h.2 file),
      fun h => ⟨fun file hfile => h file (Or.inl hfile), fun file hfile => h file (Or.inr hfile)⟩⟩
  · have hoverlaid := hlays.overlaid d'' hrun
    refine ⟨(hoverlaid.isFolder_eq _).trans (hfolders f hf), fun rest hrest => ?_⟩
    rw [hoverlaid.entry, rawLayer_append hf, rawLayer_append hf, hempty f hf rest hrest,
      Option.or_none]
    unfold staged
    split <;> rfl
  · have hoverlaid := hlays.overlaid d'' hrun
    refine hoverlaid.entryAt?_eq ?_
    rw [rawLayer_eq_none hl, rawLayer_eq_none hl]
    rfl

/-- A tree that is shared, with a nested folder and one that is not raw, a source that overrides one
of its files, and an older structure. -/
def twoTrees : Disk :=
  ([(["shared"], .folder), (["shared", "TABLE"], .folder),
    (["shared", "TABLE", "A.XML"], .file (.text "shared")),
    (["shared", "TABLE", "B.XML"], .file (.text "shared")),
    (["shared", "TABLE", "OLD"], .folder),
    (["shared", "TABLE", "OLD", "C.XML"], .file (.text "nested")),
    (["shared", "DOCS"], .folder), (["shared", "DOCS", "D.TXT"], .file (.text "other")),
    (["source"], .folder), (["source", "TABLE"], .folder),
    (["source", "TABLE", "B.XML"], .file (.text "own")),
    (["source", "VIEW"], .folder), (["source", "VIEW", "V.SQL"], .file (.text "own")),
    (["target"], .folder), (["target", "NEW"], .folder), (["target", "NEW", "TABLE"], .folder),
    (["target", "NEW", "TABLE", "Z.XML"], .file (.text "left"))] :
      List (Location × Entry)).foldl (fun d e => d.put e.1 e.2) {}

/-- The disk with a new structure in place of the older one. -/
def twoTreesMade : Disk := (createStructure (.ofText "target") "NEW" twoTrees).2

theorem overlay_of_twoTrees :
    createStructure (.ofText "target") "NEW" twoTrees =
      (.ok (.ofText "target/NEW"), twoTreesMade) ∧
    ∃ d, (do
        copyRaw (.ofText "shared") (.ofText "target/NEW")
        copyRaw (.ofText "source") (.ofText "target/NEW") : Job Unit) twoTreesMade = (.ok (), d) ∧
      d.entryAt? ["target", "NEW", "TABLE", "A.XML"] = some (.file (.text "shared")) ∧
      d.entryAt? ["target", "NEW", "TABLE", "B.XML"] = some (.file (.text "own")) ∧
      d.entryAt? ["target", "NEW", "TABLE", "OLD"] = none ∧
      d.entryAt? ["target", "NEW", "TABLE", "Z.XML"] = none ∧
      d.entryAt? ["target", "NEW", "VIEW", "V.SQL"] = some (.file (.text "own")) ∧
      d.entryAt? ["shared", "TABLE", "B.XML"] = some (.file (.text "shared")) := by
  have hsound : twoTrees.Sound := sound_foldl_put sound_empty (by decide +kernel)
  have hrooted : twoTrees.Rooted := rooted_of_forall (by decide +kernel)
  have hclear : CanRemake twoTrees (Path.join (.ofText "target") "NEW") :=
    canRemake_join hrooted (by decide) (by decide) (by decide) (by decide +kernel)
  have hmade : createStructure (.ofText "target") "NEW" twoTrees =
      (.ok (.ofText "target/NEW"), twoTreesMade) :=
    Prod.ext (by decide +kernel) rfl
  have hrun : ((do
      copyRaw (.ofText "shared") (.ofText "target/NEW")
      copyRaw (.ofText "source") (.ofText "target/NEW") : Job Unit) twoTreesMade).1 = .ok () := by
    decide +kernel
  obtain ⟨d, hd⟩ := exists_of_fst_eq hrun
  obtain ⟨hraw, hother⟩ := (overlay_of_copyRaw (Path.wellFormed_ofText _) hsound hrooted hclear
    hmade (by decide) (by decide)).2 d hd
  obtain ⟨_, htable⟩ := hraw "TABLE" (by decide)
  obtain ⟨_, hview⟩ := hraw "VIEW" (by decide)
  have hstaged : [("A.XML" : Text), "B.XML", "OLD", "Z.XML"].map
      (fun file => staged twoTreesMade (.ofText "shared") (.ofText "source") "TABLE" [file]) =
        [some (.file (.text "shared")), some (.file (.text "own")), none, none] ∧
      staged twoTreesMade (.ofText "shared") (.ofText "source") "VIEW" ["V.SQL"] =
        some (.file (.text "own")) := by
    decide +kernel
  simp only [List.map_cons, List.map_nil, List.cons.injEq, and_true] at hstaged
  obtain ⟨⟨hA, hB, hOLD, hZ⟩, hV⟩ := hstaged
  refine ⟨hmade, d, hd, (htable ["A.XML"] (by decide)).trans hA,
    (htable ["B.XML"] (by decide)).trans hB, (htable ["OLD"] (by decide)).trans hOLD,
    (htable ["Z.XML"] (by decide)).trans hZ, (hview ["V.SQL"] (by decide)).trans hV,
    (hother _ ?_).trans (by decide +kernel)⟩
  rintro f _ hbelow
  exact absurd hbelow.place_prefix_self (by decide)

end SchemaPackage.Package
