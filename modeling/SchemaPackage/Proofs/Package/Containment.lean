import SchemaPackage.Proofs.Disk.Changes
import SchemaPackage.Proofs.Package.UnitFolders

/-!
Where a compilation reaches. It makes the folders on the way to its target, clears and fills two
folders there and puts the archive next to them, whether it succeeds or fails. The files of a table
are the only thing that can be elsewhere: they are placed by the name of the table, and a name with
slashes may lead out of the package.
-/
namespace SchemaPackage

open Job Outcome Text

namespace Compile

open Package Disk

variable {home l : Location} {target folder source db staging p : Path} {described : Table → Prop}
  {e : Encoder} {d d' : Disk} {name : Text} {c : Content}

/-- Below a folder, but not the folder itself. -/
def Within (home : Location) (folder : Path) (l : Location) : Prop :=
  ∃ rest, rest ≠ [] ∧ l = folder.place home ++ rest

/-- The package and the staging folder. -/
def IsOwn (target folder : Path) : Prop :=
  folder = target.join "DB" ∨ folder = target.join "DB_STAGING"

/-- What a compilation may write: anything within its own folders, the archive, and the texts of
tables that are described, wherever their names lead. -/
def MayWrite (home : Location) (target : Path) (described : Table → Prop) (l : Location)
    (c : Content) : Prop :=
  (∃ folder, IsOwn target folder ∧ Within home folder l) ∨ l = (target.join "DB.zip").place home ∨
    ∃ t text, described t ∧ (l, text) ∈ tableFiles home (target.join "DB") t ∧ c = .text text

/-- Places on the way to the target, and its own folders with all that is below them. -/
def MayMake (home : Location) (target : Path) (l : Location) : Prop :=
  target.OnWay home l ∨ ∃ folder, IsOwn target folder ∧ folder.place home <+: l

/-- The scope of a compilation of certain tables. Files are written by a name in a folder, and the
folders that are made start where the target does. -/
def scope (home : Location) (target : Path) (described : Table → Prop) : Scope where
  writes p c := (∃ (q : Path) (name : Text), q.WellFormed ∧ p = q.join name) ∧
    MayWrite home target described (p.place home) c
  makes p := p.WellFormed ∧ p.isAbsolute = target.isAbsolute ∧
    ∀ l, p.OnWay home l → MayMake home target l
  clears p := IsOwn target p
  wellFormed_of_writes _ _ h := by
    obtain ⟨⟨q, name, hq, rfl⟩, _⟩ := h
    exact hq.join name
  wellFormed_of_makes _ h := h.1

theorem IsOwn.wellFormed (hfolder : IsOwn target folder) (htarget : target.WellFormed) :
    folder.WellFormed := by
  rcases hfolder with rfl | rfl <;> exact htarget.join _

theorem IsOwn.isAbsolute (hfolder : IsOwn target folder) :
    folder.isAbsolute = target.isAbsolute := by
  rcases hfolder with rfl | rfl
  · exact Path.isAbsolute_join target (by decide)
  · exact Path.isAbsolute_join target isName_staging

theorem IsOwn.mayMake (hfolder : IsOwn target folder) (h : folder.OnWay home l) :
    MayMake home target l := by
  have hjoin {name : Text} (hname : IsName name) (hfolder : IsOwn target (target.join name))
      (h : (target.join name).OnWay home l) : MayMake home target l := by
    rcases Path.onWay_join hname h with h | rfl
    · exact Or.inl h
    · exact Or.inr ⟨_, hfolder, List.prefix_refl _⟩
  rcases hfolder with rfl | rfl
  · exact hjoin (by decide) (Or.inl rfl) h
  · exact hjoin isName_staging (Or.inr rfl) h

/-- A file that is placed within one of the folders. -/
theorem IsOwn.writes {first : Text} {rest : Location} (hfolder : IsOwn target folder)
    (hp : p.WellFormed) (hplace : (p.join name).place home = folder.place home ++ first :: rest)
    (c : Content) : (scope home target described).writes (p.join name) c :=
  ⟨⟨p, name, hp, rfl⟩, Or.inl ⟨folder, hfolder, first :: rest, List.cons_ne_nil _ _, hplace⟩⟩

/-- Folders within one of the folders. -/
theorem IsOwn.makes (hfolder : IsOwn target folder) (hp : p.WellFormed)
    (habsolute : p.isAbsolute = folder.isAbsolute)
    (h : ∀ l, p.OnWay home l → folder.OnWay home l ∨ folder.place home <+: l) :
    (scope home target described).makes p := by
  refine ⟨hp, habsolute.trans hfolder.isAbsolute, fun l hl => ?_⟩
  rcases h l hl with hway | hbelow
  · exact hfolder.mayMake hway
  · exact Or.inr ⟨folder, hfolder, hbelow⟩

theorem IsOwn.makes_join (hfolder : IsOwn target folder) (htarget : target.WellFormed)
    (hname : IsName name) : (scope home target described).makes (folder.join name) := by
  refine hfolder.makes ((hfolder.wellFormed htarget).join name) (Path.isAbsolute_join _ hname)
    fun l hl => ?_
  rcases Path.onWay_join hname hl with hway | rfl
  · exact Or.inl hway
  · rw [Path.place_join hname]
    exact Or.inr (List.prefix_append _ _)

/-- Places on the way to a folder, and those of a structure that is made in it. -/
def OnStructureWay (home : Location) (folder : Path) (l : Location) : Prop :=
  folder.OnWay home l ∨ ∃ steps ∈ structureSteps, l = folder.place home ++ steps

theorem onStructureWay_of_packageFolder {f : Text} (hf : f ∈ packageFolders)
    (hl : (folder.join f).OnWay home l) : OnStructureWay home folder l := by
  have hname : IsName f := isName_of_mem_structureFolders (List.mem_append_left _ hf)
  refine (Path.onWay_join hname hl).imp_right fun heq => ?_
  rw [Path.place_join hname] at heq
  exact ⟨_, List.mem_append_left _ (List.mem_map_of_mem hf), heq⟩

theorem onStructureWay_of_toolFolder {f : Text} (hf : f ∈ toolFolders)
    (hl : ((folder.join "TOOLS").join f).OnWay home l) : OnStructureWay home folder l := by
  have htools : ("TOOLS" : Text) ∈ packageFolders := by decide
  have hname : IsName f := isName_of_mem_structureFolders (List.mem_append_right _ hf)
  rcases Path.onWay_join hname hl with hway | heq
  · exact onStructureWay_of_packageFolder htools hway
  · rw [Path.place_join hname, Path.place_join (by decide), List.append_assoc] at heq
    exact Or.inr ⟨_, List.mem_append_right _ (List.mem_map_of_mem hf), heq⟩

theorem takes_makeStructure (hfolder : IsOwn target folder) (htarget : target.WellFormed) :
    Takes home (scope home target described) (makeStructure folder) := by
  have htools : IsName "TOOLS" := by decide
  refine takes_bind (takes_forM fun f hf => takes_makeFolders _ ?_) fun _ _ =>
    takes_bind (takes_forM fun f hf => takes_makeFolders _ ?_) fun _ _ => (observes_pure _).takes
  · exact hfolder.makes_join htarget (isName_of_mem_structureFolders (List.mem_append_left _ hf))
  · have hname : IsName f := isName_of_mem_structureFolders (List.mem_append_right _ hf)
    have habsolute : ((folder.join "TOOLS").join f).isAbsolute = folder.isAbsolute :=
      (Path.isAbsolute_join _ hname).trans (Path.isAbsolute_join _ htools)
    refine hfolder.makes (((hfolder.wellFormed htarget).join _).join f) habsolute fun l hl =>
      (onStructureWay_of_toolFolder hf hl).imp_right ?_
    rintro ⟨steps, _, rfl⟩
    exact List.prefix_append _ _

theorem takes_createStructure (hname : IsOwn target (target.join name))
    (htarget : target.WellFormed) :
    Takes home (scope home target described) (createStructure target name) := by
  have hmake : Takes home (scope home target described) (makeStructure (target.join name)) :=
    takes_makeStructure hname htarget
  rw [createStructure_eq]
  refine takes_bind (observes_inspect _).takes fun there _ => ?_
  cases there with
  | false => exact hmake
  | true => exact takes_bind (takes_removeFolder _ hname) fun _ _ => hmake

theorem takes_copyRaw (hfolder : IsOwn target folder) (htarget : target.WellFormed) :
    Takes home (scope home target described) (copyRaw source folder) := by
  refine takes_forM fun f hf => ?_
  have hf : IsName f := isName_of_mem_rawFolders hf
  refine takes_bind (observes_inspect _).takes fun there _ => ?_
  cases there with
  | false => exact (observes_pure _).takes
  | true =>
    refine takes_bind (takes_makeFolders _ (hfolder.makes_join htarget hf)) fun _ _ =>
      takes_bind (observes_require _ _).takes fun names hnames => takes_forM fun name hname => ?_
    obtain ⟨d, hd, hfound⟩ := hnames
    obtain ⟨hlisted, _⟩ := require_eq_ok (Prod.ext hfound rfl)
    have hname : IsName name := hd.isName_of_mem_fileNames? hlisted hname
    have hplace : ((folder.join f).join name).place home = folder.place home ++ [f, name] :=
      place_join_join hf hname
    exact takes_copy _ _ (hfolder.writes ((hfolder.wellFormed htarget).join f) hplace)

theorem takes_stage {settings : Settings} (htarget : settings.target.WellFormed) :
    Takes home (scope home settings.target described)
      (stage settings (settings.target.join "DB_STAGING")) := by
  have hcopy (source : Path) : Takes home (scope home settings.target described)
      (copyRaw source (settings.target.join "DB_STAGING")) :=
    takes_copyRaw (Or.inr rfl) htarget
  unfold stage
  dsimp only
  split
  · exact takes_bind (hcopy _) fun _ _ => hcopy _
  · exact hcopy _

theorem observes_parseTableFile (ctx : Context) (p : Path) (tracked : Bool) :
    Observes (parseTableFile ctx p tracked) :=
  observes_bind (observes_require _ _) fun _ => observes_building _ _

theorem observes_parseUnitFile (p : Path) : Observes (parseUnitFile p) :=
  observes_bind (observes_require _ _) fun _ => observes_lift _

theorem observes_registerAll (staging : Path) (e : Encoder) (ctx : Context)
    (kinds : List Dictionary) : Observes (registerAll staging e ctx kinds) := by
  induction kinds generalizing e ctx with
  | nil => exact observes_pure _
  | cons k rest ih =>
    refine observes_bind (observes_parseTableFile _ _ _) fun parsed => ?_
    obtain ⟨t?, next⟩ := parsed
    cases t? with
    | none => exact observes_throw _
    | some t => exact observes_bind (observes_lift _) fun registered => ih registered next

theorem observes_parseTables (folder : Path) (tracked : Bool) (ctx : Context)
    (names : List Text) : Observes (parseTables folder tracked ctx names) := by
  induction names generalizing ctx with
  | nil => exact observes_pure _
  | cons name rest ih =>
    exact observes_bind (observes_parseTableFile _ _ _) fun parsed =>
      observes_bind (ih parsed.2) fun _ => observes_pure _

theorem takes_appendRecords (htarget : target.WellFormed) (k : Dictionary) (records : Text) :
    Takes home (scope home target described) (appendRecords (target.join "DB") k records) := by
  have hplace : (dataFile (target.join "DB") k.tableName).place home =
      (target.join "DB").place home ++ [("INIT_TABLE" : Text), k.tableName ++ ".DAT"] :=
    (recordsPlace_eq home _ k).trans (List.append_assoc _ _ _)
  exact takes_append _ _
    (IsOwn.writes (Or.inl rfl) ((htarget.join _).join _) hplace)

/-- The files of a table stay within the scope of its description. -/
theorem takes_writeArtifacts (htarget : target.WellFormed) {t : Table} {a : Artifacts}
    (ht : described t)
    (ha : artifactFiles home (target.join "DB") a = tableFiles home (target.join "DB") t) :
    Takes home (scope home target described) (writeArtifacts (target.join "DB") a) := by
  have hwrite {folder : Path} {name text : Text} (hfolder : folder.WellFormed)
      (hmem : ((folder.join name).place home, text) ∈
        artifactFiles home (target.join "DB") a) :
      Takes home (scope home target described) (write (folder.join name) text) := by
    rw [ha] at hmem
    exact takes_write _ ⟨⟨folder, name, hfolder, rfl⟩, Or.inr (Or.inr ⟨t, text, ht, hmem, rfl⟩)⟩
  have htables : ((target.join "DB").join "TABLE").WellFormed := (htarget.join _).join _
  have hrecords : (recordsFolder (target.join "DB")).WellFormed := (htarget.join _).join _
  rw [writeArtifacts_eq]
  refine takes_bind (hwrite htables ?_) fun _ _ =>
    takes_bind (takes_optional fun text htext => hwrite htables ?_) fun _ _ =>
      takes_optional fun text htext => hwrite hrecords ?_
  · exact List.mem_append_left _ List.mem_cons_self
  · refine List.mem_append_left _ (List.mem_cons_of_mem _ (List.mem_map.mpr ⟨text, ?_, rfl⟩))
    exact Option.mem_toList.mpr htext
  · exact List.mem_append_right _ (List.mem_map.mpr ⟨text, Option.mem_toList.mpr htext, rfl⟩)

theorem takes_addTable (htarget : target.WellFormed) {t : Table} {a : Artifacts}
    (ht : described t)
    (ha : artifactFiles home (target.join "DB") a = tableFiles home (target.join "DB") t) :
    Takes home (scope home target described) (addTable (target.join "DB") a) :=
  takes_bind (takes_writeArtifacts htarget ht ha) fun _ _ =>
    takes_bind (takes_appendRecords htarget _ _) fun _ _ =>
      takes_bind (takes_appendRecords htarget _ _) fun _ _ => takes_appendRecords htarget _ _

theorem exists_table_of_rendered {tables : List Table} {artifacts : List Artifacts}
    (h : List.Forall₂ (fun t a => Artifacts.render e t = .ok a) tables artifacts)
    {a : Artifacts} (ha : a ∈ artifacts) : ∃ t ∈ tables, Artifacts.render e t = .ok a := by
  induction h with
  | nil => exact absurd ha List.not_mem_nil
  | @cons t first _ _ hfirst _ ih =>
    rcases List.mem_cons.mp ha with rfl | ha
    · exact ⟨t, List.mem_cons_self, hfirst⟩
    · obtain ⟨t, ht, hrender⟩ := ih ha
      exact ⟨t, List.mem_cons_of_mem _ ht, hrender⟩

/-- On a disk where certain tables are described, generating stays within their scope. -/
theorem changes_generateTables {choice : FaultChoice} {tracked : Bool} {ctx : Context}
    (htarget : target.WellFormed) (hctx : ctx.Reachable) (hhome : d.home = home) (hd : d.Sound)
    (hdescribed : ∀ tables, TablesIn d (staging.join "TABLE") tracked tables →
      ∀ t ∈ tables, described t) :
    Changes (scope home target described) d
      (generateTables choice e staging (target.join "DB") tracked ctx d).2 := by
  have hnames : Observes (descriptionNames (staging.join "TABLE")) :=
    observes_descriptionNames _
  refine changes_bind (hnames.takes d hhome hd) fun names d₁ hlisted => ?_
  obtain ⟨rfl, rfl⟩ := descriptionNames_eq_ok hlisted
  refine changes_bind ((observes_parseTables _ _ _ _).takes d hhome hd) fun tables d₁ hparse => ?_
  obtain ⟨hsame, parsed, hparsed, htables⟩ := parseTables_eq_ok hctx hparse
  obtain rfl := hsame.symm
  have hin : TablesIn d (staging.join "TABLE") tracked tables :=
    ⟨_, parsed, lists_descriptions _ _, hparsed, htables⟩
  refine changes_bind .refl fun artifacts d₁ hlift => ?_
  obtain ⟨hrender, rfl⟩ := lift_eq_ok_iff.mp hlift
  refine takes_bind (takes_forM fun k _ => takes_appendRecords htarget k _)
    (fun _ _ => takes_forM fun a ha => ?_) d hhome hd
  obtain ⟨t, ht, ha⟩ :=
    exists_table_of_rendered (Artifacts.forall₂_of_renderAll hrender) ha
  exact takes_addTable htarget (hdescribed tables hin t ht) (artifactFiles_eq ha)

theorem takes_addUnits (htarget : target.WellFormed) (kind : UnitKind) :
    Takes home (scope home target described) (addUnits e staging (target.join "DB") kind) := by
  refine takes_bind (observes_descriptionNames _).takes fun names hnames =>
    takes_forM fun name hname => takes_bind (observes_parseUnitFile _).takes fun u? _ => ?_
  obtain ⟨d, hd, hfound⟩ := hnames
  obtain ⟨rfl, _⟩ := descriptionNames_eq_ok (Prod.ext hfound rfl)
  obtain ⟨hproper, hdescription⟩ := hd.of_mem_descriptions hname
  obtain ⟨base, last, hbase⟩ := exists_extension? hdescription
  cases u? with
  | none => exact (observes_pure _).takes
  | some u =>
    refine takes_bind (observes_lift _).takes fun record _ =>
      takes_bind (takes_appendRecords htarget _ _) fun _ _ => takes_forM fun file hfile => ?_
    obtain ⟨_, ext, hext, rfl⟩ := (mem_sources_iff ⟨last, hbase⟩).mp hfile
    have hslash : '/' ∉ base := by
      have hname := hproper.no_slash
      rw [eq_of_extension? hbase, List.append_assoc, List.mem_append, not_or] at hname
      exact hname.1
    have hplace : (((target.join "DB").join kind.name).join (base ++ "." ++ ext)).place home =
        (target.join "DB").place home ++ [kind.name, base ++ "." ++ ext] :=
      place_sourceFile hslash hext
    exact takes_copy _ _ (IsOwn.writes (Or.inl rfl) ((htarget.join _).join _) hplace)

theorem takes_generateUnits (htarget : target.WellFormed) :
    Takes home (scope home target described) (generateUnits e staging (target.join "DB")) :=
  takes_bind (takes_appendRecords htarget _ _) fun _ _ =>
    takes_forM fun kind _ => takes_addUnits htarget kind

theorem takes_cloneRecords (htarget : target.WellFormed) :
    Takes home (scope home target described) (cloneRecords (target.join "DB")) := by
  refine takes_forM fun k _ => ?_
  have hplace : (dataFile (target.join "DB") (upgradeName k)).place home =
      (target.join "DB").place home ++ [("INIT_TABLE" : Text), upgradeName k ++ ".DAT"] :=
    (upgradePlace_eq home _ k).trans (List.append_assoc _ _ _)
  exact takes_copy _ _ (IsOwn.writes (Or.inl rfl) ((htarget.join _).join _) hplace)

theorem takes_writeUpgradeControl (htarget : target.WellFormed) (k : Dictionary) :
    Takes home (scope home target described)
      (writeUpgradeControl e (target.join "DB") k) := by
  have hname : '/' ∉ upgradeName k := by cases k <;> decide
  have hplace : (controlFile (target.join "DB") (upgradeName k)).place home =
      (target.join "DB").place home ++ [("INIT_TABLE" : Text), upgradeName k ++ ".CTL"] :=
    controlPlace_eq hname
  refine takes_bind (observes_inspect _).takes fun there _ => ?_
  split
  · split
    · refine takes_bind (observes_lift _).takes fun text _ => takes_write _ ?_
      exact IsOwn.writes (Or.inl rfl) ((htarget.join _).join _) hplace _
    · exact (observes_pure _).takes
  · exact (observes_pure _).takes

theorem takes_copyTemplates (htarget : target.WellFormed) (source : Path) :
    Takes home (scope home target described) (copyTemplates source (target.join "DB")) := by
  rw [copyTemplates_eq]
  refine takes_bind (observes_inspect _).takes fun tools htools => takes_forM fun entry hentry => ?_
  obtain ⟨d, hd, hfound⟩ := htools
  obtain ⟨rfl, _⟩ := inspect_eq_ok (Prod.ext hfound rfl)
  have hnames := isName_of_mem_templates hd hentry
  have hplace : ((target.join "DB").join (Text.joined "/" (("TOOLS" : Text) :: entry.1))).place
      home = (target.join "DB").place home ++ ("TOOLS" : Text) :: entry.1 :=
    Path.place_join_joined (List.cons_ne_nil _ _) hnames
  unfold copyTemplate
  dsimp only
  split
  · have habsolute := (Path.join_joined (target.join "DB") (List.cons_ne_nil _ _) hnames).2
    refine takes_bind (takes_makeFolders _ (IsOwn.makes (Or.inl rfl) ((htarget.join _).join _)
      habsolute fun l hl => ?_)) fun _ _ => ?_
    · rcases Path.onWay_join_joined (List.cons_ne_nil _ _) hnames hl with hway | ⟨front, _, _, rfl⟩
      · exact Or.inl hway
      · exact Or.inr (List.prefix_append _ _)
    · split
      · exact (observes_throw _).takes
      · exact (observes_pure _).takes
  · exact takes_copy _ _ (IsOwn.writes (Or.inl rfl) (htarget.join _) hplace)

theorem takes_finish {made : Moment} {settings : Settings}
    (htarget : settings.target.WellFormed) :
    Takes home (scope home settings.target described)
      (finish made settings (settings.target.join "DB")) := by
  have hscript : Takes home (scope home settings.target described)
      (writeScript made settings.release (settings.target.join "DB")) := by
    refine takes_bind (observes_inspect _).takes fun text _ => takes_write _ ?_
    exact IsOwn.writes (Or.inl rfl) (((htarget.join _).join _).join _) (place_scriptFile home _) _
  have hrelease : Takes home (scope home settings.target described)
      (writeRelease (settings.target.join "DB") settings.release) :=
    takes_write _ (IsOwn.writes (Or.inl rfl) (htarget.join _)
      (Path.place_join (by decide)) _)
  refine takes_bind hscript fun _ _ => ?_
  dsimp only
  split
  · exact takes_bind (takes_copyTemplates htarget _) fun _ _ => hrelease
  · exact hrelease

theorem takes_pack (htarget : target.WellFormed) :
    Takes home (scope home target described) (pack target) := by
  have hzip : IsName "DB.zip" := by decide
  have hwrite (content : Content) : Takes home (scope home target described)
      (change (.unwritable (target.join "DB.zip"))
        (Disk.write? (target.join "DB.zip") content)) :=
    takes_write _ ⟨⟨target, _, htarget, rfl⟩, Or.inr (Or.inl rfl)⟩
  refine takes_bind ?_ fun _ _ => takes_removeFolder _ (Or.inr rfl)
  rw [createArchive_eq]
  refine takes_bind (takes_optional fun parent hparent => takes_makeFolders _ ?_) fun _ _ =>
    takes_bind (hwrite _) fun _ _ => takes_bind (observes_require _ _).takes fun location _ =>
      takes_bind (observes_inspect _).takes fun things _ =>
        takes_bind (observes_inspect _).takes fun self _ => takes_bind (hwrite _) fun _ _ => ?_
  · exact ⟨wellFormed_of_parent? (htarget.join _) hparent,
      Path.isAbsolute_of_parent?_join hzip hparent,
      fun l hl => Or.inl (Path.onWay_parent?_join hzip hparent hl)⟩
  · split
    · exact (observes_throw _).takes
    · exact (observes_pure _).takes

/-- Tables that staged files describe. -/
def Described (settings : Settings) (staged : Disk) (t : Table) : Prop :=
  ∃ tables, TablesIn staged ((settings.target.join "DB_STAGING").join "TABLE") settings.tracked
    tables ∧ t ∈ tables

theorem takes_prepare {settings : Settings} (htarget : settings.target.WellFormed) :
    Takes home (scope home settings.target described) (prepare settings) := by
  refine takes_bind (takes_createStructure (Or.inl rfl) htarget) fun _ _ => ?_
  rw [createStructure_bind]
  exact takes_bind (takes_createStructure (Or.inr rfl) htarget) fun _ _ => takes_stage htarget

/-- What is staged may be written for, in the package and elsewhere. -/
theorem changes_fill {settings : Settings} (htarget : settings.target.WellFormed)
    (hhome : d.home = home) (hd : d.Sound) :
    Changes (scope home settings.target (Described settings d)) d
      (fill settings (settings.target.join "DB_STAGING") (settings.target.join "DB") d).2 := by
  have hregister : Observes (registerAll (settings.target.join "DB_STAGING")
      { order := settings.chance.order } {} Dictionary.all) :=
    observes_registerAll _ _ _ _
  refine changes_bind (hregister.takes d hhome hd) fun registered d₁ hrun => ?_
  obtain ⟨e, ctx⟩ := registered
  obtain ⟨hsame, hctx, _⟩ := registerAll_eq_ok .new hrun
  obtain rfl := hsame.symm
  have htables : Changes (scope home settings.target (Described settings d)) d
      (generateTables settings.chance.choice e (settings.target.join "DB_STAGING")
        (settings.target.join "DB") settings.tracked ctx d).2 :=
    changes_generateTables htarget hctx hhome hd fun tables hin t ht => ⟨tables, hin, ht⟩
  refine changes_bind htables fun _ d₁ hrun => ?_
  rw [hrun] at htables
  refine takes_bind (takes_generateUnits htarget) (fun _ _ => takes_bind
    (takes_cloneRecords htarget) fun _ _ => takes_forM fun k _ =>
      takes_writeUpgradeControl htarget k) d₁ (htables.settings.1.trans hhome) (htables.sound hd)

/-- A compilation is a chain of changes within the scope of the tables that are staged. -/
theorem changes_run (made : Moment) {settings : Settings} (htarget : settings.target.WellFormed)
    (hd : d.Sound) :
    Changes (scope d.home settings.target (Described settings (stagedDisk settings d))) d
      (run made settings d).2 := by
  have hprepare : Changes (scope d.home settings.target (Described settings (stagedDisk settings d)))
      d (prepare settings d).2 :=
    takes_prepare htarget d rfl hd
  rw [run_eq]
  refine changes_bind hprepare fun _ staged hrun => ?_
  have hstaged : stagedDisk settings d = staged := by
    rw [stagedDisk_eq, hrun]
  rw [hrun] at hprepare
  have hhome := hprepare.settings.1
  have hfill := changes_fill htarget hhome (hprepare.sound hd)
  rw [hstaged]
  refine changes_bind hfill fun _ filled hrun => ?_
  rw [hrun] at hfill
  exact takes_bind (takes_finish htarget) (fun _ _ => takes_bind (takes_pack htarget) fun _ _ =>
    (observes_pure _).takes) filled (hfill.settings.1.trans hhome)
      (hfill.sound (hprepare.sound hd))

/-- What there can be at a place that is never cleared: what was there, or a new folder on the way to
the target, or a file that may be written there. -/
inductive Uncleared (home : Location) (target : Path) (described : Table → Prop) (l : Location)
    (before : Option Entry) : Option Entry → Prop
  | same : Uncleared home target described l before before
  | folder (hway : target.OnWay home l) (hnone : before = none) :
      Uncleared home target described l before (some .folder)
  | file {c : Content} (hwrite : MayWrite home target described l c) :
      Uncleared home target described l before (some (.file c))

theorem Uncleared.trans {before between after : Option Entry}
    (h : Uncleared home target described l before between)
    (h' : Uncleared home target described l between after) :
    Uncleared home target described l before after := by
  cases h' with
  | same => exact h
  | file hwrite => exact .file hwrite
  | folder hway hnone =>
    cases h with
    | same => exact .folder hway hnone
    | folder _ _ => cases hnone
    | file _ => cases hnone

/-- A single change at a place that is in neither of the own folders. -/
theorem uncleared_of_change (hl : ∀ folder, IsOwn target folder → ¬ folder.place home <+: l)
    (hhome : d.home = home) (h : Change (scope home target described) d d') :
    Uncleared home target described l (d.entryAt? l) (d'.entryAt? l) := by
  cases h with
  | @write p c _ hp hwrite =>
    rw [entryAt?_write? hwrite, hhome]
    split
    · rename_i hplace
      rw [hplace]
      exact .file hp.2
    · exact .same
  | @make p hp =>
    rcases entryAt?_makeFolders p d l with hsame | ⟨hnone, hfolder, hway⟩
    · rw [hsame]
      exact .same
    · rw [hhome] at hway
      rcases hp.2.2 l hway with hway | ⟨folder, hown, hbelow⟩
      · rw [hfolder]
        exact .folder hway hnone
      · exact absurd hbelow (hl folder hown)
  | @clear p hp =>
    rcases entryAt?_removeFolder p d l with hsame | ⟨hbelow, _⟩
    · rw [hsame]
      exact .same
    · rw [hhome] at hbelow
      exact absurd hbelow (hl p hp)

/-- Any number of changes at such a place. -/
theorem uncleared_of_changes (hl : ∀ folder, IsOwn target folder → ¬ folder.place home <+: l)
    (hhome : d.home = home) (h : Changes (scope home target described) d d') :
    Uncleared home target described l (d.entryAt? l) (d'.entryAt? l) := by
  have hboth := h.induction
    (I := fun d₁ => d₁.home = home ∧
      Uncleared home target described l (d.entryAt? l) (d₁.entryAt? l))
    (fun d₁ d₂ hchange hd₁ => ⟨hchange.settings.1.trans hd₁.1,
      hd₁.2.trans (uncleared_of_change hl hd₁.1 hchange)⟩)
    ⟨hhome, .same⟩
  exact hboth.2

/-- Places that are not the compilation's own. -/
structure IsForeign (home : Location) (target : Path) (l : Location) : Prop where
  outside : ∀ folder, IsOwn target folder → ¬ folder.place home <+: l
  archive : l ≠ (target.join "DB.zip").place home

/-- What may become of an entry at a foreign place. -/
inductive MayBecome (home : Location) (target : Path) (described : Table → Prop) (l : Location)
    (before : Option Entry) : Option Entry → Prop
  | same : MayBecome home target described l before before
  | folder (h : target.OnWay home l) (hnone : before = none) :
      MayBecome home target described l before (some .folder)
  | table {t : Table} {text : Text} (ht : described t)
      (hmem : (l, text) ∈ tableFiles home (target.join "DB") t) :
      MayBecome home target described l before (some (.file (.text text)))

/-- At a foreign place only the texts of tables may be written. -/
theorem mayBecome_of_changes (hl : IsForeign home target l) (hhome : d.home = home)
    (h : Changes (scope home target described) d d') :
    MayBecome home target described l (d.entryAt? l) (d'.entryAt? l) := by
  have hentry := uncleared_of_changes hl.outside hhome h
  generalize d'.entryAt? l = after at hentry ⊢
  cases hentry with
  | same => exact .same
  | folder hway hnone => exact .folder hway hnone
  | file hwrite =>
    rcases hwrite with ⟨folder, hfolder, rest, _, hrest⟩ | hzip | ⟨t, text, ht, hmem, rfl⟩
    · refine absurd ?_ (hl.outside folder hfolder)
      rw [hrest]
      exact List.prefix_append _ _
    · exact absurd hzip hl.archive
    · exact .table ht hmem

/-- The files of a table whose name has no slash are in the package. -/
theorem place_prefix_of_mem_tableFiles {t : Table} {text : Text} (hslash : '/' ∉ t.name)
    (hmem : (l, text) ∈ tableFiles home db t) : db.place home <+: l := by
  have hfile {folder file : Text} : db.place home <+: filePlace home db folder file :=
    List.prefix_append _ _
  rcases mem_tableFiles_iff.mp hmem with ⟨rfl, _⟩ | ⟨_, rfl, _⟩ | ⟨_, rfl⟩
  · rw [place_tableFile hslash]
    exact hfile
  · rw [place_indexFile hslash]
    exact hfile
  · rw [controlPlace_eq hslash]
    exact hfile

/-- Whether a compilation succeeds or fails, outside of its own folders and beside its archive every
entry is as it was, apart from new folders on the way to the target and from the texts of staged
tables that have a slash in their names. -/
theorem foreign_of_run (made : Moment) {settings : Settings}
    (htarget : settings.target.WellFormed) (hd : d.Sound)
    (hl : IsForeign d.home settings.target l) :
    (run made settings d).2.entryAt? l = d.entryAt? l ∨
      (settings.target.OnWay d.home l ∧ d.entryAt? l = none ∧
        (run made settings d).2.entryAt? l = some .folder) ∨
      ∃ t text, Described settings (stagedDisk settings d) t ∧ '/' ∈ t.name ∧
        (l, text) ∈ tableFiles d.home (settings.target.join "DB") t ∧
        (run made settings d).2.entryAt? l = some (.file (.text text)) := by
  have hbecome := mayBecome_of_changes hl rfl (changes_run made htarget hd)
  generalize (run made settings d).2.entryAt? l = after at hbecome ⊢
  cases hbecome with
  | same => exact Or.inl rfl
  | folder hway hnone => exact Or.inr (Or.inl ⟨hway, hnone, rfl⟩)
  | @table t text ht hmem =>
    refine Or.inr (Or.inr ⟨t, text, ht, ?_, hmem, rfl⟩)
    by_contra hslash
    exact hl.outside _ (Or.inl rfl) (place_prefix_of_mem_tableFiles hslash hmem)

/-- A file outside of the target has been replaced by the statement of a table. -/
theorem foreign_of_strayDisk :
    strayDisk.fileAt? ["OUTSIDE", "KEEP.SQL"] = some (.text "KEEP") ∧
      IsForeign strayDisk.home equipped.target ["OUTSIDE", "KEEP.SQL"] ∧
      ∃ t text, Described equipped (stagedDisk equipped strayDisk) t ∧ '/' ∈ t.name ∧
        ((["OUTSIDE", "KEEP.SQL"] : Location), text) ∈
          tableFiles strayDisk.home (equipped.target.join "DB") t ∧
        (run ⟨2026, 1, 1, 4, 0, 0, 0⟩ equipped strayDisk).2.fileAt? ["OUTSIDE", "KEEP.SQL"] =
          some (.text text) := by
  have hplaces : strayDisk.fileAt? ["OUTSIDE", "KEEP.SQL"] = some (.text "KEEP") ∧
      (equipped.target.join "DB").place strayDisk.home = ["target", "DB"] ∧
      (equipped.target.join "DB_STAGING").place strayDisk.home = ["target", "DB_STAGING"] ∧
      (equipped.target.join "DB.zip").place strayDisk.home = ["target", "DB.zip"] := by
    decide +kernel
  obtain ⟨hkeep, hdb, hstaging, hzip⟩ := hplaces
  have hforeign : IsForeign strayDisk.home equipped.target ["OUTSIDE", "KEEP.SQL"] := by
    refine ⟨?_, by rw [hzip]; decide⟩
    rintro folder (rfl | rfl)
    · rw [hdb]
      decide
    · rw [hstaging]
      decide
  obtain ⟨d', hd', hfile, _⟩ := run_strayDisk
  have hrun := foreign_of_run ⟨2026, 1, 1, 4, 0, 0, 0⟩ target_equipped sound_strayDisk hforeign
  rw [hd'] at hrun ⊢
  refine ⟨hkeep, hforeign, ?_⟩
  rcases hrun with hsame | ⟨_, hnone, _⟩ | ⟨t, text, ht, hslash, hmem, hentry⟩
  · rw [fileAt?_congr hsame, hkeep] at hfile
    exact absurd hfile (by decide)
  · rw [fileAt?_eq_some, hnone] at hkeep
    cases hkeep
  · exact ⟨t, text, ht, hslash, hmem, fileAt?_eq_some.mpr hentry⟩

end Compile
end SchemaPackage
