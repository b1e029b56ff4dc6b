import SchemaPackage.Proofs.Disk.Entries
import SchemaPackage.Proofs.Package.Filling

/-!
The archive of a finished package. Its entries are what is left in the folder of the package when
the compilation is done, each once and in depth-first order, under the path that leads there from
next to the folder. Nothing changes in the folder once the archive is begun, and the archive itself
lies outside of it.
-/
namespace SchemaPackage

open Job Outcome Text

namespace Text

variable {names : List Text} {t : Text}

/-- A path that is made up of names does not end in a slash. -/
theorem joined_ne_append_slash (hnames : names ≠ []) (h : ∀ name ∈ names, IsName name) :
    joined "/" names ≠ t ++ "/" := by
  intro heq
  have hsplit : split '/' (joined "/" names) = names :=
    split_joined hnames fun name hname => (h name hname).no_slash
  have hpieces : split '/' (t ++ "/") = split '/' t ++ [[]] := split_append_cons t []
  rw [heq, hpieces] at hsplit
  refine (h [] ?_).ne_nil rfl
  rw [← hsplit]
  exact List.mem_append_right _ (List.mem_singleton_self [])

theorem joined_slash_inj {names' : List Text} (hnames : names ≠ []) (hnames' : names' ≠ [])
    (h : ∀ name ∈ names, IsName name) (h' : ∀ name ∈ names', IsName name)
    (heq : joined "/" names = joined "/" names') : names = names' := by
  have hsplit : split '/' (joined "/" names) = names :=
    split_joined hnames fun name hname => (h name hname).no_slash
  have hsplit' : split '/' (joined "/" names') = names' :=
    split_joined hnames' fun name hname => (h' name hname).no_slash
  rw [← hsplit, heq, hsplit']

end Text

namespace ArchiveEntry

variable {e e' : ArchiveEntry}

theorem name_of_file (h : e.bytes ≠ none) : e.name = joined "/" e.location := by
  obtain ⟨bytes, hbytes⟩ := Option.ne_none_iff_exists'.mp h
  rw [name, hbytes]
  exact List.append_nil _

/-- A slash is put behind the path of a folder, unless a backslash ends it. -/
theorem name_of_folder (h : e.bytes = none) :
    e.name = joined "/" e.location ++ "/" ∧ ¬ ("\\" : Text) <:+ joined "/" e.location ∨
      e.name = joined "/" e.location ∧ ("\\" : Text) <:+ joined "/" e.location := by
  rw [name, h, path, Option.isNone_none, Bool.true_and]
  cases hends : endsWith "\\" (joined "/" e.location) with
  | false =>
    refine Or.inl ⟨rfl, fun hsuffix => ?_⟩
    rw [endsWith_iff.mpr hsuffix] at hends
    cases hends
  | true => exact Or.inr ⟨List.append_nil _, endsWith_iff.mp hends⟩

theorem name_cases (e : ArchiveEntry) :
    e.name = joined "/" e.location ∨ e.name = joined "/" e.location ++ "/" := by
  by_cases h : e.bytes = none
  · rcases name_of_folder h with ⟨hname, _⟩ | ⟨hname, _⟩
    · exact Or.inr hname
    · exact Or.inl hname
  · exact Or.inl (name_of_file h)

/-- Entries of one name are at one location. -/
theorem location_eq_of_name_eq (hne : e.location ≠ []) (hne' : e'.location ≠ [])
    (h : ∀ name ∈ e.location, IsName name) (h' : ∀ name ∈ e'.location, IsName name)
    (hname : e.name = e'.name) : e.location = e'.location := by
  refine joined_slash_inj hne hne' h h' ?_
  rcases name_cases e with heq | heq <;> rcases name_cases e' with heq' | heq'
  · rw [← heq, hname, heq']
  · exact absurd ((heq.symm.trans hname).trans heq') (joined_ne_append_slash hne h)
  · exact absurd ((heq'.symm.trans hname.symm).trans heq) (joined_ne_append_slash hne' h')
  · exact List.append_cancel_right ((heq.symm.trans hname).trans heq')

end ArchiveEntry

namespace Package

open Disk

/-- Depth-first order. A folder comes before what it contains, and of two things in one folder the
one whose name has the smaller bytes comes first, with everything that it contains. -/
inductive Precedes : Location → Location → Prop
  | inside (l : Location) (name : Text) (rest : Location) : Precedes l (l ++ name :: rest)
  | beside (l : Location) {s t : Text} (h : s.byteList < t.byteList) (rest rest' : Location) :
      Precedes (l ++ s :: rest) (l ++ t :: rest')

variable {d d' : Disk} {home l m : Location} {folder output : Path} {top : Text}
  {entries : List ArchiveEntry}

theorem Precedes.cons (h : Precedes l m) (name : Text) : Precedes (name :: l) (name :: m) := by
  cases h with
  | inside l first rest => exact .inside (name :: l) first rest
  | beside l h rest rest' => exact .beside (name :: l) h rest rest'

theorem Precedes.ne (h : Precedes l m) : l ≠ m := by
  cases h with
  | inside l name rest => simp
  | beside l h rest rest' =>
    intro heq
    rw [(List.cons.inj (List.append_cancel_left heq)).1] at h
    exact List.lt_irrefl _ h

/-- The order of the locations on a disk is depth-first. -/
theorem precedes_of_compare (h : compare l m = .lt) : Precedes l m := by
  induction l generalizing m with
  | nil =>
    cases m with
    | nil => cases h
    | cons name rest => exact .inside [] name rest
  | cons s l ih =>
    cases m with
    | nil => cases h
    | cons t m =>
      rw [List.compare_eq_compareLex, List.compareLex_cons_cons, Ordering.then_eq_lt] at h
      rcases h with h | ⟨h, hrest⟩
      · exact .beside [] (byteList_lt h) l m
      · rw [Std.LawfulEqCmp.eq_of_compare h]
        exact (ih hrest).cons t

/-- The entries of an archive are a folder and everything below it, each once and in depth-first
order. Their names are the paths from the name of the folder on, all different; those of folders
end in a slash, or in a backslash that was there already. Files have their contents. -/
structure Mirrors (d : Disk) (folder : Location) (top : Text) (entries : List ArchiveEntry) :
    Prop where
  ordered : entries.Pairwise fun e e' => Precedes e.location e'.location
  mem_iff : ∀ e, e ∈ entries ↔ ∃ rest, e.location = top :: rest ∧
    (d.isFolderAt (folder ++ rest) = true ∧ e.bytes = none ∨
      ∃ c, d.fileAt? (folder ++ rest) = some c ∧ e.bytes = some c.toBytes)
  file_name : ∀ e ∈ entries, e.bytes ≠ none → e.name = joined "/" e.location
  folder_name : ∀ e ∈ entries, e.bytes = none →
    e.name = joined "/" e.location ++ "/" ∧ ¬ ("\\" : Text) <:+ joined "/" e.location ∨
      e.name = joined "/" e.location ∧ ("\\" : Text) <:+ joined "/" e.location
  names_ne : entries.Pairwise fun e e' => e.name ≠ e'.name

theorem Mirrors.congr {folder : Location} (h : Mirrors d folder top entries)
    (hsame : ∀ rest, d'.entryAt? (folder ++ rest) = d.entryAt? (folder ++ rest)) :
    Mirrors d' folder top entries where
  ordered := h.ordered
  mem_iff e := by
    rw [h.mem_iff]
    simp only [isFolderAt, fileAt?, hsame]
  file_name := h.file_name
  folder_name := h.folder_name
  names_ne := h.names_ne

theorem mem_tree {folder rest : Location} {entry : Entry} :
    (rest, entry) ∈ d.tree folder ↔
      d.entryAt? folder ≠ none ∧ d.entryAt? (folder ++ rest) = some entry := by
  unfold tree
  cases hentry : d.entryAt? folder with
  | none => simp
  | some top =>
    rw [List.mem_cons, mem_below, Prod.mk.injEq]
    by_cases hrest : rest = []
    · simp [hrest, hentry, eq_comm]
    · simp [hrest]

theorem pairwise_tree (d : Disk) (folder : Location) :
    (d.tree folder).Pairwise fun e e' => Precedes e.1 e'.1 := by
  unfold tree
  split
  · refine List.Pairwise.cons (fun e he => ?_)
      ((pairwise_below d folder).imp fun hlt => precedes_of_compare hlt)
    obtain ⟨name, rest, hlocation⟩ := List.exists_cons_of_ne_nil (mem_below.mp he).1
    rw [hlocation]
    exact .inside [] name rest
  · exact List.Pairwise.nil

theorem archiveEntry_eq_iff {rest : Location} {entry : Entry} {e : ArchiveEntry} :
    archiveEntry top (rest, entry) = e ↔ e.location = top :: rest ∧
      (entry = .folder ∧ e.bytes = none ∨ ∃ c, entry = .file c ∧ e.bytes = some c.toBytes) := by
  obtain ⟨location, bytes⟩ := e
  rw [archiveEntry, ArchiveEntry.mk.injEq]
  cases entry with
  | folder => simp [eq_comm]
  | file c => simp [eq_comm]

/-- What is in a folder is archived as it is. -/
theorem mirrors_tree {folder : Location} (hd : d.Sound) (htop : IsName top)
    (hfolder : d.isFolderAt folder = true) :
    Mirrors d folder top ((d.tree folder).map (archiveEntry top)) := by
  have hthere : d.entryAt? folder ≠ none := by
    rw [beq_iff_eq.mp hfolder]
    exact Option.some_ne_none _
  have hmem (e : ArchiveEntry) : e ∈ (d.tree folder).map (archiveEntry top) ↔
      ∃ rest, e.location = top :: rest ∧
        (d.isFolderAt (folder ++ rest) = true ∧ e.bytes = none ∨
          ∃ c, d.fileAt? (folder ++ rest) = some c ∧ e.bytes = some c.toBytes) := by
    simp only [List.mem_map, Prod.exists, mem_tree, archiveEntry_eq_iff, fileAt?_eq_some,
      isFolderAt, beq_iff_eq]
    constructor
    · rintro ⟨rest, entry, ⟨_, hentry⟩, hlocation, ⟨rfl, hbytes⟩ | ⟨c, rfl, hbytes⟩⟩
      · exact ⟨rest, hlocation, Or.inl ⟨hentry, hbytes⟩⟩
      · exact ⟨rest, hlocation, Or.inr ⟨c, hentry, hbytes⟩⟩
    · rintro ⟨rest, hlocation, ⟨hentry, hbytes⟩ | ⟨c, hentry, hbytes⟩⟩
      · exact ⟨rest, .folder, ⟨hthere, hentry⟩, hlocation, Or.inl ⟨rfl, hbytes⟩⟩
      · exact ⟨rest, .file c, ⟨hthere, hentry⟩, hlocation, Or.inr ⟨c, rfl, hbytes⟩⟩
  have hnames {e : ArchiveEntry} (he : e ∈ (d.tree folder).map (archiveEntry top)) :
      e.location ≠ [] ∧ ∀ name ∈ e.location, IsName name := by
    obtain ⟨⟨rest, entry⟩, hentry, rfl⟩ := List.mem_map.mp he
    refine ⟨List.cons_ne_nil _ _, fun name hname => ?_⟩
    rcases List.mem_cons.mp hname with rfl | hname
    · exact htop
    · refine hd.isName_of_mem_below (l := folder) (e := (rest, entry)) ?_ hname
      exact mem_below.mpr ⟨List.ne_nil_of_mem hname, (mem_tree.mp hentry).2⟩
  have hordered : ((d.tree folder).map (archiveEntry top)).Pairwise
      fun e e' => Precedes e.location e'.location := by
    rw [List.pairwise_map]
    exact (pairwise_tree d folder).imp fun h => h.cons top
  refine ⟨hordered, hmem, fun e _ => ArchiveEntry.name_of_file,
    fun e _ => ArchiveEntry.name_of_folder, hordered.imp_of_mem fun he he' hprecedes heq => ?_⟩
  exact hprecedes.ne (ArchiveEntry.location_eq_of_name_eq (hnames he).1 (hnames he').1
    (hnames he).2 (hnames he').2 heq)

theorem reachable_eq_none {things reached : List (Location × Entry)}
    (h : reachable folder things = (reached, none)) : reached = things := by
  induction things generalizing reached with
  | nil => exact (Prod.mk.inj h).1.symm
  | cons e rest ih =>
    obtain ⟨location, entry⟩ := e
    simp only [reachable] at h
    split at h
    · obtain ⟨hreached, hfault⟩ := Prod.mk.inj h
      rw [← hreached]
      exact congrArg _ (ih (Prod.ext rfl hfault))
    · split at h
      · cases (Prod.mk.inj h).2
      · cases (Prod.mk.inj h).2

/-- An archive that lies elsewhere has nothing to settle. -/
theorem settleSelf_none (entries : List ArchiveEntry) : settleSelf none entries = entries := by
  have hdrop : entries.dropWhile (fun e => some e.location != none) = [] := by simp
  rw [settleSelf, hdrop]

/-- Writes what is found in a folder into an archive that has been begun. -/
def writeEntries (folder output : Path) : Job Unit := do
  let location ← require (.unreadable folder) fun d =>
    (d.locate? folder).filter fun location => (d.entryAt? location).isSome
  let (things, fault) := reachable folder (← inspect (·.tree location))
  let self ← inspect fun d => (d.locate? output).bind (Text.after? location)
  let entries := settleSelf (self.map (folder.lastStep :: ·))
    (things.map (archiveEntry folder.lastStep))
  change (.unwritable output) (Disk.write? output (.archive entries))
  if let some fault := fault then throw fault

theorem createArchive_eq (folder output : Path) : createArchive folder output = (do
    output.parent?.forM fun parent => advance (.unwritable output) (Disk.makeFolders parent)
    change (.unwritable output) (Disk.write? output (.archive []))
    writeEntries folder output) := by
  unfold createArchive
  cases output.parent? <;> rfl

theorem writeEntries_eq_ok {u : Unit}
    (houtside : ¬ folder.place d.home <+: output.place d.home)
    (h : writeEntries folder output d = (.ok u, d')) :
    d.write? output (.archive ((d.tree (folder.place d.home)).map
      (archiveEntry folder.lastStep))) = some d' := by
  obtain ⟨location, _, hrequire, hrest₁⟩ := bind_eq_ok_iff.mp h
  obtain ⟨hfound, rfl⟩ := require_eq_ok hrequire
  obtain rfl := locate?_eq_some (Option.filter_eq_some_iff.mp hfound).1
  obtain ⟨tree, _, hlook, hrest₂⟩ := bind_eq_ok_iff.mp hrest₁
  obtain ⟨rfl, rfl⟩ := inspect_eq_ok hlook
  rcases hreached : reachable folder (d.tree (folder.place d.home)) with ⟨things, fault?⟩
  simp only [hreached] at hrest₂
  obtain ⟨self, _, hself, hrest₃⟩ := bind_eq_ok_iff.mp hrest₂
  obtain ⟨rfl, rfl⟩ := inspect_eq_ok hself
  obtain ⟨_, _, hwrite, hfault⟩ := bind_eq_ok_iff.mp hrest₃
  have hself : (d.locate? output).bind (Text.after? (folder.place d.home)) = none := by
    rw [Option.eq_none_iff_forall_ne_some]
    intro rest hrest
    obtain ⟨place, hplace, hafter⟩ := Option.bind_eq_some_iff.mp hrest
    rw [locate?_eq_some hplace] at hafter
    refine houtside ?_
    rw [after?_eq_some.mp hafter]
    exact List.prefix_append _ _
  cases fault? with
  | some fault => exact absurd hfault throw_ne_ok
  | none =>
    obtain ⟨_, rfl⟩ := pure_eq_ok_iff.mp hfault
    have hwritten := change_eq_ok hwrite
    rwa [hself, Option.map_none, settleSelf_none, reachable_eq_none hreached] at hwritten

/-- An archive that is written outside of the folder mirrors it. -/
theorem createArchive_eq_ok {u : Unit} (houtput : output.WellFormed) (hd : d.Sound)
    (htop : IsName folder.lastStep) (hfolder : d.isFolderAt (folder.place d.home) = true)
    (houtside : ¬ folder.place d.home <+: output.place d.home)
    (h : createArchive folder output d = (.ok u, d')) :
    d'.isFolderAt (folder.place d.home) = true ∧
      ∃ entries, d'.fileAt? (output.place d.home) = some (.archive entries) ∧
        Mirrors d' (folder.place d.home) folder.lastStep entries := by
  rw [createArchive_eq] at h
  obtain ⟨_, d₁, hparent, hrest⟩ := bind_eq_ok_iff.mp h
  obtain ⟨_, d₂, hbegin, hwrite⟩ := bind_eq_ok_iff.mp hrest
  have hfirst : d₁.home = d.home ∧ d₁.Sound ∧ d₁.isFolderAt (folder.place d.home) = true := by
    cases hparent? : output.parent? with
    | none =>
      rw [hparent?] at hparent
      cases hparent
      exact ⟨rfl, hd, hfolder⟩
    | some parent =>
      rw [hparent?] at hparent
      have hmade := advance_eq_ok hparent
      obtain ⟨hhome, hsound, _⟩ := keeps_makeFolders (P := fun _ => False)
        (wellFormed_of_parent? houtput hparent?) d rfl hd
      have hentry := entryAt?_makeFolders parent d (folder.place d.home)
      rw [hmade] at hhome hsound hentry
      refine ⟨hhome, hsound, ?_⟩
      rcases hentry with hsame | ⟨_, hnew, _⟩
      · rw [isFolderAt, hsame]
        exact hfolder
      · rw [isFolderAt, hnew]
        rfl
  obtain ⟨hhome₁, hd₁, hfolder₁⟩ := hfirst
  have hbegun := change_eq_ok hbegin
  obtain ⟨hhome₂, hd₂, _⟩ := keeps_write? (P := fun _ => False) houtput id hbegun rfl hd₁
  rw [hhome₁] at hhome₂
  have hfolder₂ : d₂.isFolderAt (folder.place d.home) = true := by
    rw [isFolderAt_of_write? hbegun, hfolder₁]
  have hwritten := writeEntries_eq_ok (by rwa [hhome₂]) hwrite
  have hentries := entryAt?_write? hwritten
  rw [hhome₂] at hwritten hentries
  have hmirrors := mirrors_tree hd₂ htop hfolder₂
  refine ⟨by rw [isFolderAt_of_write? hwritten, hfolder₂], _, ?_, hmirrors.congr fun rest => ?_⟩
  · rw [fileAt?_eq_some, hentries, if_pos rfl]
  · rw [hentries, if_neg]
    intro heq
    refine houtside ?_
    rw [← heq]
    exact List.prefix_append _ _

end Package

namespace Compile

open Package Disk

variable {d d' : Disk} {target db : Path}

theorem lastStep_join {name : Text} (hname : IsName name) (p : Path) :
    (p.join name).lastStep = name := by
  rw [Path.lastStep, Path.steps_join p hname, List.getLastD_concat]

/-- Whoever writes into a folder by its path has found the folder. -/
theorem isFolderAt_of_writeRelease {release : Text} {u : Unit} (hstump : db.stump = db.pieces)
    (hne : db.pieces ≠ []) (h : writeRelease db release d = (.ok u, d')) :
    d'.home = d.home ∧ d'.isFolderAt (db.place d.home) = true := by
  have hwrite := change_eq_ok h
  obtain ⟨hlocate, _⟩ := write?_eq_some hwrite
  obtain ⟨_, hfolder, _⟩ := locate?_of_join (by decide) hstump hne hlocate
  exact ⟨(settings_write? hwrite).1, by rw [isFolderAt_of_write? hwrite, hfolder]⟩

theorem isFolderAt_of_finish {made : Moment} {settings : Settings} {u : Unit}
    (htarget : settings.target.WellFormed) (hd : d.Sound)
    (h : finish made settings (settings.target.join "DB") d = (.ok u, d')) :
    d'.home = d.home ∧ d'.Sound ∧
      d'.isFolderAt ((settings.target.join "DB").place d.home) = true := by
  have hname : IsName "DB" := by decide
  have hne : (settings.target.join "DB").pieces ≠ [] := by
    rw [Path.pieces_join _ hname]
    exact List.append_ne_nil_of_right_ne_nil _ (List.cons_ne_nil _ _)
  have hrelease {d₁ : Disk} {u : Unit}
      (h : writeRelease (settings.target.join "DB") settings.release d₁ = (.ok u, d')) :
      d'.isFolderAt ((settings.target.join "DB").place d'.home) = true := by
    obtain ⟨hhome, hfolder⟩ := isFolderAt_of_writeRelease (Path.stump_join _ hname) hne h
    rwa [hhome]
  obtain ⟨hhome, hd'⟩ := sound_of_finish htarget hd h
  refine ⟨hhome, hd', ?_⟩
  rw [← hhome]
  obtain ⟨_, _, _, hrest⟩ := bind_eq_ok_iff.mp h
  cases hshared : settings.shared with
  | none =>
    rw [hshared] at hrest
    exact hrelease hrest
  | some shared =>
    rw [hshared] at hrest
    obtain ⟨_, _, _, hrest⟩ := bind_eq_ok_iff.mp hrest
    exact hrelease hrest

theorem package_of_run {made : Moment} {settings : Settings} {package : Path}
    (h : run made settings d = (.ok package, d')) : package = settings.target.join "DB.zip" := by
  rw [run_eq] at h
  obtain ⟨_, _, _, hrest₁⟩ := bind_eq_ok_iff.mp h
  obtain ⟨_, _, _, hrest₂⟩ := bind_eq_ok_iff.mp hrest₁
  obtain ⟨_, _, _, hrest₃⟩ := bind_eq_ok_iff.mp hrest₂
  obtain ⟨_, _, _, hpure⟩ := bind_eq_ok_iff.mp hrest₃
  exact (pure_eq_ok_iff.mp hpure).1.symm

/-- After a successful compilation the archive next to the package mirrors the package. -/
theorem archive_of_run {made : Moment} {settings : Settings} {package : Path}
    (htarget : settings.target.WellFormed) (hd : d.Sound)
    (h : run made settings d = (.ok package, d')) :
    package = settings.target.join "DB.zip" ∧
      d'.isFolderAt ((settings.target.join "DB").place d.home) = true ∧
      ∃ entries, d'.fileAt? ((settings.target.join "DB.zip").place d.home) =
          some (.archive entries) ∧
        Mirrors d' ((settings.target.join "DB").place d.home) "DB" entries := by
  have hname : IsName "DB" := by decide
  have hzip : IsName "DB.zip" := by decide
  -- Nothing within the package, nor the archive, lies below the staging folder.
  have hbeside {name : Text} {l : Location} (hname : IsName name) (hne : "DB_STAGING" ≠ name)
      (hl : (settings.target.join name).place d.home <+: l) :
      ¬ (settings.target.join "DB_STAGING").place d.home <+: l := fun hstaged =>
    hne (eq_of_places_above isName_staging hname hstaged hl)
  obtain ⟨hhome, hstaged, hfill, hrest⟩ := run_eq_ok htarget hd h
  obtain ⟨hhome', hfilled⟩ := sound_of_fill (htarget.join "DB") hstaged hfill
  rw [hhome] at hhome'
  obtain ⟨_, d₁, hfinish, hpack⟩ := bind_eq_ok_iff.mp hrest
  obtain ⟨hhome₁, hd₁, hfolder⟩ := isFolderAt_of_finish htarget hfilled hfinish
  rw [hhome'] at hhome₁ hfolder
  obtain ⟨_, d₂, harchive, hremove⟩ := bind_eq_ok_iff.mp hpack
  have hremoved := advance_eq_ok hremove
  have hlast := lastStep_join hname settings.target
  have houtside : ¬ (settings.target.join "DB").place d.home <+:
      (settings.target.join "DB.zip").place d.home := fun hbelow =>
    absurd (eq_of_places_above hname hzip hbelow (List.prefix_refl _)) (by decide)
  have hwritten := createArchive_eq_ok (htarget.join "DB.zip") hd₁ (by rwa [hlast])
    (by rwa [hhome₁]) (by rwa [hhome₁]) harchive
  rw [hhome₁, hlast] at hwritten
  obtain ⟨hfolder₂, entries, hentries, hmirrors⟩ := hwritten
  obtain ⟨hhome₂, _⟩ := (keeps_createArchive (P := fun _ => False) (htarget.join "DB.zip")
    id).of_eq_ok hhome₁ hd₁ harchive
  -- Removing the staged descriptions leaves the package and the archive as they are.
  have hkept {name : Text} {l : Location} (hname : IsName name) (hne : "DB_STAGING" ≠ name)
      (hl : (settings.target.join name).place d.home <+: l) :
      d'.entryAt? l = d₂.entryAt? l := by
    have hentry := entryAt?_removeFolder (settings.target.join "DB_STAGING") d₂ l
    rw [hremoved, hhome₂] at hentry
    exact hentry.resolve_right fun hgone => hbeside hname hne hl hgone.1
  refine ⟨package_of_run h, ?_, entries, ?_, hmirrors.congr fun rest => ?_⟩
  · rw [isFolderAt, hkept hname (by decide) (List.prefix_refl _)]
    exact hfolder₂
  · rw [fileAt?_congr (hkept hzip (by decide) (List.prefix_refl _)), hentries]
  · exact hkept hname (by decide) (List.prefix_append _ _)

/-- Besides the dictionary tables there are a table whose name leads out of the target, a package
that is described among the functions, and a folder of tools with a backslash at the end. -/
def strayEntries : List (Location × Entry) :=
  [(["OUTSIDE"], .folder), (["OUTSIDE", "KEEP.SQL"], .file (.text "KEEP")),
   (["common"], .folder), (["common", "TOOLS"], .folder), (["common", "TOOLS", "a\\"], .folder),
   (["source", "FUNCTION"], .folder),
   (["source", "FUNCTION", "P.PKB"], .file (.text "CREATE PACKAGE BODY P")),
   (["source", "FUNCTION", "P.PKS"], .file (.text "CREATE PACKAGE P")),
   (["source", "FUNCTION", "P.SQL"], .file (.text "CREATE FUNCTION P")),
   (["source", "FUNCTION", "P.XML"], .file (.text "<package name='P'/>")),
   (["source", "TABLE", "K.XML"], .file (.text ("<table name='../../../OUTSIDE/KEEP'><columns>" ++
     "<column name='A' data_type='NUMBER'/></columns></table>")))]

def strayDisk : Disk := strayEntries.foldl (fun d e => d.put e.1 e.2) olderDisk

/-- The common folder brings tools. -/
def equipped : Settings :=
  { detour with target := .ofText "target", shared := some (.ofText "common") }

theorem target_equipped : equipped.target.WellFormed := Path.wellFormed_ofText _

theorem sound_strayDisk : strayDisk.Sound := sound_foldl_put sound_olderDisk (by decide +kernel)

/-- The names of the entries that an archive has at a location. -/
def namesAt (l : Location) : Option Content → List Text
  | some (.archive found) => (found.filter (·.location = l)).map ArchiveEntry.name
  | _ => []

/-- The table has its statement outside of the target, the package has been taken for a function,
and the folder of tools is archived as it is called. -/
theorem run_strayDisk :
    ∃ d', run ⟨2026, 1, 1, 4, 0, 0, 0⟩ equipped strayDisk = (.ok (.ofText "target/DB.zip"), d') ∧
      d'.fileAt? ["OUTSIDE", "KEEP.SQL"] =
        some (.text ("CREATE TABLE \"../../../OUTSIDE/KEEP\" (\n\"A\" NUMBER\n)\n" ++
          "ENABLE ROW MOVEMENT TABLESPACE &1;")) ∧
      d'.fileAt? ["target", "DB", "FUNCTION", "P.SQL"] = some (.text "CREATE FUNCTION P") ∧
      d'.fileAt? ["target", "DB", "PACKAGE", "P.PKS"] = none ∧
      d'.isFolderAt ["target", "DB", "TOOLS", "a\\"] = true ∧
      namesAt ["DB", "TOOLS", "a\\"] (d'.fileAt? ["target", "DB.zip"]) =
        [("DB/TOOLS/a\\" : Text)] := by
  have hrun : (run ⟨2026, 1, 1, 4, 0, 0, 0⟩ equipped strayDisk).1 =
        .ok (.ofText "target/DB.zip") ∧
      (run ⟨2026, 1, 1, 4, 0, 0, 0⟩ equipped strayDisk).2.fileAt? ["OUTSIDE", "KEEP.SQL"] =
        some (.text ("CREATE TABLE \"../../../OUTSIDE/KEEP\" (\n\"A\" NUMBER\n)\n" ++
          "ENABLE ROW MOVEMENT TABLESPACE &1;")) ∧
      (run ⟨2026, 1, 1, 4, 0, 0, 0⟩ equipped strayDisk).2.fileAt?
        ["target", "DB", "FUNCTION", "P.SQL"] = some (.text "CREATE FUNCTION P") ∧
      (run ⟨2026, 1, 1, 4, 0, 0, 0⟩ equipped strayDisk).2.fileAt?
        ["target", "DB", "PACKAGE", "P.PKS"] = none ∧
      (run ⟨2026, 1, 1, 4, 0, 0, 0⟩ equipped strayDisk).2.isFolderAt
        ["target", "DB", "TOOLS", "a\\"] = true ∧
      namesAt ["DB", "TOOLS", "a\\"]
        ((run ⟨2026, 1, 1, 4, 0, 0, 0⟩ equipped strayDisk).2.fileAt? ["target", "DB.zip"]) =
        [("DB/TOOLS/a\\" : Text)] := by
    decide +kernel
  obtain ⟨d', hd'⟩ := exists_of_fst_eq hrun.1
  rw [hd'] at hrun
  exact ⟨d', hd', hrun.2⟩

theorem archive_of_strayDisk :
    ∃ d' entries, run ⟨2026, 1, 1, 4, 0, 0, 0⟩ equipped strayDisk =
        (.ok (.ofText "target/DB.zip"), d') ∧
      d'.fileAt? ((equipped.target.join "DB.zip").place strayDisk.home) =
        some (.archive entries) ∧
      Mirrors d' ((equipped.target.join "DB").place strayDisk.home) "DB" entries := by
  obtain ⟨d', hd', _⟩ := run_strayDisk
  obtain ⟨_, _, entries, hentries, hmirrors⟩ := archive_of_run target_equipped sound_strayDisk hd'
  exact ⟨d', entries, hd', hentries, hmirrors⟩

/-- A folder of the package is archived under a name that does not end in a slash. -/
theorem folder_apart :
    ∃ d' entries e, run ⟨2026, 1, 1, 4, 0, 0, 0⟩ equipped strayDisk =
        (.ok (.ofText "target/DB.zip"), d') ∧
      d'.fileAt? ["target", "DB.zip"] = some (.archive entries) ∧
      d'.isFolderAt ["target", "DB", "TOOLS", "a\\"] = true ∧
      e ∈ entries ∧ e.location = ["DB", "TOOLS", "a\\"] ∧ e.name = "DB/TOOLS/a\\" ∧
      ¬ ("/" : Text) <:+ e.name := by
  obtain ⟨d', hd', _, _, _, hfolder, hnames⟩ := run_strayDisk
  have hname : ("DB/TOOLS/a\\" : Text) ∈
      namesAt ["DB", "TOOLS", "a\\"] (d'.fileAt? ["target", "DB.zip"]) := by
    rw [hnames]
    exact List.mem_singleton_self _
  unfold namesAt at hname
  split at hname
  · rename_i found hfound
    obtain ⟨e, he, hname⟩ := List.mem_map.mp hname
    obtain ⟨he, hlocation⟩ := List.mem_filter.mp he
    refine ⟨d', found, e, hd', hfound, hfolder, he, of_decide_eq_true hlocation, hname, ?_⟩
    rw [hname]
    decide
  · exact absurd hname List.not_mem_nil

end Compile
end SchemaPackage
