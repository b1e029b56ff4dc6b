import SchemaPackage.Proofs.Package.Loading
import SchemaPackage.Proofs.Package.ScriptParts
import SchemaPackage.Proofs.Package.TableFiles

/-!
What the script of a finished package installs. The script is made for the files that are seen in
the filled package, and it runs each under what is left of its name in front of the first dot. So a
file is run as a whole only if it has no further dot, and what comes under the same stem is run
again. There is no part for triggers, and nothing brings the staged views into the package.
-/
namespace SchemaPackage

open Job Outcome Text

namespace Compile

open Package Disk InstallScript

variable {home l : Location} {db staging target : Path} {d d' : Disk} {tables : List Table}
  {kind : UnitKind} {t : Table} {p : Part} {folder file base ext : Text}

/-- Parts for the sources of program units. -/
theorem source_of_mem_parts (hp : p ∈ parts) (hkind : p.folder = kind.name) :
    p.tail = [] ∧ p.ext.length = 3 := by
  have hall : ∀ p ∈ parts, ∀ kind ∈ UnitKind.all, p.folder = kind.name →
      p.tail = [] ∧ p.ext.length = 3 := by
    decide
  exact hall p hp kind (UnitKind.mem_all kind) hkind

/-- When a line runs a source file as a whole: if it is made for a file with its stem, in the
folder of its kind and by the part for its extension. -/
theorem line_eq_runLine_iff (hp : p ∈ parts) (hext : ext ∈ kind.extensions) :
    p.line file = runLine kind.name (base ++ "." ++ ext) ↔
      (p.folder = kind.name ∧ p.ext = ext) ∧ stem file = base ∧ '\n' ∉ base := by
  have hsource : runLine kind.name (base ++ "." ++ ext) =
      mark ++ kind.name ++ "/" ++ (base ++ "." ++ ext ++ "\"") := by
    rw [runLine]
    simp only [List.append_assoc]
  constructor
  · intro h
    rw [hsource, Part.line_eq_append_iff hp (isName_unitKind kind).no_slash] at h
    obtain ⟨hfolder, hname⟩ := h
    obtain ⟨htail, hlength⟩ := source_of_mem_parts hp hfolder
    by_cases hline : '\n' ∈ stem file
    · -- What is left of such a name has no dot.
      rw [firstLine, Part.target, List.append_assoc, List.append_assoc, List.append_assoc,
        takeWhile_append_of_mem hline] at hname
      have hdot : '.' ∈ base ++ "." ++ ext ++ "\"" := by simp
      rw [← hname] at hdot
      exact absurd ((List.takeWhile_sublist _).subset hdot) (dot_notMem_stem file)
    · have hplain : '\n' ∉ p.target file ++ "\"" ++ p.tail := by
        obtain ⟨_, hext, htail⟩ := newline_notMem_of_mem_parts hp
        simp only [Part.target, List.mem_append, hline, hext, htail, or_false, not_or]
        decide
      rw [firstLine, takeWhile_of_notMem hplain, htail, List.append_nil] at hname
      obtain ⟨hstem, hsame⟩ := List.append_inj' (List.append_cancel_right hname)
        (hlength.trans (length_of_mem_extensions hext).1.symm)
      obtain rfl := List.append_cancel_right hstem
      exact ⟨⟨hfolder, hsame⟩, rfl, hline⟩
  · rintro ⟨⟨hfolder, rfl⟩, rfl, hline⟩
    rw [Part.line_of_notMem hp hline, hfolder, (source_of_mem_parts hp hfolder).1, List.append_nil,
      Part.target]

/-- The part that runs the sources of a kind with an extension. -/
def sourcePart (kind : UnitKind) (ext : Text) : Part where
  folder := kind.name
  ext := ext
  tail := []
  keep := match kind with
    | .package => endsWith ("." ++ ext)
    | _ => fun _ => true

/-- All kinds but triggers have one part for each of their extensions. -/
theorem exists_sourcePart (hkind : kind ≠ .trigger) (hext : ext ∈ kind.extensions) :
    ∃ others, parts.Perm (sourcePart kind ext :: others) ∧
      ∀ q ∈ others, ¬ (q.folder = kind.name ∧ q.ext = ext) := by
  have hat (n : Nat) (hn : parts = parts.take n ++ sourcePart kind ext :: parts.drop (n + 1))
      (hother : ∀ q ∈ parts.take n ++ parts.drop (n + 1), ¬ (q.folder = kind.name ∧ q.ext = ext)) :
      ∃ others, parts.Perm (sourcePart kind ext :: others) ∧
        ∀ q ∈ others, ¬ (q.folder = kind.name ∧ q.ext = ext) := by
    have hperm := (List.Perm.of_eq hn).trans List.perm_middle
    exact ⟨_, hperm, hother⟩
  cases kind with
  | package =>
    rcases List.mem_cons.mp hext with rfl | hext
    · exact hat 5 rfl (by decide)
    · obtain rfl := List.mem_singleton.mp hext
      exact hat 7 rfl (by decide)
  | procedure =>
    obtain rfl := List.mem_singleton.mp hext
    exact hat 4 rfl (by decide)
  | function =>
    obtain rfl := List.mem_singleton.mp hext
    exact hat 3 rfl (by decide)
  | type =>
    obtain rfl := List.mem_singleton.mp hext
    exact hat 0 rfl (by decide)
  | trigger => exact absurd rfl hkind
  | sequence =>
    obtain rfl := List.mem_singleton.mp hext
    exact hat 2 rfl (by decide)

/-- A part keeps all files of a folder that holds statements, and otherwise those with its own
extension. -/
theorem ext_of_kept (hp : p ∈ parts) (hkept : p.keep file = true) :
    p.ext = "SQL" ∨ ∃ base, file = base ++ "." ++ p.ext := by
  have hends {ext : Text} (h : endsWith ("." ++ ext) file = true) :
      ∃ base, file = base ++ "." ++ ext := by
    obtain ⟨base, rfl⟩ := endsWith_iff.mp h
    exact ⟨base, (List.append_assoc base _ ext).symm⟩
  simp only [parts, earlyParts, List.cons_append, List.nil_append, List.mem_cons,
    List.not_mem_nil, or_false] at hp
  rcases hp with rfl | rfl | rfl | rfl | rfl | rfl | rfl | rfl | rfl
  · exact Or.inl rfl
  · exact Or.inl rfl
  · exact Or.inl rfl
  · exact Or.inl rfl
  · exact Or.inl rfl
  · exact Or.inr (hends hkept)
  · exact Or.inl rfl
  · exact Or.inr (hends hkept)
  · exact Or.inr (hends hkept)

/-- A file directly in a folder of the package. -/
def HasFile (home : Location) (db : Path) (d : Disk) (folder file : Text) : Prop :=
  ∃ c, d.fileAt? (filePlace home db folder file) = some c

/-- The file that a part runs for a file is there, unless the name was cut at a dot in front of the
extension. -/
def Reaches (home : Location) (db : Path) (d : Disk) (p : Part) (file : Text) : Prop :=
  HasFile home db d p.folder (p.target file) ∨
    ∃ base, '.' ∈ base ∧ HasFile home db d p.folder (base ++ "." ++ p.ext) ∧
      p.target file = stem base ++ "." ++ p.ext

theorem reaches_of_hasFile (h : HasFile home db d p.folder (base ++ "." ++ p.ext))
    (hstem : stem file = stem base) : Reaches home db d p file := by
  have htarget : p.target file = stem base ++ "." ++ p.ext := by
    rw [Part.target, hstem]
  by_cases hbase : '.' ∈ base
  · exact Or.inr ⟨base, hbase, h, htarget⟩
  · rw [← stem_of_notMem hbase, ← htarget] at h
    exact Or.inl h

/-- A file that is kept is reached if there is a file of statements with its stem. -/
theorem reaches_of_kept (hp : p ∈ parts) (hkept : p.keep file = true)
    (hfile : HasFile home db d p.folder file)
    (h : p.ext = "SQL" → ∃ base, HasFile home db d p.folder (base ++ "." ++ p.ext) ∧
      stem file = stem base) : Reaches home db d p file := by
  rcases ext_of_kept hp hkept with hext | ⟨base, rfl⟩
  · obtain ⟨base, hbase, hstem⟩ := h hext
    exact reaches_of_hasFile hbase hstem
  · exact reaches_of_hasFile hfile (stem_append_dot base p.ext)

theorem hasFile_of_mem_seen (hfolder : IsName folder) (h : file ∈ d.seen (db.join folder)) :
    HasFile d.home db d folder file := by
  obtain ⟨_, _, hfile⟩ := mem_seen.mp h
  rw [Path.place_join hfolder, List.append_assoc] at hfile
  exact hfile

/-- The sources of program units are seen in a filled package. -/
theorem Stocked.mem_seen_source (h : Stocked home db staging tables d d') (hd : d.Sound)
    (hhas : HasSources d staging kind base) (hext : ext ∈ kind.extensions) :
    base ++ "." ++ ext ∈ d'.seen (db.join kind.name) := by
  obtain ⟨c, hc⟩ := h.sources kind base hhas ext hext
  have hkind := isName_unitKind kind
  refine mem_seen_of_content? (isName_source (hhas.no_slash hd) hext) (Path.stump_join db hkind)
    ?_ hc
  rw [Path.pieces_join db hkind]
  exact List.append_ne_nil_of_right_ne_nil _ (List.cons_ne_nil _ _)

theorem Stocked.hasFile_of_isSource (h : Stocked home db staging tables d d')
    (hhome : d'.home = home) (hd : d.Sound)
    (hsource : IsSource home db staging d (filePlace home db folder file)) :
    HasFile home db d' folder file := by
  obtain ⟨kind, base, ext, hhas, hext, hplace⟩ := hsource
  obtain ⟨rfl, rfl⟩ := filePlace_inj hplace
  have hfile := hasFile_of_mem_seen (isName_unitKind kind) (h.mem_seen_source hd hhas hext)
  rwa [hhome] at hfile

/-- What tables have for a place is there, even if a source file has come instead. -/
theorem Stocked.hasFile_of_mem {text : Text} (h : Stocked home db staging tables d d')
    (hhome : d'.home = home) (hd : d.Sound) (ht : t ∈ tables)
    (hmem : (filePlace home db folder file, text) ∈ tableFiles home db t) :
    HasFile home db d' folder file := by
  by_cases hsource : IsSource home db staging d (filePlace home db folder file)
  · exact h.hasFile_of_isSource hhome hd hsource
  · cases hlast : lastAt? (filePlace home db folder file) (tables.flatMap (tableFiles home db)) with
    | some text => exact ⟨_, h.fileAt?_of_lastAt? hsource hlast⟩
    | none =>
      rw [lastAt?_eq_none_iff] at hlast
      exact absurd (List.mem_flatMap.mpr ⟨t, ht, hmem⟩) (hlast text)

/-- Where a file of a filled package comes from. -/
theorem Stocked.origin (h : Stocked home db staging tables d d') (hfolder : folder ≠ "INIT_TABLE")
    (hfile : HasFile home db d' folder file) :
    IsSource home db staging d (filePlace home db folder file) ∨
      (∃ t ∈ tables, ∃ text, (filePlace home db folder file, text) ∈ tableFiles home db t) ∨
        HasFile home db d folder file := by
  by_cases hsource : IsSource home db staging d (filePlace home db folder file)
  · exact Or.inl hsource
  · obtain ⟨c, hc⟩ := hfile
    rw [h.fileAt?_filePlace hfolder hsource] at hc
    cases hlast : lastAt? (filePlace home db folder file) (tables.flatMap (tableFiles home db)) with
    | some text =>
      obtain ⟨t, ht, hmem⟩ := List.mem_flatMap.mp (mem_of_lastAt?_eq_some hlast)
      exact Or.inr (Or.inl ⟨t, ht, text, hmem⟩)
    | none =>
      rw [hlast] at hc
      exact Or.inr (Or.inr ⟨c, hc⟩)

/-- A table that has a file in a folder of the package, other than that of the records, has a file
of statements there with the same stem. -/
theorem exists_statements {text : Text} (hfolder : folder ≠ "INIT_TABLE")
    (hmem : (filePlace home db folder file, text) ∈ tableFiles home db t) :
    ∃ base text, (filePlace home db folder (base ++ "." ++ "SQL"), text) ∈ tableFiles home db t ∧
      stem file = stem base := by
  have hSQL : (".SQL" : Text) = "." ++ "SQL" := rfl
  have hplace (file : Text) :
      filePlace home db folder file = (db.place home ++ [folder]) ++ [file] := by
    rw [filePlace, List.append_assoc]
    rfl
  have hsame {ext : Text} (hext : 2 < ext.length ∧ '/' ∉ ext)
      (h : filePlace home db folder file = ((db.join "TABLE").join (t.name ++ ext)).place home) :
      ∃ base, file = base ++ ext := by
    obtain ⟨above, base, habove⟩ := Path.exists_place_join_append home (db.join "TABLE") t.name hext
    rw [habove, hplace] at h
    exact ⟨base, List.singleton_inj.mp (List.append_inj' h rfl).2⟩
  rcases mem_tableFiles_iff.mp hmem with ⟨hstatement, _⟩ | ⟨_, hindex, _⟩ | ⟨_, hcontrol⟩
  · obtain ⟨base, rfl⟩ := hsame (by decide) hstatement
    rw [hSQL, ← List.append_assoc] at hmem ⊢
    exact ⟨base, text, hmem, stem_append_dot base _⟩
  · obtain ⟨base, rfl⟩ := hsame (by decide) hindex
    have hIDX : (".IDX.SQL" : Text) = ".IDX" ++ "." ++ "SQL" := rfl
    rw [hIDX, ← List.append_assoc, ← List.append_assoc] at hmem ⊢
    exact ⟨base ++ ".IDX", text, hmem, stem_append_dot _ _⟩
  · obtain ⟨base, rfl, hbeside⟩ := Path.place_join_beside (by decide : IsName "INIT_TABLE")
      (by decide : IsName "TABLE") (by decide) (by decide : 2 < (".SQL" : Text).length ∧ _)
      hcontrol.symm hfolder
    have hCTL : (".CTL" : Text) = "." ++ "CTL" := rfl
    refine ⟨base, t.statement, mem_tableFiles_iff.mpr (Or.inl ⟨?_, rfl⟩), ?_⟩
    · rw [List.append_assoc]
      exact hbeside.symm
    · rw [hCTL, ← List.append_assoc, stem_append_dot]

/-- What a part keeps in a filled package is reached, unless it was there before. -/
theorem Stocked.reaches (h : Stocked home db staging tables d d') (hhome : d'.home = home)
    (hd : d.Sound) (hp : p ∈ parts) (hkept : p.keep file = true)
    (hfile : HasFile home db d' p.folder file) :
    Reaches home db d' p file ∨ HasFile home db d p.folder file := by
  obtain ⟨_, _, hfolder⟩ := folder_of_mem_parts hp
  rcases h.origin hfolder hfile with hsource | ⟨t, ht, text, hmem⟩ | hleft
  · refine Or.inl (reaches_of_kept hp hkept hfile fun hext => ?_)
    obtain ⟨kind, base, ext, hhas, hmem, hplace⟩ := hsource
    obtain ⟨hkind, rfl⟩ := filePlace_inj hplace
    have hall : ∀ p ∈ parts, ∀ kind ∈ UnitKind.all, p.folder = kind.name → p.ext = "SQL" →
        kind.extensions = [p.ext] := by
      decide
    rw [hall p hp kind (UnitKind.mem_all kind) hkind hext, List.mem_singleton] at hmem
    subst hmem
    exact ⟨base, hfile, stem_append_dot base _⟩
  · refine Or.inl (reaches_of_kept hp hkept hfile fun hext => ?_)
    obtain ⟨base, text, hstatements, hstem⟩ := exists_statements hfolder hmem
    rw [hext]
    exact ⟨base, h.hasFile_of_mem hhome hd ht hstatements, hstem⟩
  · exact Or.inr hleft

/-- The lines of a script that run files of a folder that are seen. -/
def fileRuns (db : Path) (d : Disk) : List Text :=
  parts.flatMap (Part.lines fun folder => d.seen (db.join folder))

theorem mem_fileRuns {line : Text} : line ∈ fileRuns db d ↔
    ∃ p ∈ parts, ∃ file ∈ d.seen (db.join p.folder), p.keep file = true ∧ p.line file = line := by
  simp only [fileRuns, List.mem_flatMap, Part.lines, List.mem_map, List.mem_filter, and_assoc]

/-- The script runs the files that are seen in the filled package, and what the note of the release
says. -/
theorem perm_runLines_madeScript {made : Moment} {settings : Settings}
    (hd : (filledDisk settings d).Sound) :
    (runLines (madeScript made settings d)).Perm
      (runLines (releaseInserts settings.release) ++
        fileRuns (settings.target.join "DB") (filledDisk settings d)) := by
  have hmade : madeScript made settings d = render made settings.release
      (fun folder => (filledDisk settings d).seen ((settings.target.join "DB").join folder)) := rfl
  rw [hmade, fileRuns]
  exact perm_runLines_render made settings.release fun _ _ hfile =>
    (hd.isName_of_mem_seen hfile).no_slash

/-- How a line comes to run a file. The file is there, unless its name was cut at a dot, or the line
is for a file that was there before. A line break in a name cuts the line. -/
structure RunsFor (home : Location) (db : Path) (staged d' : Disk) (p : Part) (file line : Text) :
    Prop where
  there : HasFile home db d' p.folder file
  kept : p.keep file = true
  line_eq : line = firstLine (runLine p.folder (p.target file) ++ p.tail)
  whole : '\n' ∉ file → line = runLine p.folder (p.target file) ++ p.tail
  target : HasFile home db d' p.folder (p.target file) ∨
    (∃ base, '.' ∈ base ∧ HasFile home db d' p.folder (base ++ "." ++ p.ext) ∧
      p.target file = stem base ++ "." ++ p.ext) ∨
    HasFile home db staged p.folder file

/-- What a successful compilation leaves in the folders that the script runs files of. -/
theorem hasFile_iff_of_run {made : Moment} {settings : Settings} {package : Path}
    (htarget : settings.target.WellFormed) (hd : d.Sound) (hfolder : folder ≠ "TOOLS")
    (h : run made settings d = (.ok package, d')) (file : Text) :
    HasFile d.home (settings.target.join "DB") d' folder file ↔
      HasFile d.home (settings.target.join "DB") (filledDisk settings d) folder file := by
  obtain ⟨_, _, _, hfiles⟩ := Stocked.of_run htarget hd h
  rw [HasFile, hfiles _ (isLasting_filePlace hfolder), HasFile]

theorem filledDisk_of_run {made : Moment} {settings : Settings} {package : Path}
    (htarget : settings.target.WellFormed) (hd : d.Sound)
    (h : run made settings d = (.ok package, d')) :
    (stagedDisk settings d).Sound ∧ (filledDisk settings d).home = d.home ∧
      (filledDisk settings d).Sound := by
  obtain ⟨hhome, hstaged, hfill, _⟩ := run_eq_ok htarget hd h
  obtain ⟨hhome', hd'⟩ := sound_of_fill (htarget.join "DB") hstaged hfill
  exact ⟨hstaged, hhome'.trans hhome, hd'⟩

/-- After a successful compilation every line of the script that runs a file, apart from those that
the note of the release brings, is made for a file that is there. The file that the line runs is
there too, unless a name was cut at a dot in front of the extension, a line break cuts the line, or
the line is for a file that was there before. -/
theorem runLines_of_run {made : Moment} {settings : Settings} {package : Path}
    (htarget : settings.target.WellFormed) (hd : d.Sound)
    (h : run made settings d = (.ok package, d')) :
    (NoSharedScript settings (filledDisk settings d) (settings.target.join "DB") →
      d'.fileAt? (scriptPlace d.home (settings.target.join "DB")) =
        some (.text (madeScript made settings d))) ∧
    ∀ line ∈ runLines (madeScript made settings d),
      line ∈ runLines (releaseInserts settings.release) ∨
        ∃ p ∈ parts, ∃ file, RunsFor d.home (settings.target.join "DB") (stagedDisk settings d) d'
          p file line := by
  obtain ⟨tables, _, hstocked, hfiles⟩ := Stocked.of_run htarget hd h
  obtain ⟨hstaged, hhome, hfilled⟩ := filledDisk_of_run htarget hd h
  refine ⟨fun hshared => madeScript_of_run htarget hd hshared h, fun line hline => ?_⟩
  rw [(perm_runLines_madeScript hfilled).mem_iff, List.mem_append, mem_fileRuns] at hline
  refine hline.imp_right ?_
  rintro ⟨p, hp, file, hseen, hkept, rfl⟩
  obtain ⟨hname, htools, _⟩ := folder_of_mem_parts hp
  have hstays (file : Text) : HasFile d.home (settings.target.join "DB") d' p.folder file ↔
      HasFile d.home (settings.target.join "DB") (filledDisk settings d) p.folder file :=
    hasFile_iff_of_run htarget hd htools h file
  have hfile := hasFile_of_mem_seen hname hseen
  rw [hhome] at hfile
  refine ⟨p, hp, file, (hstays file).mpr hfile, hkept, rfl, fun hbreak => ?_, ?_⟩
  · exact Part.line_of_notMem hp fun hmem => hbreak ((List.takeWhile_sublist _).subset hmem)
  · simp only [hstays]
    rcases hstocked.reaches hhome hstaged hp hkept hfile with hreaches | hleft
    · exact hreaches.imp_right Or.inl
    · exact Or.inr (Or.inr hleft)

theorem target_straight : straight.target.WellFormed := Path.wellFormed_ofText _

/-- The note of a short release brings no lines. -/
theorem notMem_releaseInserts_straight (line : Text) :
    line ∉ runLines (releaseInserts straight.release) := by
  rw [runLines_releaseInserts (by decide)]
  exact List.not_mem_nil

theorem runLines_of_crowdedDisk :
    ∃ d', run ⟨2026, 1, 1, 4, 0, 0, 0⟩ straight crowdedDisk = (.ok (.ofText "target/DB.zip"), d') ∧
      d'.fileAt? (scriptPlace crowdedDisk.home (straight.target.join "DB")) =
        some (.text (madeScript ⟨2026, 1, 1, 4, 0, 0, 0⟩ straight crowdedDisk)) ∧
      ∀ line ∈ runLines (madeScript ⟨2026, 1, 1, 4, 0, 0, 0⟩ straight crowdedDisk),
        ∃ p ∈ parts, ∃ file, RunsFor crowdedDisk.home (straight.target.join "DB")
          (stagedDisk straight crowdedDisk) d' p file line := by
  obtain ⟨d', hd', _⟩ := run_crowdedDisk
  obtain ⟨hscript, hlines⟩ := runLines_of_run target_straight sound_crowdedDisk hd'
  refine ⟨d', hd', hscript (noSharedScript_of_none rfl), fun line hline => ?_⟩
  exact (hlines line hline).resolve_left (notMem_releaseInserts_straight line)

/-- What a staged file says about a unit can be told by reading it. -/
theorem exists_describesUnit {name : Text} {source : Path}
    (h : (d.text? (source.join name)).map (fun text =>
      (Description.parseUnit (source.join name) text).map Option.isSome) = some (.ok true)) :
    ∃ u, DescribesUnit d source name (some u) := by
  obtain ⟨text, hread, hparse⟩ := Option.map_eq_some_iff.mp h
  obtain ⟨u?, hunit, hsome⟩ := except_map_eq_ok_iff.mp hparse
  obtain ⟨u, rfl⟩ := Option.isSome_iff_exists.mp hsome
  exact ⟨u, text, hread, hunit⟩

/-- The program units of the crowded package. -/
def crowdedUnits : List (UnitKind × Text) := [(.procedure, "Q"), (.trigger, "R"), (.type, "A.B")]

theorem hasSources_crowdedDisk (h : (kind, base) ∈ crowdedUnits) :
    HasSources (stagedDisk straight crowdedDisk) (straight.target.join "DB_STAGING") kind base := by
  have hall : ∀ unit ∈ crowdedUnits,
      let source : Path := (straight.target.join "DB_STAGING").join unit.1.name
      unit.2 ++ ".XML" ∈ (stagedDisk straight crowdedDisk).descriptions source ∧
        extension? (unit.2 ++ ".XML") = some (unit.2, ("XML" : Text)) ∧ unit.2 ≠ "." ∧
        ((stagedDisk straight crowdedDisk).text? (source.join (unit.2 ++ ".XML"))).map
          (fun text => (Description.parseUnit (source.join (unit.2 ++ ".XML")) text).map
            Option.isSome) = some (.ok true) := by
    decide +kernel
  obtain ⟨hname, hext, hdot, hparse⟩ := hall (kind, base) h
  exact ⟨_, hname, ⟨_, hext⟩, hdot, exists_describesUnit hparse⟩

/-- The script runs a type that is not there, because the file of it has a dot in its name. -/
theorem runLine_apart :
    ∃ d' script, run ⟨2026, 1, 1, 4, 0, 0, 0⟩ straight crowdedDisk =
        (.ok (.ofText "target/DB.zip"), d') ∧
      d'.fileAt? (scriptPlace crowdedDisk.home (straight.target.join "DB")) =
        some (.text script) ∧
      runLine "TYPE" "A.SQL" ∈ runLines script ∧
      ¬ HasFile crowdedDisk.home (straight.target.join "DB") d' "TYPE" "A.SQL" := by
  obtain ⟨d', hd', _, _, htype, _⟩ := run_crowdedDisk
  obtain ⟨_, _, hstocked, _⟩ := Stocked.of_run target_straight sound_crowdedDisk hd'
  obtain ⟨hstaged, _, hfilled⟩ := filledDisk_of_run target_straight sound_crowdedDisk hd'
  have hsources : HasSources _ _ .type "A.B" := hasSources_crowdedDisk (by decide)
  have hseen := hstocked.mem_seen_source hstaged hsources (List.mem_singleton_self _)
  refine ⟨d', _, hd',
    madeScript_of_run target_straight sound_crowdedDisk (noSharedScript_of_none rfl) hd', ?_, ?_⟩
  · rw [(perm_runLines_madeScript hfilled).mem_iff, List.mem_append, mem_fileRuns]
    exact Or.inr ⟨statementsPart "TYPE", List.mem_cons_self, _, hseen, rfl, by decide⟩
  · rintro ⟨c, hc⟩
    rw [htype] at hc
    cases hc

/-- In a list without repetitions, what holds of one member holds of it alone if it is counted
once. -/
theorem countP_eq_one_iff {α : Type} {list : List α} {P : α → Bool} {a : α} (hlist : list.Nodup)
    (ha : a ∈ list) (hP : P a = true) :
    list.countP P = 1 ↔ ∀ b ∈ list, P b = true → b = a := by
  obtain ⟨before, after, rfl⟩ := List.append_of_mem ha
  obtain ⟨_, hnodup, hapart⟩ := List.nodup_append.mp hlist
  have hbefore : a ∉ before := fun hmem => hapart a hmem a List.mem_cons_self rfl
  have hafter : a ∉ after := (List.nodup_cons.mp hnodup).1
  rw [List.countP_append, List.countP_cons_of_pos hP]
  constructor
  · intro hone b hb hPb
    have hnone : before.countP P = 0 ∧ after.countP P = 0 := by omega
    rw [List.countP_eq_zero, List.countP_eq_zero] at hnone
    rcases List.mem_append.mp hb with hb | hb
    · exact absurd hPb (hnone.1 b hb)
    · rcases List.mem_cons.mp hb with rfl | hb
      · rfl
      · exact absurd hPb (hnone.2 b hb)
  · intro honly
    have hnone {b : α} (hb : b ∈ before ++ a :: after) (hne : b ≠ a) : ¬ P b = true :=
      fun hPb => hne (honly b hb hPb)
    have hzero : before.countP P = 0 ∧ after.countP P = 0 := by
      rw [List.countP_eq_zero, List.countP_eq_zero]
      constructor
      · intro b hb
        exact hnone (List.mem_append_left _ hb) fun heq => hbefore (heq ▸ hb)
      · intro b hb
        exact hnone (List.mem_append_right _ (List.mem_cons_of_mem a hb)) fun heq =>
          hafter (heq ▸ hb)
    omega

/-- The line that runs a source file stands in the script as often as the part for it makes it. -/
theorem count_fileRuns (hkind : kind ≠ .trigger) (hext : ext ∈ kind.extensions)
    (hbase : '\n' ∉ base) :
    (fileRuns db d).count (runLine kind.name (base ++ "." ++ ext)) =
      (d.seen (db.join kind.name)).countP fun file =>
        (sourcePart kind ext).keep file && stem file == base := by
  obtain ⟨others, hparts, hother⟩ := exists_sourcePart hkind hext
  have hmem : sourcePart kind ext ∈ parts := hparts.mem_iff.mpr List.mem_cons_self
  have hnone : (others.flatMap (Part.lines fun folder => d.seen (db.join folder))).count
      (runLine kind.name (base ++ "." ++ ext)) = 0 := by
    rw [List.count_eq_zero, List.mem_flatMap]
    rintro ⟨q, hq, hline⟩
    obtain ⟨file, _, hline⟩ := List.mem_map.mp hline
    have hq' : q ∈ parts := hparts.mem_iff.mpr (List.mem_cons_of_mem _ hq)
    exact hother q hq ((line_eq_runLine_iff hq' hext).mp hline).1
  have hline (file : Text) : (sourcePart kind ext).line file =
      runLine kind.name (base ++ "." ++ ext) ↔ stem file = base := by
    rw [line_eq_runLine_iff hmem hext]
    exact ⟨fun h => h.2.1, fun h => ⟨⟨rfl, rfl⟩, h, hbase⟩⟩
  rw [fileRuns, (hparts.flatMap_right _).count_eq, List.flatMap_cons, List.count_append, hnone,
    Nat.add_zero, Part.lines, List.count, List.countP_map, List.countP_filter]
  refine List.countP_congr fun file _ => ?_
  rw [Function.comp_apply, Bool.and_eq_true, Bool.and_eq_true, beq_iff_eq, beq_iff_eq, hline,
    and_comm]

/-- How a source file of a unit is run by the lines of a script. It is run as a whole unless it is
the source of a trigger or has a dot or a line break in its name, and then only once if no other
file that is kept with it has the same stem. -/
structure RunsSource (home : Location) (db : Path) (d' : Disk) (lines : List Text)
    (kind : UnitKind) (base ext : Text) : Prop where
  run_iff : runLine kind.name (base ++ "." ++ ext) ∈ lines ↔
    kind ≠ .trigger ∧ '.' ∉ base ∧ '\n' ∉ base
  once_iff : runLine kind.name (base ++ "." ++ ext) ∈ lines →
    (lines.count (runLine kind.name (base ++ "." ++ ext)) = 1 ↔
      ∀ file, HasFile home db d' kind.name file →
        ((db.join kind.name).join file).isUsable = true →
        (sourcePart kind ext).keep file = true → stem file = base → file = base ++ "." ++ ext)

theorem runsSource_fileRuns (hmem : base ++ "." ++ ext ∈ d.seen (db.join kind.name))
    (hext : ext ∈ kind.extensions) : RunsSource d.home db d (fileRuns db d) kind base ext := by
  have hkind := isName_unitKind kind
  have hkeep : (sourcePart kind ext).keep (base ++ "." ++ ext) = true := by
    cases kind with
    | package =>
      refine endsWith_iff.mpr ?_
      rw [List.append_assoc]
      exact List.suffix_append base _
    | _ => rfl
  have hrun : runLine kind.name (base ++ "." ++ ext) ∈ fileRuns db d ↔
      kind ≠ .trigger ∧ '.' ∉ base ∧ '\n' ∉ base := by
    rw [mem_fileRuns]
    constructor
    · rintro ⟨p, hp, file, _, _, hline⟩
      obtain ⟨⟨hfolder, _⟩, rfl, hbreak⟩ := (line_eq_runLine_iff hp hext).mp hline
      refine ⟨?_, dot_notMem_stem file, hbreak⟩
      rintro rfl
      have hall : ∀ p ∈ parts, p.folder ≠ UnitKind.trigger.name := by decide
      exact hall p hp hfolder
    · rintro ⟨htrigger, hdot, hbreak⟩
      obtain ⟨others, hparts, _⟩ := exists_sourcePart htrigger hext
      have hp : sourcePart kind ext ∈ parts := hparts.mem_iff.mpr List.mem_cons_self
      refine ⟨sourcePart kind ext, hp, _, hmem, hkeep, ?_⟩
      refine (line_eq_runLine_iff hp hext).mpr ⟨⟨rfl, rfl⟩, ?_, hbreak⟩
      rw [stem_append_dot, stem_of_notMem hdot]
  refine ⟨hrun, fun hline => ?_⟩
  obtain ⟨htrigger, hdot, hbreak⟩ := hrun.mp hline
  have hself : ((sourcePart kind ext).keep (base ++ "." ++ ext) &&
      stem (base ++ "." ++ ext) == base) = true := by
    rw [hkeep, stem_append_dot, stem_of_notMem hdot]
    exact beq_self_eq_true base
  rw [count_fileRuns htrigger hext hbreak, countP_eq_one_iff (nodup_seen d _) hmem hself]
  have hisFolder : d.isFolder (db.join kind.name) = true := (mem_seen.mp hmem).2.1
  simp only [mem_seen, hisFolder, true_and, Path.place_join hkind, Bool.and_eq_true, beq_iff_eq]
  constructor
  · intro honly file hfile husable hkeep hstem
    refine honly file ⟨husable, ?_⟩ ⟨hkeep, hstem⟩
    rw [List.append_assoc]
    exact hfile
  · rintro honly file ⟨husable, hfile⟩ ⟨hkeep, hstem⟩
    rw [List.append_assoc] at hfile
    exact honly file hfile husable hkeep hstem

/-- Further lines that run other files change nothing. -/
theorem RunsSource.of_perm {lines lines' more : List Text}
    (h : RunsSource home db d lines kind base ext) (hlines : lines'.Perm (more ++ lines))
    (hmore : runLine kind.name (base ++ "." ++ ext) ∉ more) :
    RunsSource home db d lines' kind base ext := by
  have hmem : runLine kind.name (base ++ "." ++ ext) ∈ lines' ↔
      runLine kind.name (base ++ "." ++ ext) ∈ lines := by
    rw [hlines.mem_iff, List.mem_append]
    exact or_iff_right hmore
  constructor
  · rw [hmem]
    exact h.run_iff
  · rw [hmem, hlines.count_eq, List.count_append, List.count_eq_zero.mpr hmore, Nat.zero_add]
    exact h.once_iff

/-- The script of a filled package runs the sources that are seen in it. -/
theorem runsSource_madeScript (made : Moment) {settings : Settings}
    (hfilled : (filledDisk settings d).Sound) (hext : ext ∈ kind.extensions)
    (hseen : base ++ "." ++ ext ∈
      (filledDisk settings d).seen ((settings.target.join "DB").join kind.name))
    (hmore : runLine kind.name (base ++ "." ++ ext) ∉
      runLines (releaseInserts settings.release)) :
    RunsSource (filledDisk settings d).home (settings.target.join "DB") (filledDisk settings d)
      (runLines (madeScript made settings d)) kind base ext :=
  (runsSource_fileRuns hseen hext).of_perm (perm_runLines_madeScript hfilled) hmore

/-- After a successful compilation the source files of every described unit are in the package. The
script runs each of them by a line of its own, except for those of triggers and those with a dot or
a line break in their names, which it does not run; and it runs it once, unless there are other
files with the same stem. -/
theorem sources_of_run {made : Moment} {settings : Settings} {package : Path}
    (htarget : settings.target.WellFormed) (hd : d.Sound)
    (h : run made settings d = (.ok package, d')) :
    (NoSharedScript settings (filledDisk settings d) (settings.target.join "DB") →
      d'.fileAt? (scriptPlace d.home (settings.target.join "DB")) =
        some (.text (madeScript made settings d))) ∧
    ∀ kind base, HasSources (stagedDisk settings d) (settings.target.join "DB_STAGING") kind base →
      ∀ ext ∈ kind.extensions,
        HasFile d.home (settings.target.join "DB") d' kind.name (base ++ "." ++ ext) ∧
        (runLine kind.name (base ++ "." ++ ext) ∉ runLines (releaseInserts settings.release) →
          RunsSource d.home (settings.target.join "DB") d' (runLines (madeScript made settings d))
            kind base ext) := by
  obtain ⟨tables, _, hstocked, _⟩ := Stocked.of_run htarget hd h
  obtain ⟨hstaged, hhome, hfilled⟩ := filledDisk_of_run htarget hd h
  refine ⟨fun hshared => madeScript_of_run htarget hd hshared h, ?_⟩
  intro kind base hhas ext hext
  have hseen := hstocked.mem_seen_source hstaged hhas hext
  have hfile := hasFile_of_mem_seen (isName_unitKind kind) hseen
  rw [hhome] at hfile
  have htools : kind.name ≠ "TOOLS" := by cases kind <;> decide
  have hstays := hasFile_iff_of_run htarget hd htools h
  refine ⟨(hstays _).mpr hfile, fun hmore => ?_⟩
  have hruns := runsSource_madeScript made hfilled hext hseen hmore
  rw [hhome] at hruns
  refine ⟨hruns.run_iff, ?_⟩
  simp only [hstays]
  exact hruns.once_iff

theorem sources_of_crowdedDisk :
    ∃ d' script, run ⟨2026, 1, 1, 4, 0, 0, 0⟩ straight crowdedDisk =
        (.ok (.ofText "target/DB.zip"), d') ∧
      d'.fileAt? (scriptPlace crowdedDisk.home (straight.target.join "DB")) =
        some (.text script) ∧
      HasSources (stagedDisk straight crowdedDisk) (straight.target.join "DB_STAGING") .procedure
        "Q" ∧
      HasFile crowdedDisk.home (straight.target.join "DB") d' "PROCEDURE" "Q.SQL" ∧
      runLine "PROCEDURE" "Q.SQL" ∈ runLines script := by
  obtain ⟨d', hd', _⟩ := run_crowdedDisk
  obtain ⟨hscript, hsources⟩ := sources_of_run target_straight sound_crowdedDisk hd'
  have hprocedure : HasSources _ _ .procedure "Q" := hasSources_crowdedDisk (by decide)
  obtain ⟨hthere, hruns⟩ := hsources _ _ hprocedure "SQL" (List.mem_singleton_self _)
  refine ⟨d', _, hd', hscript (noSharedScript_of_none rfl), hprocedure, hthere, ?_⟩
  exact (hruns (notMem_releaseInserts_straight _)).run_iff.mpr (by decide)

/-- The source of a trigger is in the package, but the script does not run it. -/
theorem source_apart :
    ∃ d' script, run ⟨2026, 1, 1, 4, 0, 0, 0⟩ straight crowdedDisk =
        (.ok (.ofText "target/DB.zip"), d') ∧
      d'.fileAt? (scriptPlace crowdedDisk.home (straight.target.join "DB")) =
        some (.text script) ∧
      HasSources (stagedDisk straight crowdedDisk) (straight.target.join "DB_STAGING") .trigger
        "R" ∧
      HasFile crowdedDisk.home (straight.target.join "DB") d' "TRIGGER" "R.SQL" ∧
      (runLines script).count (runLine "TRIGGER" "R.SQL") = 0 := by
  obtain ⟨d', hd', _⟩ := run_crowdedDisk
  have htrigger : HasSources _ _ .trigger "R" := hasSources_crowdedDisk (by decide)
  have hext : ("SQL" : Text) ∈ UnitKind.trigger.extensions := by decide
  obtain ⟨_, _, hstocked, _⟩ := Stocked.of_run target_straight sound_crowdedDisk hd'
  obtain ⟨hstaged, hhome, hfilled⟩ := filledDisk_of_run target_straight sound_crowdedDisk hd'
  have hseen := hstocked.mem_seen_source hstaged htrigger hext
  have hfile := hasFile_of_mem_seen (isName_unitKind .trigger) hseen
  have hruns := runsSource_madeScript ⟨2026, 1, 1, 4, 0, 0, 0⟩ hfilled hext hseen
    (notMem_releaseInserts_straight _)
  rw [hhome] at hfile
  refine ⟨d', _, hd',
    madeScript_of_run target_straight sound_crowdedDisk (noSharedScript_of_none rfl) hd', htrigger,
    (hasFile_iff_of_run target_straight sound_crowdedDisk (by decide) hd' _).mpr hfile, ?_⟩
  rw [List.count_eq_zero]
  intro hline
  exact (hruns.run_iff.mp hline).1 rfl

/-- The line runs a file of the folder. -/
def RunsIn (folder line : Text) : Prop := ∃ more : Text, line = mark ++ folder ++ "/" ++ more

theorem exists_file_of_runsIn {line : Text} (hline : line ∈ fileRuns db d)
    (hfolder : RunsIn folder line) (hslash : '/' ∉ folder) :
    ∃ file, HasFile d.home db d folder file := by
  obtain ⟨p, hp, file, hseen, _, rfl⟩ := mem_fileRuns.mp hline
  obtain ⟨more, hmore⟩ := hfolder
  obtain ⟨rfl, _⟩ := (Part.line_eq_append_iff hp hslash).mp hmore
  exact ⟨file, hasFile_of_mem_seen (folder_of_mem_parts hp).1 hseen⟩

/-- The views of a package come from tables whose names lead there, or were there before. What is
staged as a view does not get into the package. Without such tables and such remains there are no
views, and the script runs none. -/
theorem views_of_run {made : Moment} {settings : Settings} {package : Path}
    (htarget : settings.target.WellFormed) (hd : d.Sound)
    (h : run made settings d = (.ok package, d')) :
    (NoSharedScript settings (filledDisk settings d) (settings.target.join "DB") →
      d'.fileAt? (scriptPlace d.home (settings.target.join "DB")) =
        some (.text (madeScript made settings d))) ∧
    ∃ tables,
      TablesIn (stagedDisk settings d) ((settings.target.join "DB_STAGING").join "TABLE")
        settings.tracked tables ∧
      (∀ file, d'.fileAt? (filePlace d.home (settings.target.join "DB") "VIEW" file) =
        ((lastAt? (filePlace d.home (settings.target.join "DB") "VIEW" file)
          (tables.flatMap (tableFiles d.home (settings.target.join "DB")))).map Content.text).or
            ((stagedDisk settings d).fileAt?
              (filePlace d.home (settings.target.join "DB") "VIEW" file))) ∧
      ((∀ t ∈ tables, '/' ∉ t.name) →
        (∀ file, ¬ HasFile d.home (settings.target.join "DB") (stagedDisk settings d) "VIEW" file) →
        (∀ file, ¬ HasFile d.home (settings.target.join "DB") d' "VIEW" file) ∧
        ∀ line ∈ runLines (madeScript made settings d), RunsIn "VIEW" line →
          line ∈ runLines (releaseInserts settings.release)) := by
  obtain ⟨tables, hin, hstocked, hfiles⟩ := Stocked.of_run htarget hd h
  obtain ⟨_, hhome, hfilled⟩ := filledDisk_of_run htarget hd h
  have hsource {file : Text} : ¬ IsSource d.home (settings.target.join "DB")
      (settings.target.join "DB_STAGING") (stagedDisk settings d)
      (filePlace d.home (settings.target.join "DB") "VIEW" file) :=
    not_isSource_filePlace fun kind => by cases kind <;> decide
  refine ⟨fun hshared => madeScript_of_run htarget hd hshared h, tables, hin, ?_, ?_⟩
  · intro file
    rw [hfiles _ (isLasting_filePlace (by decide)), hstocked.fileAt?_filePlace (by decide) hsource]
  · intro hslash hleft
    have hnone (file : Text) :
        ¬ HasFile d.home (settings.target.join "DB") (filledDisk settings d) "VIEW" file := by
      intro hfile
      rcases hstocked.origin (by decide) hfile with hviews | ⟨t, ht, text, hmem⟩ | hviews
      · exact hsource hviews
      · rcases mem_tableFiles_iff.mp hmem with ⟨hplace, _⟩ | ⟨_, hplace, _⟩ | ⟨_, hplace⟩
        · rw [place_tableFile (hslash t ht)] at hplace
          exact absurd (filePlace_inj hplace).1 (by decide)
        · rw [place_indexFile (hslash t ht)] at hplace
          exact absurd (filePlace_inj hplace).1 (by decide)
        · rw [controlPlace_eq (hslash t ht)] at hplace
          exact absurd (filePlace_inj hplace).1 (by decide)
      · exact hleft file hviews
    refine ⟨fun file hfile => ?_, fun line hline hview => ?_⟩
    · exact hnone file ((hasFile_iff_of_run htarget hd (by decide) h file).mp hfile)
    · rw [(perm_runLines_madeScript hfilled).mem_iff, List.mem_append] at hline
      refine hline.resolve_right fun hruns => ?_
      obtain ⟨file, hfile⟩ := exists_file_of_runsIn hruns hview (by decide)
      rw [hhome] at hfile
      exact hnone file hfile

/-- Besides the dictionary tables there is nothing but a view. -/
def viewedDisk : Disk :=
  (olderDisk.put ["source", "VIEW"] .folder).put ["source", "VIEW", "V.SQL"]
    (.file (.text "CREATE VIEW V"))

theorem sound_viewedDisk : viewedDisk.Sound :=
  (sound_olderDisk.put (by decide) _).put (by decide) _

/-- The view of the crowded package is not taken over. Without the crowd there is none in the
package, and no line of the script runs any. -/
theorem views_of_crowdedDisk :
    (∃ d' tables, run ⟨2026, 1, 1, 4, 0, 0, 0⟩ straight crowdedDisk =
        (.ok (.ofText "target/DB.zip"), d') ∧
      TablesIn (stagedDisk straight crowdedDisk) ((straight.target.join "DB_STAGING").join "TABLE")
        false tables ∧
      ∀ file, d'.fileAt? (filePlace crowdedDisk.home (straight.target.join "DB") "VIEW" file) =
        ((lastAt? (filePlace crowdedDisk.home (straight.target.join "DB") "VIEW" file)
          (tables.flatMap (tableFiles crowdedDisk.home (straight.target.join "DB")))).map
            Content.text).or ((stagedDisk straight crowdedDisk).fileAt?
              (filePlace crowdedDisk.home (straight.target.join "DB") "VIEW" file))) ∧
    ∃ d', run ⟨2026, 1, 1, 4, 0, 0, 0⟩ straight viewedDisk = (.ok (.ofText "target/DB.zip"), d') ∧
      HasFile viewedDisk.home (straight.target.join "DB_STAGING") (stagedDisk straight viewedDisk)
        "VIEW" "V.SQL" ∧
      (∀ file, ¬ HasFile viewedDisk.home (straight.target.join "DB") d' "VIEW" file) ∧
      ∀ line ∈ runLines (madeScript ⟨2026, 1, 1, 4, 0, 0, 0⟩ straight viewedDisk),
        ¬ RunsIn "VIEW" line := by
  constructor
  · obtain ⟨d', hd', _⟩ := run_crowdedDisk
    obtain ⟨_, tables, hin, hviews, _⟩ := views_of_run target_straight sound_crowdedDisk hd'
    exact ⟨d', tables, hd', hin, hviews⟩
  · have hrun : (run ⟨2026, 1, 1, 4, 0, 0, 0⟩ straight viewedDisk).1 =
        .ok (.ofText "target/DB.zip") := by
      decide +kernel
    have hstaged : (stagedDisk straight viewedDisk).fileAt?
        (filePlace viewedDisk.home (straight.target.join "DB_STAGING") "VIEW" "V.SQL") =
          some (.text "CREATE VIEW V") := by
      decide +kernel
    have hempty : (stagedDisk straight viewedDisk).filesAt
        ((straight.target.join "DB").place viewedDisk.home ++ [("VIEW" : Text)]) = [] := by
      decide +kernel
    have hleft (file : Text) : ¬ HasFile viewedDisk.home (straight.target.join "DB")
        (stagedDisk straight viewedDisk) "VIEW" file := by
      rintro ⟨c, hc⟩
      have hmem : file ∈ (stagedDisk straight viewedDisk).filesAt
          ((straight.target.join "DB").place viewedDisk.home ++ [("VIEW" : Text)]) :=
        mem_filesAt.mpr ⟨c, by rwa [List.append_assoc]⟩
      rw [hempty] at hmem
      exact List.not_mem_nil hmem
    obtain ⟨d', hd'⟩ := exists_of_fst_eq hrun
    obtain ⟨_, tables, hin, _, hviews⟩ := views_of_run target_straight sound_viewedDisk hd'
    have hnames : tables.map Table.name = [("DB_OBJECTS" : Text), "DB_TABLE_COLUMNS"] := by
      rw [map_name_of_tablesIn hin]
      decide +kernel
    have hslash : ∀ t ∈ tables, '/' ∉ t.name := by
      intro t ht
      have hall : ∀ name ∈ [("DB_OBJECTS" : Text), "DB_TABLE_COLUMNS"], '/' ∉ name := by decide
      rw [← hnames] at hall
      exact hall _ (List.mem_map_of_mem ht)
    obtain ⟨hnone, hlines⟩ := hviews hslash hleft
    exact ⟨d', hd', ⟨_, hstaged⟩, hnone, fun line hline hview =>
      notMem_releaseInserts_straight line (hlines line hline hview)⟩

/-- A view is staged, but it is not in the package. -/
theorem view_apart :
    ∃ d', run ⟨2026, 1, 1, 4, 0, 0, 0⟩ straight crowdedDisk = (.ok (.ofText "target/DB.zip"), d') ∧
      HasFile crowdedDisk.home (straight.target.join "DB_STAGING") (stagedDisk straight crowdedDisk)
        "VIEW" "V.SQL" ∧
      ¬ HasFile crowdedDisk.home (straight.target.join "DB") d' "VIEW" "V.SQL" := by
  obtain ⟨d', hd', _, _, _, hview⟩ := run_crowdedDisk
  have hstaged : (stagedDisk straight crowdedDisk).fileAt?
      (filePlace crowdedDisk.home (straight.target.join "DB_STAGING") "VIEW" "V.SQL") =
        some (.text "CREATE VIEW V") := by
    decide +kernel
  refine ⟨d', hd', ⟨_, hstaged⟩, ?_⟩
  rintro ⟨c, hc⟩
  rw [hview] at hc
  cases hc

end Compile
end SchemaPackage
