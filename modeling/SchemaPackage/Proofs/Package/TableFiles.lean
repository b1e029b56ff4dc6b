import SchemaPackage.Proofs.Package.Contents
import SchemaPackage.Proofs.Table.Plain

/-!
The files of the tables in a finished package. Every staged table writes its files under its own
name, and a text stays in its place unless another table has a different text for the same place;
then the one that is written last stays. Among tables with names of their own that happens only if
one is called like another with `.IDX` behind it, which is what the other's index statements are
filed under.
-/
namespace SchemaPackage

open Job Outcome Text

namespace Compile

open Package Disk

variable {home l : Location} {db staging target : Path} {d d' : Disk} {tables : List Table}
  {t : Table} {text name folder file : Text}

theorem filePlace_inj {folder' file' : Text}
    (h : filePlace home db folder file = filePlace home db folder' file') :
    folder = folder' ∧ file = file' := by
  have hnames := List.append_cancel_left h
  simpa using hnames

theorem place_tableFile (hname : '/' ∉ name) :
    (tableFile db name).place home = filePlace home db "TABLE" (name ++ ".SQL") :=
  place_join_join (by decide) (isName_append hname (by decide))

theorem place_indexFile (hname : '/' ∉ name) :
    (indexFile db name).place home = filePlace home db "TABLE" (name ++ ".IDX.SQL") :=
  place_join_join (by decide) (isName_append hname (by decide))

theorem controlPlace_eq (hname : '/' ∉ name) :
    controlPlace home db name = filePlace home db "INIT_TABLE" (name ++ ".CTL") :=
  place_join_join (by decide) (isName_append hname (by decide))

theorem mem_tableFiles_iff : (l, text) ∈ tableFiles home db t ↔
    l = (tableFile db t.name).place home ∧ text = t.statement ∨
      (t.indexes ≠ [] ∧ l = (indexFile db t.name).place home ∧ text = t.indexStatements) ∨
        (controlText? t = some text ∧ l = controlPlace home db t.name) := by
  have hindex : (l, text) ∈ (if t.indexes.isEmpty then none else some t.indexStatements).toList.map
        (fun text => ((indexFile db t.name).place home, text)) ↔
      t.indexes ≠ [] ∧ l = (indexFile db t.name).place home ∧ text = t.indexStatements := by
    cases hindexes : t.indexes <;> simp
  have hcontrol : (l, text) ∈ (controlText? t).toList.map
        (fun text => (controlPlace home db t.name, text)) ↔
      controlText? t = some text ∧ l = controlPlace home db t.name := by
    cases controlText? t with
    | none => simp
    | some control => simp [and_comm, eq_comm]
  rw [tableFiles, List.mem_append, List.mem_cons, hindex, hcontrol, Prod.mk.injEq, or_assoc]

/-- What tables write has the extension of a statement or of a control file. -/
theorem exists_ending_of_mem_tableFiles (h : (l, text) ∈ tableFiles home db t) :
    ∃ above name, l = above ++ [name] ∧ (ending name = "SQL" ∨ ending name = "CTL") := by
  rcases mem_tableFiles_iff.mp h with ⟨rfl, _⟩ | ⟨_, rfl, _⟩ | ⟨_, rfl⟩
  · obtain ⟨above, name, hplace, hending⟩ := Path.exists_place_join_ending home (db.join "TABLE")
      (List.append_assoc t.name "." "SQL").symm (by decide)
    exact ⟨above, name, hplace, Or.inl hending⟩
  · have hfile : t.name ++ ".IDX.SQL" = (t.name ++ ".IDX") ++ "." ++ "SQL" := by
      rw [List.append_assoc, List.append_assoc]
      rfl
    obtain ⟨above, name, hplace, hending⟩ := Path.exists_place_join_ending home (db.join "TABLE")
      hfile (by decide)
    exact ⟨above, name, hplace, Or.inl hending⟩
  · obtain ⟨above, name, hplace, hending⟩ := exists_place_controlFile home db t.name
    exact ⟨above, name, hplace, Or.inr hending⟩

theorem not_isData_of_mem_tableFiles (h : (l, text) ∈ tableFiles home db t) :
    ¬ IsData home db l := by
  obtain ⟨above, name, rfl, hending⟩ := exists_ending_of_mem_tableFiles h
  refine not_isData_of_ending ?_
  rcases hending with hending | hending <;> rw [hending] <;> decide

theorem not_isSource_filePlace {staged : Disk} (hfolder : ∀ kind : UnitKind, folder ≠ kind.name) :
    ¬ IsSource home db staging staged (filePlace home db folder file) := by
  rintro ⟨kind, base, ext, _, _, hplace⟩
  exact hfolder kind (filePlace_inj hplace).1

/-- Beside the records, a place without a source file has the last text of the tables for it, or is
as it was when the descriptions were staged. -/
theorem Stocked.fileAt?_filePlace (h : Stocked home db staging tables d d')
    (hfolder : folder ≠ "INIT_TABLE")
    (hsource : ¬ IsSource home db staging d (filePlace home db folder file)) :
    d'.fileAt? (filePlace home db folder file) =
      ((lastAt? (filePlace home db folder file)
        (tables.flatMap (tableFiles home db))).map Content.text).or
          (d.fileAt? (filePlace home db folder file)) := by
  have hbrought : ¬ IsBrought home db staging d (filePlace home db folder file) := by
    refine not_or.mpr ⟨?_, hsource⟩
    rintro ⟨other, _, hplace⟩
    rw [List.append_assoc] at hplace
    exact hfolder (filePlace_inj hplace).1
  cases hlast : lastAt? (filePlace home db folder file) (tables.flatMap (tableFiles home db)) with
  | some text => exact h.written _ hbrought text hlast
  | none =>
    refine h.others _ hbrought hlast fun k hplace => ?_
    rw [upgradeControlPlace_eq, recordsLocation, List.append_assoc] at hplace
    exact hfolder (filePlace_inj hplace).1

/-- The last text that the tables have for a place is what the package has there. -/
theorem Stocked.fileAt?_of_lastAt? (h : Stocked home db staging tables d d')
    (hsource : ¬ IsSource home db staging d l)
    (hlast : lastAt? l (tables.flatMap (tableFiles home db)) = some text) :
    d'.fileAt? l = some (.text text) := by
  refine h.written l ?_ text hlast
  obtain ⟨t, _, hmem⟩ := List.mem_flatMap.mp (mem_of_lastAt?_eq_some hlast)
  exact not_or.mpr ⟨not_isData_of_mem_tableFiles hmem, hsource⟩

/-- No table has another text for the place. -/
def Owns (home : Location) (db : Path) (tables : List Table) (l : Location) (text : Text) : Prop :=
  ∀ s ∈ tables, ∀ other, (l, other) ∈ tableFiles home db s → other = text

theorem Owns.lastAt? (h : Owns home db tables l text) (ht : t ∈ tables)
    (hmem : (l, text) ∈ tableFiles home db t) :
    lastAt? l (tables.flatMap (tableFiles home db)) = some text := by
  refine lastAt?_eq_some_of_forall (List.mem_flatMap.mpr ⟨t, ht, hmem⟩) ?_
  intro other hother
  obtain ⟨s, hs, hmem⟩ := List.mem_flatMap.mp hother
  exact h s hs other hmem

/-- No table is called like this one, neither of two is called like the other with `.IDX` behind it,
and no name leads elsewhere. -/
structure HasOwnName (tables : List Table) (t : Table) : Prop where
  slash : ∀ s ∈ tables, '/' ∉ s.name
  name : ∀ s ∈ tables, s.name = t.name → s = t
  index : ∀ s ∈ tables, t.name ≠ s.name ++ ".IDX" ∧ s.name ≠ t.name ++ ".IDX"

theorem hasOwnName_of_names {names : List Text} (hnames : tables.map Table.name = names)
    (hnodup : names.Nodup)
    (h : ∀ name ∈ names, '/' ∉ name ∧ ∀ other ∈ names, name ≠ other ++ ".IDX") (ht : t ∈ tables) :
    HasOwnName tables t := by
  have hmem {s : Table} (hs : s ∈ tables) : s.name ∈ names := hnames ▸ List.mem_map_of_mem hs
  rw [← hnames] at hnodup
  refine ⟨fun s hs => (h _ (hmem hs)).1, fun s hs hname => ?_, fun s hs => ⟨?_, ?_⟩⟩
  · exact List.inj_on_of_nodup_map hnodup hs ht hname
  · exact (h _ (hmem ht)).2 _ (hmem hs)
  · exact (h _ (hmem hs)).2 _ (hmem ht)

section HasOwnName

variable {s : Table} (h : HasOwnName tables t) (hs : s ∈ tables)

include h hs

/-- What any table writes into the files of a table with a name of its own is that table's. -/
theorem HasOwnName.statement
    (hmem : (filePlace home db "TABLE" (t.name ++ ".SQL"), text) ∈ tableFiles home db s) :
    text = t.statement := by
  rcases mem_tableFiles_iff.mp hmem with ⟨hplace, rfl⟩ | ⟨_, hplace, _⟩ | ⟨_, hplace⟩
  · rw [place_tableFile (h.slash s hs)] at hplace
    rw [h.name s hs (List.append_cancel_right (filePlace_inj hplace).2).symm]
  · have hsuffix : (".IDX.SQL" : Text) = ".IDX" ++ ".SQL" := rfl
    rw [place_indexFile (h.slash s hs), hsuffix, ← List.append_assoc] at hplace
    exact absurd (List.append_cancel_right (filePlace_inj hplace).2) (h.index s hs).1
  · rw [controlPlace_eq (h.slash s hs)] at hplace
    exact absurd (filePlace_inj hplace).1 (by decide)

theorem HasOwnName.indexStatements
    (hmem : (filePlace home db "TABLE" (t.name ++ ".IDX.SQL"), text) ∈ tableFiles home db s) :
    t.indexes ≠ [] ∧ text = t.indexStatements := by
  rcases mem_tableFiles_iff.mp hmem with ⟨hplace, _⟩ | ⟨hindexes, hplace, rfl⟩ | ⟨_, hplace⟩
  · have hsuffix : (".IDX.SQL" : Text) = ".IDX" ++ ".SQL" := rfl
    rw [place_tableFile (h.slash s hs), hsuffix, ← List.append_assoc] at hplace
    exact absurd (List.append_cancel_right (filePlace_inj hplace).2).symm (h.index s hs).2
  · rw [place_indexFile (h.slash s hs)] at hplace
    obtain rfl := h.name s hs (List.append_cancel_right (filePlace_inj hplace).2).symm
    exact ⟨hindexes, rfl⟩
  · rw [controlPlace_eq (h.slash s hs)] at hplace
    exact absurd (filePlace_inj hplace).1 (by decide)

theorem HasOwnName.control
    (hmem : (filePlace home db "INIT_TABLE" (t.name ++ ".CTL"), text) ∈ tableFiles home db s) :
    controlText? t = some text := by
  rcases mem_tableFiles_iff.mp hmem with ⟨hplace, _⟩ | ⟨_, hplace, _⟩ | ⟨hcontrol, hplace⟩
  · rw [place_tableFile (h.slash s hs)] at hplace
    exact absurd (filePlace_inj hplace).1 (by decide)
  · rw [place_indexFile (h.slash s hs)] at hplace
    exact absurd (filePlace_inj hplace).1 (by decide)
  · rw [controlPlace_eq (h.slash s hs)] at hplace
    rwa [h.name s hs (List.append_cancel_right (filePlace_inj hplace).2).symm] at hcontrol

end HasOwnName

/-- A table with a name of its own has its places to itself. -/
theorem owns_of_names (h : HasOwnName tables t) :
    Owns home db tables (filePlace home db "TABLE" (t.name ++ ".SQL")) t.statement ∧
      Owns home db tables (filePlace home db "TABLE" (t.name ++ ".IDX.SQL")) t.indexStatements ∧
      ∀ control, controlText? t = some control →
        Owns home db tables (filePlace home db "INIT_TABLE" (t.name ++ ".CTL")) control := by
  refine ⟨fun s hs other hmem => h.statement hs hmem,
    fun s hs other hmem => (h.indexStatements hs hmem).2,
    fun control hcontrol s hs other hmem => ?_⟩
  exact Option.some.inj ((h.control hs hmem).symm.trans hcontrol)

/-- The files of a table in a package, as far as it has their places to itself. Without indexes
there is no file for index statements, unless something else has put one there. -/
structure HoldsTable (home : Location) (db : Path) (tables : List Table) (staged d' : Disk)
    (t : Table) : Prop where
  statement : Owns home db tables (filePlace home db "TABLE" (t.name ++ ".SQL")) t.statement →
    d'.fileAt? (filePlace home db "TABLE" (t.name ++ ".SQL")) = some (.text t.statement)
  indexes : t.indexes ≠ [] →
    Owns home db tables (filePlace home db "TABLE" (t.name ++ ".IDX.SQL")) t.indexStatements →
    d'.fileAt? (filePlace home db "TABLE" (t.name ++ ".IDX.SQL")) = some (.text t.indexStatements)
  noIndexes : t.indexes = [] →
    (∀ s ∈ tables, ∀ text,
      (filePlace home db "TABLE" (t.name ++ ".IDX.SQL"), text) ∉ tableFiles home db s) →
    staged.fileAt? (filePlace home db "TABLE" (t.name ++ ".IDX.SQL")) = none →
    d'.fileAt? (filePlace home db "TABLE" (t.name ++ ".IDX.SQL")) = none
  control : t.isLoaded = true → ∃ control, t.controlFileFor t.name = .ok control ∧
    (Owns home db tables (filePlace home db "INIT_TABLE" (t.name ++ ".CTL")) control →
      d'.fileAt? (filePlace home db "INIT_TABLE" (t.name ++ ".CTL")) = some (.text control))

/-- Exactly the files of a table in a package. There may be one too many if something was there when
the descriptions were staged. -/
structure HoldsWhole (home : Location) (db : Path) (staged d' : Disk) (t : Table) : Prop where
  statement : d'.fileAt? (filePlace home db "TABLE" (t.name ++ ".SQL")) = some (.text t.statement)
  indexes : t.indexes ≠ [] →
    d'.fileAt? (filePlace home db "TABLE" (t.name ++ ".IDX.SQL")) = some (.text t.indexStatements)
  noIndexes : t.indexes = [] →
    staged.fileAt? (filePlace home db "TABLE" (t.name ++ ".IDX.SQL")) = none →
    d'.fileAt? (filePlace home db "TABLE" (t.name ++ ".IDX.SQL")) = none
  control : t.isLoaded = true → ∃ control, t.controlFileFor t.name = .ok control ∧
    d'.fileAt? (filePlace home db "INIT_TABLE" (t.name ++ ".CTL")) = some (.text control)

theorem exists_controlText? (hloaded : t.isLoaded = true)
    (h : ∃ control?, t.controlFile = .ok control?) :
    ∃ control, t.controlFileFor t.name = .ok control ∧ controlText? t = some control := by
  obtain ⟨control?, hcontrol⟩ := h
  rw [Table.controlFile, if_pos hloaded] at hcontrol
  obtain ⟨control, hmade, rfl⟩ := except_map_eq_ok_iff.mp hcontrol
  refine ⟨control, hmade, ?_⟩
  rw [controlText?, Table.controlFile, if_pos hloaded, hmade]
  rfl

theorem Stocked.holdsTable (h : Stocked home db staging tables d d') (ht : t ∈ tables)
    (hslash : '/' ∉ t.name) : HoldsTable home db tables d d' t := by
  have htable {file : Text} :
      ¬ IsSource home db staging d (filePlace home db "TABLE" file) :=
    not_isSource_filePlace fun kind => by cases kind <;> decide
  have hrecords {file : Text} :
      ¬ IsSource home db staging d (filePlace home db "INIT_TABLE" file) :=
    not_isSource_filePlace fun kind => by cases kind <;> decide
  refine ⟨fun howns => ?_, fun hindexes howns => ?_, fun _ hnone hleft => ?_, fun hloaded => ?_⟩
  · refine h.fileAt?_of_lastAt? htable (howns.lastAt? ht (mem_tableFiles_iff.mpr (Or.inl ?_)))
    exact ⟨(place_tableFile hslash).symm, rfl⟩
  · refine h.fileAt?_of_lastAt? htable
      (howns.lastAt? ht (mem_tableFiles_iff.mpr (Or.inr (Or.inl ?_))))
    exact ⟨hindexes, (place_indexFile hslash).symm, rfl⟩
  · have hlast : lastAt? (filePlace home db "TABLE" (t.name ++ ".IDX.SQL"))
        (tables.flatMap (tableFiles home db)) = none := by
      rw [lastAt?_eq_none_iff]
      intro text hmem
      obtain ⟨s, hs, hfile⟩ := List.mem_flatMap.mp hmem
      exact hnone s hs text hfile
    rw [h.fileAt?_filePlace (by decide) htable, hlast, hleft]
    rfl
  · obtain ⟨control, hmade, hcontrol⟩ := exists_controlText? hloaded (h.controls t ht)
    refine ⟨control, hmade, fun howns => ?_⟩
    refine h.fileAt?_of_lastAt? hrecords
      (howns.lastAt? ht (mem_tableFiles_iff.mpr (Or.inr (Or.inr ?_))))
    exact ⟨hcontrol, (controlPlace_eq hslash).symm⟩

/-- A table with a name of its own keeps all its files. -/
theorem HoldsTable.whole {staged : Disk} (h : HoldsTable home db tables staged d' t)
    (hcontrols : ∃ control?, t.controlFile = .ok control?) (hname : HasOwnName tables t) :
    HoldsWhole home db staged d' t := by
  obtain ⟨hstatement, hindexes, hcontrol⟩ := owns_of_names hname
  refine ⟨h.statement hstatement, fun hsome => h.indexes hsome hindexes,
    fun hnone => h.noIndexes hnone fun s hs text hmem => ?_, fun hloaded => ?_⟩
  · exact (hname.indexStatements hs hmem).1 hnone
  · obtain ⟨control, hmade, hholds⟩ := h.control hloaded
    obtain ⟨text, hmade', htext⟩ := exists_controlText? hloaded hcontrols
    obtain rfl : text = control := Except.ok.inj (hmade'.symm.trans hmade)
    exact ⟨text, hmade, hholds (hcontrol text htext)⟩

/-- When a compilation succeeds, every place that nothing else is written to has the last text that
the staged tables have for it, and the files of a table whose name has no slash hold exactly its
own texts, unless another table has a different text for the same file. A table with a name of its
own has all its files. -/
theorem tableFiles_of_run {made : Moment} {settings : Settings} {package : Path}
    (htarget : settings.target.WellFormed) (hd : d.Sound)
    (h : run made settings d = (.ok package, d')) :
    ∃ tables,
      TablesIn (stagedDisk settings d) ((settings.target.join "DB_STAGING").join "TABLE")
        settings.tracked tables ∧
      (∀ l text, IsLasting d.home settings.target l →
        ¬ IsSource d.home (settings.target.join "DB") (settings.target.join "DB_STAGING")
          (stagedDisk settings d) l →
        lastAt? l (tables.flatMap (tableFiles d.home (settings.target.join "DB"))) = some text →
        d'.fileAt? l = some (.text text)) ∧
      (∀ t ∈ tables, '/' ∉ t.name →
        HoldsTable d.home (settings.target.join "DB") tables (stagedDisk settings d) d' t) ∧
      ∀ t ∈ tables, HasOwnName tables t →
        HoldsWhole d.home (settings.target.join "DB") (stagedDisk settings d) d' t := by
  obtain ⟨tables, hin, hstocked, hfiles⟩ := Stocked.of_run htarget hd h
  have htables : ∀ t ∈ tables, '/' ∉ t.name →
      HoldsTable d.home (settings.target.join "DB") tables (stagedDisk settings d) d' t := by
    intro t ht hslash
    have hkept {folder file : Text} (hfolder : folder ≠ "TOOLS") :
        d'.fileAt? (filePlace d.home (settings.target.join "DB") folder file) =
          (filledDisk settings d).fileAt?
            (filePlace d.home (settings.target.join "DB") folder file) :=
      hfiles _ (isLasting_filePlace hfolder)
    have hholds := hstocked.holdsTable ht hslash
    constructor
    · rw [hkept (by decide)]
      exact hholds.statement
    · rw [hkept (by decide)]
      exact hholds.indexes
    · rw [hkept (by decide)]
      exact hholds.noIndexes
    · rw [hkept (by decide)]
      exact hholds.control
  refine ⟨tables, hin, fun l text hlasting hsource hlast => ?_, htables, fun t ht hname => ?_⟩
  · rw [hfiles l hlasting]
    exact hstocked.fileAt?_of_lastAt? hsource hlast
  · exact (htables t ht (hname.slash t ht)).whole (hstocked.controls t ht) hname

/-- The table that a file describes when it is read in an empty context. -/
def readTable? (d : Disk) (folder : Path) (tracked : Bool) (name : Text) : Option Table :=
  (d.text? (folder.join name)).bind fun text =>
    (Description.parseTable (folder.join name) text tracked {}).1.toOption.join

theorem exists_describesTable {α : Type} {folder : Path} {tracked : Bool} {summary : Table → α}
    {a : α} (h : (readTable? d folder tracked name).map summary = some a) :
    ∃ t, DescribesTable d folder tracked name (some t) ∧ summary t = a := by
  obtain ⟨t, hread, rfl⟩ := Option.map_eq_some_iff.mp h
  obtain ⟨text, htext, hparse⟩ := Option.bind_eq_some_iff.mp hread
  obtain ⟨t?, hsome, ht⟩ := Option.bind_eq_some_iff.mp hparse
  obtain rfl : t? = some t := ht
  obtain ⟨ctx, hctx⟩ := exists_of_fst_eq (except_toOption_eq_some_iff.mp hsome)
  exact ⟨t, ⟨text, {}, ctx, htext, .new, hctx⟩, rfl⟩

/-- What a file describes can be told, apart from tracking, by reading it in an empty context. -/
theorem plain_readTable? {folder : Path} {tracked : Bool} {t? : Option Table}
    (h : DescribesTable d folder tracked name t?) :
    (readTable? d folder tracked name).map Table.plain = t?.map Table.plain := by
  obtain ⟨text, ctx, ctx', hread, _, hparse⟩ := h
  have hplain := Description.plain_parseTable (folder.join name) text tracked tracked {} ctx
  rw [hparse] at hplain
  obtain ⟨u?, hempty, hsame⟩ := except_map_eq_ok_iff.mp hplain
  rw [readTable?, hread, Option.bind_some, hempty]
  exact hsame

/-- So can the names of the tables in a folder. -/
theorem map_name_of_tablesIn {folder : Path} {tracked : Bool}
    (h : TablesIn d folder tracked tables) :
    tables.map Table.name = (d.descriptions folder).flatMap fun name =>
      (readTable? d folder tracked name).toList.map Table.name := by
  obtain ⟨names, parsed, hlists, hparsed, rfl⟩ := h
  have hnames : names = d.descriptions folder :=
    eq_of_pairwise_byteList hlists.ordered (pairwise_descriptions d folder) fun name =>
      (hlists.mem_iff name).trans mem_descriptions.symm
  rw [← hnames]
  clear hlists hnames
  induction hparsed with
  | nil => rfl
  | @cons name t? names parsed hfirst _ ih =>
    have hnames := congrArg (Option.map Table.name) (plain_readTable? hfirst)
    rw [Option.map_map, Option.map_map] at hnames
    have hname : t?.toList.map Table.name =
        (readTable? d folder tracked name).toList.map Table.name := by
      rw [← Option.toList_map, ← Option.toList_map]
      exact congrArg Option.toList hnames.symm
    rw [List.flatMap_cons, List.flatMap_cons, List.map_append, hname, ih]

/-- Besides the dictionary tables there are a table that is called like the index statements of
another, a table that is called like a way to the source of a type, a procedure, a trigger and a
view. -/
def crowdedEntries : List (Location × Entry) :=
  [(["source", "PROCEDURE"], .folder),
   (["source", "PROCEDURE", "Q.SQL"], .file (.text "CREATE PROCEDURE Q")),
   (["source", "PROCEDURE", "Q.XML"], .file (.text "<procedure name='Q'/>")),
   (["source", "TABLE", "P.XML"], .file (.text ("<table name='../TYPE/A.B'><columns>" ++
     "<column name='C' data_type='NUMBER'/></columns></table>"))),
   (["source", "TABLE", "X.IDX.XML"], .file (.text ("<table name='X.IDX'><columns>" ++
     "<column name='B' data_type='NUMBER'/></columns></table>"))),
   (["source", "TABLE", "X.XML"], .file (.text ("<table name='X'><columns>" ++
     "<column name='A' data_type='NUMBER'/></columns><indexes><index name='I'><columns>" ++
     "<column name='A'/></columns></index></indexes></table>"))),
   (["source", "TRIGGER"], .folder),
   (["source", "TRIGGER", "R.SQL"], .file (.text "CREATE TRIGGER R")),
   (["source", "TRIGGER", "R.XML"], .file (.text "<trigger name='R'/>")),
   (["source", "TYPE"], .folder),
   (["source", "TYPE", "A.B.SQL"], .file (.text "CREATE TYPE A")),
   (["source", "TYPE", "A.B.XML"], .file (.text "<type name='A'/>")),
   (["source", "VIEW"], .folder),
   (["source", "VIEW", "V.SQL"], .file (.text "CREATE VIEW V"))]

def crowdedDisk : Disk := crowdedEntries.foldl (fun d e => d.put e.1 e.2) olderDisk

theorem sound_crowdedDisk : crowdedDisk.Sound := sound_foldl_put sound_olderDisk (by decide +kernel)

/-- The package has the index statements of one table in place of the statement of the other, and
the source of the type in place of the third table's. -/
theorem run_crowdedDisk :
    ∃ d', run ⟨2026, 1, 1, 4, 0, 0, 0⟩ straight crowdedDisk =
        (.ok (.ofText "target/DB.zip"), d') ∧
      d'.fileAt? (filePlace crowdedDisk.home (straight.target.join "DB") "TABLE" "X.IDX.SQL") =
        some (.text "CREATE INDEX I ON X (A) TABLESPACE &1;") ∧
      d'.fileAt? (filePlace crowdedDisk.home (straight.target.join "DB") "TYPE" "A.B.SQL") =
        some (.text "CREATE TYPE A") ∧
      d'.fileAt? (filePlace crowdedDisk.home (straight.target.join "DB") "TYPE" "A.SQL") = none ∧
      d'.fileAt? (filePlace crowdedDisk.home (straight.target.join "DB") "VIEW" "V.SQL") =
        none := by
  have hrun : (run ⟨2026, 1, 1, 4, 0, 0, 0⟩ straight crowdedDisk).1 =
        .ok (.ofText "target/DB.zip") ∧
      (run ⟨2026, 1, 1, 4, 0, 0, 0⟩ straight crowdedDisk).2.fileAt?
        (filePlace crowdedDisk.home (straight.target.join "DB") "TABLE" "X.IDX.SQL") =
          some (.text "CREATE INDEX I ON X (A) TABLESPACE &1;") ∧
      (run ⟨2026, 1, 1, 4, 0, 0, 0⟩ straight crowdedDisk).2.fileAt?
        (filePlace crowdedDisk.home (straight.target.join "DB") "TYPE" "A.B.SQL") =
          some (.text "CREATE TYPE A") ∧
      (run ⟨2026, 1, 1, 4, 0, 0, 0⟩ straight crowdedDisk).2.fileAt?
        (filePlace crowdedDisk.home (straight.target.join "DB") "TYPE" "A.SQL") = none ∧
      (run ⟨2026, 1, 1, 4, 0, 0, 0⟩ straight crowdedDisk).2.fileAt?
        (filePlace crowdedDisk.home (straight.target.join "DB") "VIEW" "V.SQL") = none := by
    decide +kernel
  obtain ⟨d', hd'⟩ := exists_of_fst_eq hrun.1
  rw [hd'] at hrun
  exact ⟨d', hd', hrun.2⟩

theorem run_olderDisk :
    ∃ d', run ⟨2026, 1, 1, 4, 0, 0, 0⟩ straight olderDisk =
      (.ok (.ofText "target/DB.zip"), d') := by
  have hrun : (run ⟨2026, 1, 1, 4, 0, 0, 0⟩ straight olderDisk).1 =
      .ok (.ofText "target/DB.zip") := by
    decide +kernel
  exact exists_of_fst_eq hrun

/-- In the crowded package a table has its statement if the place is its own, and without the crowd
all tables have their files. -/
theorem tableFiles_of_crowdedDisk :
    (∃ d' tables, run ⟨2026, 1, 1, 4, 0, 0, 0⟩ straight crowdedDisk =
        (.ok (.ofText "target/DB.zip"), d') ∧
      TablesIn (stagedDisk straight crowdedDisk) ((straight.target.join "DB_STAGING").join "TABLE")
        false tables ∧
      ∀ t ∈ tables, '/' ∉ t.name → Owns crowdedDisk.home (straight.target.join "DB") tables
          (filePlace crowdedDisk.home (straight.target.join "DB") "TABLE" (t.name ++ ".SQL"))
          t.statement →
        d'.fileAt? (filePlace crowdedDisk.home (straight.target.join "DB") "TABLE"
          (t.name ++ ".SQL")) = some (.text t.statement)) ∧
    ∃ d' tables, run ⟨2026, 1, 1, 4, 0, 0, 0⟩ straight olderDisk =
        (.ok (.ofText "target/DB.zip"), d') ∧
      TablesIn (stagedDisk straight olderDisk) ((straight.target.join "DB_STAGING").join "TABLE")
        false tables ∧
      tables.map Table.name = [("DB_OBJECTS" : Text), "DB_TABLE_COLUMNS"] ∧
      ∀ t ∈ tables, HoldsWhole olderDisk.home (straight.target.join "DB")
        (stagedDisk straight olderDisk) d' t := by
  constructor
  · obtain ⟨d', hd', _⟩ := run_crowdedDisk
    obtain ⟨tables, hin, _, htables, _⟩ :=
      tableFiles_of_run (Path.wellFormed_ofText _) sound_crowdedDisk hd'
    exact ⟨d', tables, hd', hin, fun t ht hslash => (htables t ht hslash).statement⟩
  · obtain ⟨d', hd'⟩ := run_olderDisk
    obtain ⟨tables, hin, _, _, htables⟩ :=
      tableFiles_of_run (Path.wellFormed_ofText _) sound_olderDisk hd'
    have hnames : tables.map Table.name = [("DB_OBJECTS" : Text), "DB_TABLE_COLUMNS"] := by
      rw [map_name_of_tablesIn hin]
      decide +kernel
    exact ⟨d', tables, hd', hin, hnames, fun t ht =>
      htables t ht (hasOwnName_of_names hnames (by decide) (by decide) ht)⟩

/-- Two of the staged tables have lost the files with their statements. -/
theorem tableFile_apart :
    ∃ d' t s, run ⟨2026, 1, 1, 4, 0, 0, 0⟩ straight crowdedDisk =
        (.ok (.ofText "target/DB.zip"), d') ∧
      DescribesTable (stagedDisk straight crowdedDisk)
        ((straight.target.join "DB_STAGING").join "TABLE") false "X.IDX.XML" (some t) ∧
      t.name = "X.IDX" ∧
      d'.fileAt? ((tableFile (straight.target.join "DB") t.name).place crowdedDisk.home) ≠
        some (.text t.statement) ∧
      DescribesTable (stagedDisk straight crowdedDisk)
        ((straight.target.join "DB_STAGING").join "TABLE") false "P.XML" (some s) ∧
      s.name = "../TYPE/A.B" ∧
      d'.fileAt? ((tableFile (straight.target.join "DB") s.name).place crowdedDisk.home) ≠
        some (.text s.statement) := by
  obtain ⟨d', hd', hindex, hsource, _⟩ := run_crowdedDisk
  let folder : Path := (straight.target.join "DB_STAGING").join "TABLE"
  have htable : ∃ t, DescribesTable (stagedDisk straight crowdedDisk) folder false "X.IDX.XML"
      (some t) ∧ (t.name, decide (t.statement = "CREATE INDEX I ON X (A) TABLESPACE &1;")) =
        (("X.IDX" : Text), false) :=
    exists_describesTable (by decide +kernel)
  have hother : ∃ s, DescribesTable (stagedDisk straight crowdedDisk) folder false "P.XML"
      (some s) ∧ (s.name, decide (s.statement = "CREATE TYPE A")) =
        (("../TYPE/A.B" : Text), false) :=
    exists_describesTable (by decide +kernel)
  obtain ⟨t, ht, hsummary⟩ := htable
  obtain ⟨s, hs, hsummary'⟩ := hother
  obtain ⟨htname, hstatement⟩ := Prod.mk.inj hsummary
  obtain ⟨hsname, hstatement'⟩ := Prod.mk.inj hsummary'
  have hplace : (tableFile (straight.target.join "DB") "X.IDX").place crowdedDisk.home =
      filePlace crowdedDisk.home (straight.target.join "DB") "TABLE" "X.IDX.SQL" := by
    decide +kernel
  have hplace' : (tableFile (straight.target.join "DB") "../TYPE/A.B").place crowdedDisk.home =
      filePlace crowdedDisk.home (straight.target.join "DB") "TYPE" "A.B.SQL" := by
    decide +kernel
  refine ⟨d', t, s, hd', ht, htname, ?_, hs, hsname, ?_⟩
  · rw [htname, hplace, hindex]
    intro heq
    exact of_decide_eq_false hstatement (Content.text.inj (Option.some.inj heq)).symm
  · rw [hsname, hplace', hsource]
    intro heq
    exact of_decide_eq_false hstatement' (Content.text.inj (Option.some.inj heq)).symm

end Compile
end SchemaPackage
