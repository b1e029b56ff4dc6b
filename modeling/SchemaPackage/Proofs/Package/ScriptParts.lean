import SchemaPackage.Proofs.Package.ScriptLines

/-!
The script as a list of parts. A part for a folder has one line for each of its files, which names
what is left of the file up to its first dot, with an extension of the part.
-/
namespace SchemaPackage.Package.InstallScript

open Text

/-- A part of the script that runs files of a folder: those that it keeps, each under its stem and
an extension, and with something handed to it. -/
structure Part where
  folder : Text
  ext : Text
  tail : Text
  keep : Text → Bool

/-- The file that is run for a file of the folder. -/
def Part.target (p : Part) (file : Text) : Text := stem file ++ "." ++ p.ext

/-- The line that is written for a file of the folder. A line break in its name ends it. -/
def Part.line (p : Part) (file : Text) : Text :=
  firstLine (runLine p.folder (p.target file) ++ p.tail)

/-- The lines of a part when the folders hold the given files. -/
def Part.lines (files : Text → List Text) (p : Part) : List Text :=
  ((files p.folder).filter p.keep).map p.line

/-- A folder with one statement file for each object. -/
def statementsPart (folder : Text) : Part := ⟨folder, "SQL", [], fun _ => true⟩

def tablesPart : Part := ⟨"TABLE", "SQL", " &TBS_DATA", (!isIndexFile ·)⟩

def headersPart : Part := ⟨"PACKAGE", "PKS", [], endsWith ".PKS"⟩

def bodiesPart : Part := ⟨"PACKAGE", "PKB", [], endsWith ".PKB"⟩

def indexesPart : Part := ⟨"TABLE", "IDX.SQL", " &TBS_INDEX", isIndexFile⟩

/-- The parts in front of the note of the release. The indexes come behind it. -/
def earlyParts : List Part :=
  [statementsPart "TYPE", tablesPart, statementsPart "SEQUENCE", statementsPart "FUNCTION",
    statementsPart "PROCEDURE", headersPart, statementsPart "VIEW", bodiesPart]

theorem slash_notMem_stem {file : Text} (h : '/' ∉ file) : '/' ∉ stem file :=
  fun hmem => h ((List.takeWhile_prefix _).subset hmem)

theorem runLines_pieces {piece : Text → Text} {p : Part} {files : List Text}
    (hended : ∀ name, Ended (piece name))
    (hpiece : ∀ name, '/' ∉ name →
      runLines (piece name) = [firstLine (runLine p.folder (name ++ "." ++ p.ext) ++ p.tail)])
    (hfiles : ∀ file ∈ files, '/' ∉ file) :
    runLines (pieces p.keep piece files) = (files.filter p.keep).map p.line := by
  rw [pieces, runLines_flatMap fun file => hended (stem file), ← List.flatMap_pure_eq_map]
  refine List.flatMap_congr fun file hfile => ?_
  exact hpiece (stem file) (slash_notMem_stem (hfiles file (List.mem_filter.mp hfile).1))

theorem runLines_objects {title : Text} {p : Part} {files : List Text} (htitle : '/' ∉ title)
    (hfolder : '\n' ∉ p.folder) (hext : '\n' ∉ p.ext) (htail : p.tail = [])
    (hfiles : ∀ file ∈ files, '/' ∉ file) :
    runLines (objects title p.folder p.ext p.keep files) = (files.filter p.keep).map p.line := by
  have hended (name : Text) : Ended (objectPiece p.folder p.ext name) := by
    rw [objectPiece_eq]
    exact ended_prompted _ _ _ _
  rw [objects, runLines_append (ended_banner title), runLines_banner htitle, List.nil_append]
  refine runLines_pieces hended (fun name hname => ?_) hfiles
  have hline := runLines_prompted hfolder hname hext List.not_mem_nil []
  rw [List.append_nil] at hline
  rw [objectPiece_eq, hline, htail]
  rfl

theorem ended_pieces {keep : Text → Bool} {piece : Text → Text} (h : ∀ name, Ended (piece name))
    (files : List Text) : Ended (pieces keep piece files) :=
  ended_flatMap (fun file => h (stem file)) _

theorem ended_objects (title folder ext : Text) (keep : Text → Bool) (files : List Text) :
    Ended (objects title folder ext keep files) := by
  refine ended_append (ended_banner title) (ended_pieces (fun name => ?_) files)
  rw [objectPiece_eq]
  exact ended_prompted _ _ _ _

theorem ended_announcement : Ended announcement := ended_of_getLast? (by rfl)

theorem ended_tablePiece (ext tablespace name : Text) : Ended (tablePiece ext tablespace name) := by
  rw [tablePiece_eq]
  exact ended_append ended_announcement (ended_append (ended_prompted _ _ _ _) (ended_newline []))

theorem runLines_tablePiece {ext tablespace : Text} (hext : '\n' ∉ ext)
    (htablespace : '\n' ∉ tablespace) (hname : '/' ∉ name) :
    runLines (tablePiece ext tablespace name) =
      [firstLine (runLine "TABLE" (name ++ "." ++ ext) ++ (" &" ++ tablespace))] := by
  have hannouncement : runLines announcement = [] := by rfl
  have htail : '\n' ∉ (" &" : Text) ++ tablespace := by
    rw [List.mem_append, not_or]
    exact ⟨by decide, htablespace⟩
  rw [tablePiece_eq, runLines_append ended_announcement, hannouncement, List.nil_append,
    runLines_prompted (by decide) hname hext htail]
  rfl

theorem runLines_tableParts {p : Part} {tablespace : Text} {files : List Text}
    (hfolder : p.folder = "TABLE") (htail : p.tail = (" &" : Text) ++ tablespace)
    (hext : '\n' ∉ p.ext) (htablespace : '\n' ∉ tablespace) (hfiles : ∀ file ∈ files, '/' ∉ file) :
    runLines (pieces p.keep (tablePiece p.ext tablespace) files) =
      (files.filter p.keep).map p.line := by
  refine runLines_pieces (ended_tablePiece _ _) (fun name hname => ?_) hfiles
  rw [hfolder, htail]
  exact runLines_tablePiece hext htablespace hname

theorem runLines_tables {files : List Text} (hfiles : ∀ file ∈ files, '/' ∉ file) :
    runLines (tables files) = (files.filter tablesPart.keep).map tablesPart.line := by
  rw [tables, runLines_append (ended_banner _), runLines_banner (by decide), List.nil_append]
  exact runLines_tableParts (p := tablesPart) rfl rfl (by decide) (by decide) hfiles

theorem runLines_indexes {files : List Text} (hfiles : ∀ file ∈ files, '/' ∉ file) :
    runLines (indexes files) = (files.filter indexesPart.keep).map indexesPart.line := by
  rw [indexes, runLines_append (ended_banner _), runLines_banner (by decide), List.nil_append]
  exact runLines_tableParts (p := indexesPart) rfl rfl (by decide) (by decide) hfiles

theorem ended_tables (files : List Text) : Ended (tables files) :=
  ended_append (ended_banner _) (ended_pieces (ended_tablePiece _ _) files)

theorem ended_indexes (files : List Text) : Ended (indexes files) :=
  ended_append (ended_banner _) (ended_pieces (ended_tablePiece _ _) files)

/-- What is set before the loader is called. -/
def loaderSetting : Text :=
  ("DEFINE SQLLDR_SCRIPT=\"&DB_DIR/TOOLS/COMMON/LOAD_SQLLDR.BAT\" \n" : Text) ++
    "prompt SQLLDR_SCRIPT=&SQLLDR_SCRIPT \n"

theorem ended_loaderSetting : Ended loaderSetting := ended_of_getLast? (by rfl)

theorem runLines_loaderSetting : runLines loaderSetting = [] := by rfl

theorem loading_eq (files : List Text) : loading files =
    banner "INIT DATA using SQL Loader" ++ loaderSetting ++
      pieces (endsWith ".DAT") loaderPiece files := by
  delta loading loaderSetting
  simp only [List.append_assoc]

theorem ended_loading (files : List Text) : Ended (loading files) := by
  rw [loading_eq]
  exact ended_append (ended_append (ended_banner _) ended_loaderSetting)
    (ended_pieces ended_loaderPiece files)

theorem runLines_loading {files : List Text} (hfiles : ∀ file ∈ files, '/' ∉ file) :
    runLines (loading files) = [] := by
  have hbanner := ended_banner "INIT DATA using SQL Loader"
  have hpieces : runLines (pieces (endsWith ".DAT") loaderPiece files) = [] := by
    rw [pieces, runLines_flatMap fun file => ended_loaderPiece (stem file),
      List.flatMap_eq_nil_iff]
    intro file hfile
    exact runLines_loaderPiece (slash_notMem_stem (hfiles file (List.mem_filter.mp hfile).1))
  rw [loading_eq, runLines_append (ended_append hbanner ended_loaderSetting),
    runLines_append hbanner, runLines_banner (by decide), runLines_loaderSetting, hpieces]
  rfl

theorem runLines_flatten {blocks : List Text} (h : ∀ block ∈ blocks, Ended block) :
    runLines blocks.flatten = blocks.flatMap runLines := by
  induction blocks with
  | nil => rfl
  | cons block rest ih =>
    rw [List.flatten_cons, List.flatMap_cons, runLines_append (h block List.mem_cons_self),
      ih fun other hother => h other (List.mem_cons_of_mem _ hother)]

theorem ended_releaseInserts (release : Text) : Ended (releaseInserts release) := by
  have hcommit : ("commit;\n" : Text) = ("commit;" : Text) ++ ['\n'] := rfl
  rw [releaseInserts, hcommit]
  simp only [joined, ← List.append_assoc]
  exact ended_newline _

theorem ended_closing : Ended closing := by
  refine ended_of_getLast? ?_
  rw [closing, List.getLast?_append]
  rfl

/-- The line that tells when the script was made. -/
def heading (made : Moment) : Text := lineWith made.text ["--This script was generated on ", ". "]

theorem render_eq (made : Moment) (release : Text) (files : Text → List Text) :
    render made release files =
      [heading made, preamble, statements "TYPE" (files "TYPE"), tables (files "TABLE"),
        statements "SEQUENCE" (files "SEQUENCE"), statements "FUNCTION" (files "FUNCTION"),
        statements "PROCEDURE" (files "PROCEDURE"),
        objects "PACKAGE_HEADER" "PACKAGE" "PKS" (endsWith ".PKS") (files "PACKAGE"),
        statements "VIEW" (files "VIEW"),
        objects "PACKAGE_BODY" "PACKAGE" "PKB" (endsWith ".PKB") (files "PACKAGE"),
        loading (files "INIT_TABLE"), banner "Load application release table",
        releaseInserts release, indexes (files "TABLE"), closing].flatten := by
  have hheading : ("--This script was generated on " : Text) ++ made.text ++ ". \n" =
      heading made := by
    have hdot : (". \n" : Text) = (". " : Text) ++ ("\n" : Text) := rfl
    rw [heading, lineWith, hdot]
    simp only [joined, List.append_assoc]
  delta render
  rw [hheading]
  simp only [List.flatten_cons, List.flatten_nil, List.append_assoc, List.append_nil]

theorem ended_heading (made : Moment) : Ended (heading made) := ended_lineWith _ _

theorem runLines_heading (made : Moment) : runLines (heading made) = [] :=
  runLines_lineWith (slash_notMem_text made) (by decide) (by decide)

/-- The script runs the files that its parts keep, each by one line, and what the note of the
release says. -/
theorem runLines_render (made : Moment) (release : Text) {files : Text → List Text}
    (hfiles : ∀ folder, ∀ file ∈ files folder, '/' ∉ file) :
    runLines (render made release files) = earlyParts.flatMap (Part.lines files) ++
      (runLines (releaseInserts release) ++ indexesPart.lines files) := by
  have hstatements {folder : Text} (htitle : '/' ∉ folder) (hfolder : '\n' ∉ folder) :
      runLines (statements folder (files folder)) = (statementsPart folder).lines files :=
    runLines_objects (p := statementsPart folder) htitle hfolder (by decide : '\n' ∉ ("SQL" : Text))
      rfl (hfiles folder)
  have hheaders : runLines (objects "PACKAGE_HEADER" "PACKAGE" "PKS" (endsWith ".PKS")
      (files "PACKAGE")) = headersPart.lines files :=
    runLines_objects (p := headersPart) (by decide) (by decide) (by decide) rfl (hfiles _)
  have hbodies : runLines (objects "PACKAGE_BODY" "PACKAGE" "PKB" (endsWith ".PKB")
      (files "PACKAGE")) = bodiesPart.lines files :=
    runLines_objects (p := bodiesPart) (by decide) (by decide) (by decide) rfl (hfiles _)
  have htables : runLines (tables (files "TABLE")) = tablesPart.lines files :=
    runLines_tables (hfiles _)
  have hindexes : runLines (indexes (files "TABLE")) = indexesPart.lines files :=
    runLines_indexes (hfiles _)
  rw [render_eq, runLines_flatten]
  · simp only [List.flatMap_cons, List.flatMap_nil, List.append_nil, List.nil_append,
      runLines_heading, runLines_preamble, htables, hheaders, hbodies, hindexes, runLines_closing,
      runLines_loading (hfiles _), earlyParts, List.append_assoc]
    rw [hstatements (by decide) (by decide), hstatements (by decide) (by decide),
      hstatements (by decide) (by decide), hstatements (by decide) (by decide),
      hstatements (by decide) (by decide), runLines_banner (by decide), List.nil_append]
  · simp only [List.forall_mem_cons]
    exact ⟨ended_heading made, ended_preamble, ended_objects _ _ _ _ _, ended_tables _,
      ended_objects _ _ _ _ _, ended_objects _ _ _ _ _, ended_objects _ _ _ _ _,
      ended_objects _ _ _ _ _, ended_objects _ _ _ _ _, ended_objects _ _ _ _ _,
      ended_loading _, ended_banner _, ended_releaseInserts release, ended_indexes _,
      ended_closing, fun block hblock => absurd hblock List.not_mem_nil⟩

/-- All parts that run files. -/
def parts : List Part := earlyParts ++ [indexesPart]

theorem perm_runLines_render (made : Moment) (release : Text) {files : Text → List Text}
    (hfiles : ∀ folder, ∀ file ∈ files folder, '/' ∉ file) :
    (runLines (render made release files)).Perm
      (runLines (releaseInserts release) ++ parts.flatMap (Part.lines files)) := by
  rw [runLines_render made release hfiles, parts, List.flatMap_append, List.flatMap_singleton]
  refine List.perm_append_comm_assoc _ _ _

theorem runLines_releaseInsert {release product : Text} (hrelease : '\n' ∉ release)
    (hproduct : '\n' ∉ product) (t : Text) :
    runLines (releaseInsert release product ++ (("\n" : Text) ++ t)) = runLines t := by
  have hlead :
      IsQuiet "insert into application(product, release_date, release_number)values('" := by
    decide
  have hmiddle : '\n' ∉ ("', sysdate, '" : Text) := by decide
  have hend : '\n' ∉ ("');" : Text) := by decide
  delta releaseInsert
  simp only [List.append_assoc]
  rw [runLines_quiet hlead, laterRuns_append hproduct, laterRuns_append hmiddle,
    laterRuns_append hrelease, laterRuns_append hend, laterRuns_newline]

/-- The note of a release runs no files if it takes one line. -/
theorem runLines_releaseInserts {release : Text} (hrelease : '\n' ∉ release) :
    runLines (releaseInserts release) = [] := by
  have hcommit : runLines ("commit;\n" : Text) = [] := by decide
  rw [releaseInserts]
  simp only [joined, List.append_assoc]
  rw [runLines_releaseInsert hrelease (by decide), runLines_releaseInsert hrelease (by decide),
    hcommit]

theorem folder_of_mem_parts {p : Part} (hp : p ∈ parts) :
    IsName p.folder ∧ p.folder ≠ "TOOLS" ∧ p.folder ≠ "INIT_TABLE" := by
  have hall : ∀ p ∈ parts, IsName p.folder ∧ p.folder ≠ "TOOLS" ∧ p.folder ≠ "INIT_TABLE" := by
    decide
  exact hall p hp

/-- What a part puts around the names of files does not go over the end of a line. -/
theorem newline_notMem_of_mem_parts {p : Part} (hp : p ∈ parts) :
    '\n' ∉ p.folder ∧ '\n' ∉ p.ext ∧ '\n' ∉ p.tail := by
  have hall : ∀ p ∈ parts, '\n' ∉ p.folder ∧ '\n' ∉ p.ext ∧ '\n' ∉ p.tail := by decide
  exact hall p hp

theorem Part.line_eq {p : Part} (hp : p ∈ parts) (file : Text) :
    p.line file = mark ++ p.folder ++ "/" ++ firstLine (p.target file ++ "\"" ++ p.tail) := by
  obtain ⟨hfolder, _, _⟩ := newline_notMem_of_mem_parts hp
  have hlead : '\n' ∉ mark ++ p.folder ++ "/" := by
    simp only [List.mem_append, hfolder, or_false, not_or]
    decide
  rw [firstLine, ← takeWhile_append_of_notMem hlead, Part.line, runLine, firstLine]
  simp only [List.append_assoc]

/-- The folder of a line stops at the slash. -/
theorem Part.line_eq_append_iff {p : Part} {folder file more : Text} (hp : p ∈ parts)
    (hfolder : '/' ∉ folder) :
    p.line file = mark ++ folder ++ "/" ++ more ↔
      p.folder = folder ∧ firstLine (p.target file ++ "\"" ++ p.tail) = more := by
  obtain ⟨hname, _, _⟩ := folder_of_mem_parts hp
  have hseparator (s t : Text) : mark ++ s ++ ("/" : Text) ++ t = mark ++ (s ++ '/' :: t) := by
    simp only [List.append_assoc]
    rfl
  rw [Part.line_eq hp, hseparator, hseparator, List.append_cancel_left_eq]
  constructor
  · intro h
    have hsame := congrArg (List.takeWhile (· != '/')) h
    rw [takeWhile_append_sep, takeWhile_append_sep, takeWhile_of_notMem hname.no_slash,
      takeWhile_of_notMem hfolder] at hsame
    rw [hsame] at h
    exact ⟨hsame, (List.cons.inj (List.append_cancel_left h)).2⟩
  · rintro ⟨rfl, rfl⟩
    rfl

/-- The line names the whole target, unless a line break is in the way. -/
theorem Part.line_of_notMem {p : Part} {file : Text} (hp : p ∈ parts) (hfile : '\n' ∉ stem file) :
    p.line file = runLine p.folder (p.target file) ++ p.tail := by
  obtain ⟨hfolder, hext, htail⟩ := newline_notMem_of_mem_parts hp
  refine takeWhile_of_notMem ?_
  simp only [runLine, Part.target, List.mem_append, hfolder, hfile, hext, htail, or_false, not_or]
  decide

theorem dot_notMem_stem (file : Text) : '.' ∉ stem file := by
  intro hdot
  have hne := List.mem_takeWhile_imp hdot
  simp at hne

theorem stem_append_dot (base t : Text) : stem (base ++ "." ++ t) = stem base := by
  rw [List.append_assoc]
  exact takeWhile_append_sep '.' base t

theorem stem_of_notMem {base : Text} (hbase : '.' ∉ base) : stem base = base :=
  takeWhile_of_notMem hbase

end SchemaPackage.Package.InstallScript
