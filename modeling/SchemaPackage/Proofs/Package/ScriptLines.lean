import SchemaPackage.Proofs.Disk.Places
import SchemaPackage.Proofs.Table.IndexNames
import SchemaPackage.Proofs.Text.Entries
import SchemaPackage.Package.InstallScript

/-!
The lines of a script that run files of the package. The pieces a script is put together from stop
where a line ends, so its lines are those of the pieces. An announced file makes one line; banners,
loader calls and closing remarks make none. Names may bring line breaks into a script, but no
slashes, and so no further lines that run something.
-/
namespace SchemaPackage

open Text

namespace Text

variable {sep : Char} {s t x : Text}

theorem split_eq_cons (sep : Char) (t : Text) :
    split sep t = t.takeWhile (· != sep) :: (split sep t).tail := by
  induction t with
  | nil => rfl
  | cons c rest ih =>
    by_cases hc : c = sep
    · rw [split, if_pos hc, List.takeWhile_cons_of_neg (by simp [hc])]
      rfl
    · rw [split_cons_of_ne hc ih, List.takeWhile_cons_of_pos (by simp [hc])]
      rfl

theorem tail_split_append (hx : sep ∉ x) (t : Text) :
    (split sep (x ++ t)).tail = (split sep t).tail := by
  induction x with
  | nil => rfl
  | cons c rest ih =>
    rw [List.mem_cons, not_or] at hx
    rw [List.cons_append, split_cons_of_ne (Ne.symm hx.1) (split_eq_cons sep (rest ++ t))]
    exact ih hx.2

theorem takeWhile_append_sep (sep : Char) (s t : Text) :
    (s ++ sep :: t).takeWhile (· != sep) = s.takeWhile (· != sep) := by
  induction s with
  | nil => simp
  | cons c rest ih => rw [List.cons_append, List.takeWhile_cons, List.takeWhile_cons, ih]

theorem takeWhile_append_of_mem (h : sep ∈ s) (t : Text) :
    (s ++ t).takeWhile (· != sep) = s.takeWhile (· != sep) := by
  obtain ⟨front, rest, rfl⟩ := List.append_of_mem h
  rw [List.append_assoc, List.cons_append, takeWhile_append_sep, takeWhile_append_sep]

theorem takeWhile_append_of_notMem (h : sep ∉ s) (t : Text) :
    (s ++ t).takeWhile (· != sep) = s ++ t.takeWhile (· != sep) := by
  refine List.takeWhile_append_of_pos fun c hc => ?_
  rw [bne_iff_ne]
  rintro rfl
  exact h hc

theorem takeWhile_of_notMem (h : sep ∉ s) : s.takeWhile (· != sep) = s := by
  have hall := takeWhile_append_of_notMem h []
  rwa [List.append_nil, List.takeWhile_nil, List.append_nil] at hall

end Text

namespace Package.InstallScript

variable {s t x name folder ext rest : Text}

/-- How the path of a file of the package begins. -/
def opening : Text := "\"&DB_DIR/"

/-- How a line begins that runs a file of the package. -/
def mark : Text := ("@" : Text) ++ opening

/-- The line that runs a file of a folder, as far as the file goes. -/
def runLine (folder file : Text) : Text := mark ++ folder ++ "/" ++ file ++ "\""

/-- The lines of a script that run files of the package. -/
def runLines (script : Text) : List Text := (split '\n' script).filter (beginsWith mark)

/-- Those of them that come after the first line. -/
def laterRuns (script : Text) : List Text := (split '\n' script).tail.filter (beginsWith mark)

def firstLine (t : Text) : Text := t.takeWhile (· != '\n')

/-- The text stops where a line ends. -/
def Ended (t : Text) : Prop := t = [] ∨ ∃ front, t = front ++ ['\n']

theorem ended_append (hs : Ended s) (ht : Ended t) : Ended (s ++ t) := by
  rcases ht with rfl | ⟨front, rfl⟩
  · rwa [List.append_nil]
  · exact Or.inr ⟨s ++ front, (List.append_assoc s front ['\n']).symm⟩

theorem ended_newline (s : Text) : Ended (s ++ ['\n']) := Or.inr ⟨s, rfl⟩

theorem ended_of_getLast? (h : t.getLast? = some '\n') : Ended t :=
  Or.inr ⟨t.dropLast, (List.dropLast_append_getLast? '\n' h).symm⟩

theorem ended_flatMap {α : Type} {f : α → Text} (h : ∀ a, Ended (f a)) (l : List α) :
    Ended (l.flatMap f) := by
  induction l with
  | nil => exact Or.inl rfl
  | cons a rest ih => exact ended_append (h a) ih

theorem beginsWith_mark_iff : beginsWith mark t = true ↔ mark <+: t := after?_isSome_iff

/-- The lines of two texts on end are the lines of both, if a line ends between them. -/
theorem runLines_append (hs : Ended s) (t : Text) :
    runLines (s ++ t) = runLines s ++ runLines t := by
  rcases hs with rfl | ⟨front, rfl⟩
  · rfl
  · have hlast : (split '\n' (front ++ ['\n'])).filter (beginsWith mark) =
        (split '\n' front).filter (beginsWith mark) := by
      rw [split_append_cons, List.filter_append]
      exact List.append_nil _
    rw [runLines, runLines, runLines, hlast, ← List.filter_append, ← split_append_cons,
      List.append_assoc]
    rfl

theorem runLines_flatMap {α : Type} {f : α → Text} (h : ∀ a, Ended (f a)) (l : List α) :
    runLines (l.flatMap f) = l.flatMap fun a => runLines (f a) := by
  induction l with
  | nil => rfl
  | cons a rest ih => rw [List.flatMap_cons, List.flatMap_cons, runLines_append (h a), ih]

theorem laterRuns_append (hx : '\n' ∉ x) (t : Text) : laterRuns (x ++ t) = laterRuns t := by
  rw [laterRuns, tail_split_append hx, laterRuns]

theorem laterRuns_newline (t : Text) : laterRuns (("\n" : Text) ++ t) = runLines t := rfl

theorem runLines_of_unmarked (h : ¬ mark <+: t) : runLines t = laterRuns t := by
  have hfirst : ¬ beginsWith mark (t.takeWhile (· != '\n')) = true := by
    rw [beginsWith_mark_iff]
    exact fun hline => h (hline.trans (List.takeWhile_prefix _))
  rw [runLines, split_eq_cons, List.filter_cons_of_neg hfirst, laterRuns]

theorem runLines_of_marked (h : mark <+: t) : runLines t = firstLine t :: laterRuns t := by
  have hmark : '\n' ∉ mark := by decide
  have hfirst : beginsWith mark (firstLine t) = true := by
    obtain ⟨more, rfl⟩ := h
    rw [beginsWith_mark_iff, firstLine, takeWhile_append_of_notMem hmark]
    exact List.prefix_append _ _
  rw [runLines, split_eq_cons]
  exact List.filter_cons_of_pos hfirst

theorem not_prefix_append (hx : ¬ x <+: mark) (hmark : ¬ mark <+: x) (t : Text) :
    ¬ mark <+: x ++ t := by
  intro h
  rcases List.prefix_or_prefix_of_prefix h (List.prefix_append x t) with h | h
  · exact hmark h
  · exact hx h

/-- What a line may begin with that runs nothing, however it goes on. -/
def IsQuiet (x : Text) : Prop := '\n' ∉ x ∧ ¬ x <+: mark ∧ ¬ mark <+: x
deriving Decidable

theorem runLines_quiet (hx : IsQuiet x) (t : Text) : runLines (x ++ t) = laterRuns t := by
  obtain ⟨hline, hback, hmark⟩ := hx
  rw [runLines_of_unmarked (not_prefix_append hback hmark t), laterRuns_append hline]

/-- What may follow a name within a line: nothing that would go on with the mark. -/
def Follows (x : Text) : Prop := '\n' ∉ x ∧ (x.head? = some ' ' ∨ x.head? = some '.')
deriving Decidable

theorem not_prefix_of_name (hname : '/' ∉ name) (hx : Follows x) (t : Text) :
    ¬ mark <+: name ++ (x ++ t) := by
  obtain ⟨_, hhead⟩ := hx
  have hsep (c : Char) (hc : x.head? = some c) (hmem : c ∉ mark) :
      ¬ mark <+: name ++ (x ++ t) := by
    obtain ⟨more, rfl⟩ := List.head?_eq_some_iff.mp hc
    rw [List.cons_append, prefix_append_cons_iff hmem]
    intro hmark
    exact hname (hmark.subset (by decide))
  rcases hhead with hhead | hhead
  · exact hsep ' ' hhead (by decide)
  · exact hsep '.' hhead (by decide)

/-- A name without slashes makes no lines that run something, even if it has line breaks. -/
theorem laterRuns_name (hname : '/' ∉ name) (hx : Follows x) (t : Text) :
    laterRuns (name ++ (x ++ t)) = laterRuns t := by
  induction name with
  | nil => exact laterRuns_append hx.1 t
  | cons c rest ih =>
    rw [List.mem_cons, not_or] at hname
    by_cases hc : c = '\n'
    · subst hc
      change runLines (rest ++ (x ++ t)) = laterRuns t
      rw [runLines_of_unmarked (not_prefix_of_name hname.2 hx t)]
      exact ih hname.2
    · have hone : '\n' ∉ [c] := by simpa using Ne.symm hc
      have hstep := laterRuns_append hone (rest ++ (x ++ t))
      exact hstep.trans (ih hname.2)

theorem firstLine_append_newline (s t : Text) :
    firstLine (s ++ (("\n" : Text) ++ t)) = firstLine s :=
  takeWhile_append_sep '\n' s t

/-- A file as the script writes it, with what is handed to it behind. -/
def quoted (folder name ext tail : Text) : Text :=
  opening ++ (folder ++ "/") ++ (name ++ (("." ++ ext ++ "\"" ++ tail) ++ ("\n" : Text)))

/-- A file is announced and then run. -/
def prompted (folder name ext tail : Text) : Text :=
  ("prompt " : Text) ++ quoted folder name ext tail ++ (("@" : Text) ++ quoted folder name ext tail)

theorem newline_notMem_lead (hfolder : '\n' ∉ folder) : '\n' ∉ opening ++ (folder ++ "/") := by
  simp only [List.mem_append, hfolder, false_or, not_or]
  decide

theorem follows_tail {tail : Text} (hext : '\n' ∉ ext) (htail : '\n' ∉ tail) :
    Follows (("." : Text) ++ ext ++ "\"" ++ tail) := by
  refine ⟨?_, Or.inr rfl⟩
  simp only [List.mem_append, hext, htail, or_false, not_or]
  decide

theorem laterRuns_quoted {tail : Text} (hfolder : '\n' ∉ folder) (hname : '/' ∉ name)
    (hext : '\n' ∉ ext) (htail : '\n' ∉ tail) (t : Text) :
    laterRuns (quoted folder name ext tail ++ t) = runLines t := by
  have hassoc : quoted folder name ext tail ++ t = (opening ++ (folder ++ "/")) ++
      (name ++ (("." ++ ext ++ "\"" ++ tail) ++ (("\n" : Text) ++ t))) := by
    rw [quoted]
    simp only [List.append_assoc]
  rw [hassoc, laterRuns_append (newline_notMem_lead hfolder),
    laterRuns_name hname (follows_tail hext htail), laterRuns_newline]

/-- A file that is announced and run makes one line, which may be cut at a line break. -/
theorem runLines_prompted {tail : Text} (hfolder : '\n' ∉ folder) (hname : '/' ∉ name)
    (hext : '\n' ∉ ext) (htail : '\n' ∉ tail) (t : Text) :
    runLines (prompted folder name ext tail ++ t) =
      firstLine (runLine folder (name ++ "." ++ ext) ++ tail) :: runLines t := by
  have hprompt : IsQuiet "prompt " := by decide
  have hat : '\n' ∉ ("@" : Text) := by decide
  have hmark : mark <+: ("@" : Text) ++ (quoted folder name ext tail ++ t) := by
    rw [mark, quoted]
    simp only [List.append_assoc, List.prefix_append_right_inj]
    exact List.prefix_append _ _
  have hline : ("@" : Text) ++ (quoted folder name ext tail ++ t) =
      (runLine folder (name ++ "." ++ ext) ++ tail) ++ (("\n" : Text) ++ t) := by
    rw [runLine, mark, quoted]
    simp only [List.append_assoc]
  delta prompted
  rw [List.append_assoc, List.append_assoc, List.append_assoc, runLines_quiet hprompt,
    laterRuns_quoted hfolder hname hext htail, runLines_of_marked hmark, laterRuns_append hat,
    laterRuns_quoted hfolder hname hext htail, hline, firstLine_append_newline]

theorem ended_prompted (folder name ext tail : Text) : Ended (prompted folder name ext tail) := by
  refine Or.inr ⟨("prompt " : Text) ++ quoted folder name ext tail ++ (("@" : Text) ++
    (opening ++ (folder ++ "/") ++ (name ++ ("." ++ ext ++ "\"" ++ tail)))), ?_⟩
  have hnewline : ("\n" : Text) = ['\n'] := rfl
  delta prompted
  rw [quoted, hnewline]
  simp only [List.append_assoc]

theorem objectPiece_eq (folder ext name : Text) :
    objectPiece folder ext name = prompted folder name ext [] := by
  have hpiece : objectPiece folder ext name = (("prompt " : Text) ++
      (opening ++ folder ++ "/" ++ name ++ "." ++ ext ++ (("\"" : Text) ++ "\n"))) ++ "@" ++
        (opening ++ folder ++ "/" ++ name ++ "." ++ ext ++ (("\"" : Text) ++ "\n")) := rfl
  delta prompted
  rw [hpiece, quoted]
  simp only [List.append_assoc, List.nil_append]

/-- What is set before a table is created. -/
def announcement : Text := "set feed on heading on timing on term on\n"

theorem tablePiece_eq (ext tablespace name : Text) :
    tablePiece ext tablespace name =
      announcement ++ (prompted "TABLE" name ext (" &" ++ tablespace) ++ ("\n" : Text)) := by
  have hpiece : tablePiece ext tablespace name = ((announcement ++ "prompt ") ++
      ((opening ++ (("TABLE" : Text) ++ "/")) ++ name ++ "." ++ ext ++ (("\"" : Text) ++ " &") ++
        tablespace ++ "\n")) ++ "@" ++
      ((opening ++ (("TABLE" : Text) ++ "/")) ++ name ++ "." ++ ext ++ (("\"" : Text) ++ " &") ++
        tablespace ++ "\n") ++ "\n" := rfl
  delta prompted
  rw [hpiece, quoted]
  simp only [List.append_assoc]

/-- A line of a script that has a name in its gaps. -/
def lineWith (name : Text) (pieces : List Text) : Text := joined name pieces ++ ("\n" : Text)

theorem exists_joined_cons (sep first : Text) (rest : List Text) :
    ∃ more, joined sep (first :: rest) = first ++ more := by
  cases rest with
  | nil => exact ⟨[], (List.append_nil first).symm⟩
  | cons next rest => exact ⟨_, List.append_assoc _ _ _⟩

theorem laterRuns_joined {lead : Text} {pieces : List Text} (hname : '/' ∉ name)
    (hlead : '\n' ∉ lead) (hpieces : ∀ piece ∈ pieces, Follows piece) (t : Text) :
    laterRuns (joined name (lead :: pieces) ++ t) = laterRuns t := by
  induction pieces generalizing lead with
  | nil => exact laterRuns_append hlead t
  | cons piece rest ih =>
    have hpiece := hpieces piece List.mem_cons_self
    have hrest := ih hpiece.1 fun other hother => hpieces other (List.mem_cons_of_mem _ hother)
    obtain ⟨more, hmore⟩ := exists_joined_cons name piece rest
    have hjoined : joined name (lead :: piece :: rest) ++ t =
        lead ++ (name ++ (piece ++ (more ++ t))) := by
      have hstep : joined name (lead :: piece :: rest) =
          lead ++ name ++ joined name (piece :: rest) := rfl
      rw [hstep, hmore]
      simp only [List.append_assoc]
    rw [hmore, List.append_assoc, laterRuns_append hpiece.1] at hrest
    rw [hjoined, laterRuns_append hlead, laterRuns_name hname hpiece, hrest]

theorem runLines_lineWith {lead : Text} {pieces : List Text} (hname : '/' ∉ name)
    (hlead : IsQuiet lead) (hpieces : ∀ piece ∈ pieces, Follows piece) :
    runLines (lineWith name (lead :: pieces)) = [] := by
  obtain ⟨more, hmore⟩ := exists_joined_cons name lead pieces
  have hlater := laterRuns_joined hname hlead.1 hpieces ("\n" : Text)
  rw [hmore, List.append_assoc, laterRuns_append hlead.1] at hlater
  rw [lineWith, hmore, List.append_assoc, runLines_quiet hlead, hlater]
  rfl

theorem ended_lineWith (name : Text) (pieces : List Text) : Ended (lineWith name pieces) :=
  ended_newline _

/-- The lines of a call of the loader, with gaps for the table. -/
def loaderLines : List (List Text) :=
  let call : List Text :=
    ["host \"&SQLLDR_SCRIPT\" ", " \"&NEW_CENTRAL_CONNECTION\" " ++ "\"&DB_DIR/INIT_TABLE/",
      ".DAT\" \"&DB_DIR/INIT_TABLE/", ".CTL\" \"&OUTPUT_DIR\""]
  [["set feed on heading on timing on term on"],
    ["prompt Loading ", " with SQL*Loader..."],
    ["exec EXEC_IMMEDIATE('alter table ", " disable all triggers');"],
    ("prompt " ++ call.headD []) :: call.tail,
    call,
    ["prompt \"&OUTPUT_DIR/LOAD_SQLLDR.RC\""],
    ["@\"&OUTPUT_DIR/LOAD_SQLLDR.RC\""],
    ["exec EXEC_IMMEDIATE('alter table ", " enable all triggers');"]]

theorem loaderPiece_eq (table : Text) :
    loaderPiece table = loaderLines.flatMap (lineWith table) ++ ("\n" : Text) := by
  delta loaderPiece loaderLines
  simp only [joined, List.flatMap_cons, List.flatMap_nil, lineWith, List.append_assoc,
    List.headD_cons, List.tail_cons, List.append_nil]

/-- No line of a loader call begins with a gap, and what is behind a gap does not go on with the
mark. -/
theorem quiet_of_mem_loaderLines : ∀ line ∈ loaderLines, ∃ lead pieces, line = lead :: pieces ∧
    IsQuiet lead ∧ ∀ piece ∈ pieces, Follows piece := by
  have hall : ∀ line ∈ loaderLines, line ≠ [] ∧ IsQuiet (line.headD []) ∧
      ∀ piece ∈ line.tail, Follows piece := by
    decide +kernel
  intro line hline
  obtain ⟨hne, hlead, hpieces⟩ := hall line hline
  obtain ⟨lead, pieces, rfl⟩ := List.exists_cons_of_ne_nil hne
  exact ⟨lead, pieces, rfl, hlead, hpieces⟩

/-- The loader is called without running a file of the package. -/
theorem runLines_loaderPiece {table : Text} (htable : '/' ∉ table) :
    runLines (loaderPiece table) = [] := by
  rw [loaderPiece_eq, runLines_append (ended_flatMap (ended_lineWith table) loaderLines),
    runLines_flatMap (ended_lineWith table)]
  have hlines : (loaderLines.flatMap fun pieces => runLines (lineWith table pieces)) = [] := by
    rw [List.flatMap_eq_nil_iff]
    intro line hline
    obtain ⟨lead, pieces, rfl, hlead, hpieces⟩ := quiet_of_mem_loaderLines line hline
    exact runLines_lineWith htable hlead hpieces
  rw [hlines]
  rfl

theorem ended_loaderPiece (table : Text) : Ended (loaderPiece table) := by
  rw [loaderPiece_eq]
  exact ended_newline _

theorem ended_rule : Ended rule := ended_of_getLast? (by rfl)

theorem runLines_rule : runLines rule = [] := by rfl

theorem banner_eq (title : Text) : banner title =
    rule ++ lineWith title ["-- CREATE ", " "] ++ rule ++
      (lineWith title ["prompt --- CREATE ", " "] ++
        lineWith title ["set echo off timing off "]) := by
  have hbanner : banner title = rule ++ "-- CREATE " ++ title ++ ((" " : Text) ++ "\n") ++ rule ++
      "prompt --- CREATE " ++ title ++
        ((" " : Text) ++ ((("\n" : Text) ++ "set echo off timing off ") ++ "\n")) := rfl
  rw [hbanner]
  simp only [lineWith, joined, List.append_assoc]

theorem ended_banner (title : Text) : Ended (banner title) := by
  rw [banner_eq]
  exact ended_append (ended_append (ended_append ended_rule (ended_lineWith _ _)) ended_rule)
    (ended_append (ended_lineWith _ _) (ended_lineWith _ _))

theorem runLines_banner {title : Text} (htitle : '/' ∉ title) : runLines (banner title) = [] := by
  have hspace : ∀ piece ∈ [(" " : Text)], Follows piece := by decide
  have hnone : ∀ piece ∈ ([] : List Text), Follows piece := by decide
  have hrule := ended_append ended_rule (ended_lineWith title ["-- CREATE ", " "])
  rw [banner_eq, runLines_append (ended_append hrule ended_rule), runLines_append hrule,
    runLines_append ended_rule, runLines_append (ended_lineWith _ _), runLines_rule,
    runLines_lineWith htitle (by decide) hspace, runLines_lineWith htitle (by decide) hspace,
    runLines_lineWith htitle (by decide) hnone]
  rfl

set_option maxRecDepth 4000 in
theorem runLines_preamble : runLines preamble = [] := by rfl

theorem ended_preamble : Ended preamble := by
  have hlast : ("set serveroutput on size unlimited \n" : Text).getLast? = some '\n' := by rfl
  refine ended_of_getLast? ?_
  rw [preamble]
  simp only [joined, List.getLast?_append, hlast, Option.some_or]

set_option maxRecDepth 4000 in
theorem runLines_closing : runLines closing = [] := by rfl

theorem slash_notMem_getD {names : List Text} (h : ∀ name ∈ names, '/' ∉ name) (n : Nat) :
    '/' ∉ names.getD n [] := by
  rw [List.getD_eq_getElem?_getD]
  cases hn : names[n]? with
  | none => exact List.not_mem_nil
  | some name => exact h name (List.mem_of_getElem? hn)

theorem slash_notMem_decimal (n : Nat) : '/' ∉ decimal n := fun h =>
  absurd (isDigit_of_mem_decimal h) (by decide)

theorem slash_notMem_twoPlaces {filler : Text} (hfiller : '/' ∉ filler) (n : Nat) :
    '/' ∉ Moment.twoPlaces filler n := by
  unfold Moment.twoPlaces
  split
  · rw [List.mem_append, not_or]
    exact ⟨hfiller, slash_notMem_decimal n⟩
  · exact slash_notMem_decimal n

theorem slash_notMem_text (made : Moment) : '/' ∉ made.text := by
  have hweekdays : ∀ name ∈ Moment.weekdayNames, '/' ∉ name := by decide
  have hmonths : ∀ name ∈ Moment.monthNames, '/' ∉ name := by decide
  have hweekday := slash_notMem_getD hweekdays (made.weekday - 1)
  have hmonth := slash_notMem_getD hmonths (made.month - 1)
  have hspace (n : Nat) : '/' ∉ Moment.twoPlaces " " n := slash_notMem_twoPlaces (by decide) n
  have hzero (n : Nat) : '/' ∉ Moment.twoPlaces "0" n := slash_notMem_twoPlaces (by decide) n
  have hyear := slash_notMem_decimal made.year
  have hblank : '/' ∉ (" " : Text) := by decide
  have hcolon : '/' ∉ (":" : Text) := by decide
  simp only [Moment.text, List.mem_append, not_or]
  simp only [hweekday, hmonth, hspace, hzero, hyear, hblank, hcolon, not_false_eq_true, and_self]

end Package.InstallScript

end SchemaPackage
