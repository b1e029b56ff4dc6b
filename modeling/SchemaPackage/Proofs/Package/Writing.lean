import SchemaPackage.Proofs.Package.ControlFiles

/-!
What filling a package writes, file by file. Tables bring texts of their own, and of several texts
that go to one place the last one stays. Program units bring copies of their source files, which
replace what the tables have written in the same place. Whatever else is in the package then was
there before, or belongs to the records.
-/
namespace SchemaPackage

open Job Outcome Text

namespace Compile

open Package Disk

variable {home l : Location} {db staging source target : Path} {e : Encoder}
  {d d' d'' staged : Disk} {S S' : Location → Prop} {files files' : List (Location × Text)}
  {text name base : Text} {kind : UnitKind}

/-- The text that writing one file after another leaves at a place: of several the last one. -/
def lastAt? (l : Location) (files : List (Location × Text)) : Option Text := files.reverse.lookup l

theorem lastAt?_append (l : Location) (files files' : List (Location × Text)) :
    lastAt? l (files ++ files') = (lastAt? l files').or (lastAt? l files) := by
  rw [lastAt?, List.reverse_append, List.lookup_append]
  rfl

theorem mem_of_lastAt?_eq_some (h : lastAt? l files = some text) : (l, text) ∈ files := by
  obtain ⟨before, after, hfiles, _⟩ := List.lookup_eq_some_iff.mp h
  rw [← List.mem_reverse, hfiles]
  exact List.mem_append_right before List.mem_cons_self

theorem lastAt?_eq_none_iff : lastAt? l files = none ↔ ∀ text, (l, text) ∉ files := by
  rw [lastAt?, List.lookup_eq_none_iff]
  constructor
  · intro h text hmem
    have hne := h (l, text) (List.mem_reverse.mpr hmem)
    simp at hne
  · rintro h ⟨place, text⟩ hmem
    rw [bne_iff_ne]
    rintro rfl
    exact h text (List.mem_reverse.mp hmem)

/-- A text that has the place to itself is the last one there. -/
theorem lastAt?_eq_some_of_forall (hmem : (l, text) ∈ files)
    (h : ∀ other, (l, other) ∈ files → other = text) : lastAt? l files = some text := by
  cases hlast : lastAt? l files with
  | none => exact absurd hmem (lastAt?_eq_none_iff.mp hlast text)
  | some other => rw [h other (mem_of_lastAt?_eq_some hlast)]

/-- One disk comes from another by writing files one after another. Besides those, only files in
certain places have changed, and no file is gone. -/
structure Writes (S : Location → Prop) (files : List (Location × Text)) (d d' : Disk) : Prop where
  home : d'.home = d.home
  sound : d.Sound → d'.Sound
  folders : ∀ l, d'.isFolderAt l = d.isFolderAt l
  others : ∀ l, ¬ S l → d'.fileAt? l = ((lastAt? l files).map Content.text).or (d.fileAt? l)
  kept : ∀ l, d'.fileAt? l = none → d.fileAt? l = none

namespace Writes

theorem refl (S : Location → Prop) (d : Disk) : Writes S [] d d where
  home := rfl
  sound := id
  folders _ := rfl
  others _ _ := rfl
  kept _ := id

theorem trans (h : Writes S files d d') (h' : Writes S files' d' d'') :
    Writes S (files ++ files') d d'' where
  home := h'.home.trans h.home
  sound hd := h'.sound (h.sound hd)
  folders l := (h'.folders l).trans (h.folders l)
  others l hl := by
    rw [h'.others l hl, h.others l hl, lastAt?_append]
    cases lastAt? l files' <;> rfl
  kept l hl := h.kept l (h'.kept l hl)

/-- What has happened to a disk may be told less precisely. -/
theorem mono (h : Writes S files d d') (hS : ∀ l, S l → S' l) : Writes S' files d d' where
  home := h.home
  sound := h.sound
  folders := h.folders
  others l hl := h.others l (mt (hS l) hl)
  kept := h.kept

theorem locate?_eq (h : Writes S files d d') (p : Path) : d'.locate? p = d.locate? p :=
  locate?_congr h.home h.folders p

theorem exists_content? (h : Writes S files d d') {p : Path}
    (hc : ∃ c, d.content? p = some c) : ∃ c, d'.content? p = some c := by
  obtain ⟨c, hc⟩ := hc
  rw [content?_eq] at hc
  obtain ⟨l, hlocate, hfile⟩ := Option.bind_eq_some_iff.mp hc
  rw [content?_eq, h.locate?_eq, hlocate, Option.bind_some, ← Option.ne_none_iff_exists']
  intro hnone
  rw [h.kept l hnone] at hfile
  cases hfile

end Writes

theorem fileAt?_ne_none_of_put {c : Content} (hl : l ≠ []) (m : Location)
    (h : (d.put l (.file c)).fileAt? m = none) : m ≠ l ∧ d.fileAt? m = none := by
  rw [fileAt?_put_file hl] at h
  by_cases hm : m = l
  · rw [if_pos hm] at h
    cases h
  · rw [if_neg hm] at h
    exact ⟨hm, h⟩

theorem writes_write {p : Path} {u : Unit} (hp : p.WellFormed)
    (h : write p text d = (.ok u, d')) : Writes S [(p.place d.home, text)] d d' := by
  have hfiles := fileAt?_of_write h
  obtain ⟨_, hne, hfolder, rfl⟩ := write?_eq_some (change_eq_ok h)
  refine ⟨rfl, fun hd => hd.put (hd.isName_of_mem_place hp) _, isFolderAt_put_file hne hfolder,
    fun l _ => ?_, fun l hl => (fileAt?_ne_none_of_put hne l hl).2⟩
  rw [hfiles]
  by_cases hl : l = p.place d.home
  · have hlast : lastAt? l [(p.place d.home, text)] = some text := by
      rw [hl]
      exact List.lookup_cons_self
    rw [if_pos hl, hlast]
    rfl
  · have hlast : lastAt? l [(p.place d.home, text)] = none := by
      rw [lastAt?_eq_none_iff]
      intro other hmem
      exact hl (Prod.mk.inj (List.mem_singleton.mp hmem)).1
    rw [if_neg hl, hlast]
    rfl

theorem writes_write? {p : Path} {c : Content} (hp : p.WellFormed) (hS : S (p.place d.home))
    (h : d.write? p c = some d') : Writes S [] d d' := by
  obtain ⟨_, hne, hfolder, rfl⟩ := write?_eq_some h
  refine ⟨rfl, fun hd => hd.put (hd.isName_of_mem_place hp) _, isFolderAt_put_file hne hfolder,
    fun l hl => ?_, fun l hl => (fileAt?_ne_none_of_put hne l hl).2⟩
  have hother : l ≠ p.place d.home := by
    rintro rfl
    exact hl hS
  rw [fileAt?_put_file hne, if_neg hother]
  rfl

/-- A copy is there once it is made. -/
theorem writes_copy? {p q : Path} (hq : q.WellFormed) (hS : S (q.place d.home))
    (h : d.copy? p q = some d') :
    Writes S [] d d' ∧ ∃ c, d'.content? q = some c := by
  obtain ⟨emptied, c, hempty, _, hwrite⟩ := copy?_eq_some h
  have hfirst := writes_write? hq hS hempty
  have hplace : q.place emptied.home = q.place d.home := by
    rw [hfirst.home]
  have hsecond := writes_write? hq (hplace ▸ hS) hwrite
  refine ⟨hfirst.trans hsecond, c, ?_⟩
  have hlocate := hsecond.locate?_eq q
  obtain ⟨hfound, hne, _, rfl⟩ := write?_eq_some hwrite
  rw [content?_eq, hlocate, hfound, Option.bind_some, fileAt?_put_file hne, if_pos rfl]

/-- Places of the data files that the tables and units are recorded in. -/
def IsRecords (home : Location) (db : Path) (l : Location) : Prop :=
  ∃ k, l = recordsPlace home db k

theorem writes_appendRecords {k : Dictionary} {records : Text} {u : Unit} (hdb : db.WellFormed)
    (hhome : d.home = home) (h : appendRecords db k records d = (.ok u, d')) :
    Writes (IsRecords home db) [] d d' := by
  refine writes_write? (wellFormed_dataFile hdb _) ?_ (change_eq_ok h)
  rw [hhome]
  exact ⟨k, rfl⟩

/-- A loop writes what its jobs write, one after another. -/
theorem forM_writes {α : Type} {job : α → Job Unit} {jobs : List α}
    {files : α → List (Location × Text)} {u : Unit}
    (hjob : ∀ a ∈ jobs, ∀ u d d', d.home = home → job a d = (.ok u, d') →
      Writes S (files a) d d')
    (hhome : d.home = home) (h : jobs.forM job d = (.ok u, d')) :
    Writes S (jobs.flatMap files) d d' := by
  induction jobs generalizing d with
  | nil =>
    cases h
    exact Writes.refl S _
  | cons a rest ih =>
    obtain ⟨u₁, d₁, hfirst, hrest⟩ := bind_eq_ok_iff.mp h
    have hwrites := hjob a List.mem_cons_self u₁ d d₁ hhome hfirst
    exact hwrites.trans (ih (fun b hb => hjob b (List.mem_cons_of_mem a hb))
      (hwrites.home.trans hhome) hrest)

theorem forM_writes_nil {α : Type} {job : α → Job Unit} {jobs : List α} {u : Unit}
    (hjob : ∀ a ∈ jobs, ∀ u d d', d.home = home → job a d = (.ok u, d') → Writes S [] d d')
    (hhome : d.home = home) (h : jobs.forM job d = (.ok u, d')) : Writes S [] d d' := by
  have hwrites := forM_writes hjob hhome h
  rwa [List.flatMap_eq_nil_iff.mpr fun _ _ => rfl] at hwrites

theorem optional_writes {α : Type} {job : α → Job Unit} {a? : Option α}
    {file : α → Location × Text} {u : Unit}
    (hjob : ∀ a, job a d = (.ok u, d') → Writes S [file a] d d')
    (h : a?.forM job d = (.ok u, d')) : Writes S (a?.toList.map file) d d' := by
  cases a? with
  | none =>
    cases h
    exact Writes.refl S _
  | some a => exact hjob a h

section Tables

def tableFile (db : Path) (table : Text) : Path := (db.join "TABLE").join (table ++ ".SQL")

def indexFile (db : Path) (table : Text) : Path := (db.join "TABLE").join (table ++ ".IDX.SQL")

/-- The text for the control file of a table that is loaded. -/
def controlText? (t : Table) : Option Text := t.controlFile.toOption.join

/-- The files of a table with their texts, in the order in which they are written. -/
def tableFiles (home : Location) (db : Path) (t : Table) : List (Location × Text) :=
  ((tableFile db t.name).place home, t.statement) ::
    ((if t.indexes.isEmpty then none else some t.indexStatements).toList.map
        fun text => ((indexFile db t.name).place home, text)) ++
      (controlText? t).toList.map fun text => (controlPlace home db t.name, text)

/-- The same for what is rendered for a table. -/
def artifactFiles (home : Location) (db : Path) (a : Artifacts) : List (Location × Text) :=
  ((tableFile db a.name).place home, a.tableStatement) ::
    (a.indexStatements.toList.map fun text => ((indexFile db a.name).place home, text)) ++
      a.controlFile.toList.map fun text => (controlPlace home db a.name, text)

theorem artifactFiles_eq {t : Table} {a : Artifacts} (h : Artifacts.render e t = .ok a) :
    artifactFiles home db a = tableFiles home db t := by
  obtain ⟨control, _, _, _, hcontrol, _, _, _, rfl⟩ := Artifacts.render_eq_ok h
  have htext : controlText? t = control := by
    rw [controlText?, hcontrol]
    rfl
  rw [tableFiles, htext]
  rfl

theorem flatMap_artifactFiles {tables : List Table} {artifacts : List Artifacts}
    (h : List.Forall₂ (fun t a => Artifacts.render e t = .ok a) tables artifacts) :
    artifacts.flatMap (artifactFiles home db) = tables.flatMap (tableFiles home db) := by
  induction h with
  | nil => rfl
  | cons hrender _ ih => rw [List.flatMap_cons, List.flatMap_cons, artifactFiles_eq hrender, ih]

theorem exists_controlFile {tables : List Table} {artifacts : List Artifacts}
    (h : List.Forall₂ (fun t a => Artifacts.render e t = .ok a) tables artifacts) :
    ∀ t ∈ tables, ∃ control?, t.controlFile = .ok control? := by
  induction h with
  | nil => exact fun t ht => absurd ht List.not_mem_nil
  | cons hrender _ ih =>
    exact List.forall_mem_cons.mpr ⟨⟨_, (controlFile_of_render hrender).2⟩, ih⟩

theorem writes_writeArtifacts {a : Artifacts} {u : Unit} (hdb : db.WellFormed)
    (hhome : d.home = home) (h : writeArtifacts db a d = (.ok u, d')) :
    Writes S (artifactFiles home db a) d d' := by
  have hfolder : (db.join "TABLE").WellFormed := hdb.join _
  have hrecords : (recordsFolder db).WellFormed := hdb.join _
  rw [writeArtifacts_eq] at h
  obtain ⟨_, d₁, hstatement, hrest⟩ := bind_eq_ok_iff.mp h
  obtain ⟨_, d₂, hindexes, hcontrol⟩ := bind_eq_ok_iff.mp hrest
  have hfirst : Writes S [((tableFile db a.name).place d.home, a.tableStatement)] d d₁ :=
    writes_write (hfolder.join _) hstatement
  have hsecond : Writes S _ d₁ d₂ :=
    optional_writes (fun _ hwrite => writes_write (hfolder.join _) hwrite) hindexes
  have hthird : Writes S _ d₂ d' :=
    optional_writes (fun _ hwrite => writes_write (hrecords.join _) hwrite) hcontrol
  rw [hsecond.home, hfirst.home] at hthird
  rw [hfirst.home] at hsecond
  have hall := (hfirst.trans hsecond).trans hthird
  rw [hhome] at hall
  exact hall

theorem writes_addTable {a : Artifacts} {u : Unit} (hdb : db.WellFormed)
    (hhome : d.home = home) (h : addTable db a d = (.ok u, d')) :
    Writes (IsRecords home db) (artifactFiles home db a) d d' := by
  obtain ⟨_, d₁, hwrite, hrest₁⟩ := bind_eq_ok_iff.mp h
  obtain ⟨_, d₂, hcolumns, hrest₂⟩ := bind_eq_ok_iff.mp hrest₁
  obtain ⟨_, d₃, hobject, hindexes⟩ := bind_eq_ok_iff.mp hrest₂
  have hfirst : Writes (IsRecords home db) (artifactFiles home db a) d d₁ :=
    writes_writeArtifacts hdb hhome hwrite
  have hsecond := writes_appendRecords hdb (hfirst.home.trans hhome) hcolumns
  have hthird := writes_appendRecords hdb (hsecond.home.trans (hfirst.home.trans hhome)) hobject
  have hhome₃ : d₃.home = home :=
    hthird.home.trans (hsecond.home.trans (hfirst.home.trans hhome))
  have hall := ((hfirst.trans hsecond).trans hthird).trans
    (writes_appendRecords hdb hhome₃ hindexes)
  rwa [List.append_nil, List.append_nil, List.append_nil] at hall

/-- Of the staged tables each writes its files, one table after another. -/
theorem writes_generateTables {choice : FaultChoice} {tracked : Bool} {ctx : Context} {u : Unit}
    (hdb : db.WellFormed) (hctx : ctx.Reachable) (hhome : d.home = home)
    (h : generateTables choice e staging db tracked ctx d = (.ok u, d')) :
    ∃ tables, TablesIn d (staging.join "TABLE") tracked tables ∧
      (∀ t ∈ tables, ∃ control?, t.controlFile = .ok control?) ∧
      Writes (IsRecords home db) (tables.flatMap (tableFiles home db)) d d' := by
  obtain ⟨names, _, hnames, hrest₁⟩ := bind_eq_ok_iff.mp h
  obtain ⟨rfl, rfl⟩ := descriptionNames_eq_ok hnames
  obtain ⟨tables, _, hparse, hrest₂⟩ := bind_eq_ok_iff.mp hrest₁
  obtain ⟨hsame, parsed, hparsed, htables⟩ := parseTables_eq_ok hctx hparse
  obtain rfl := hsame.symm
  obtain ⟨artifacts, _, hlift, hrest₃⟩ := bind_eq_ok_iff.mp hrest₂
  obtain ⟨hall, rfl⟩ := lift_eq_ok_iff.mp hlift
  have hrender := Artifacts.forall₂_of_renderAll hall
  obtain ⟨_, d₁, hempty, hadd⟩ := bind_eq_ok_iff.mp hrest₃
  have hrecords : Writes (IsRecords home db) [] d d₁ :=
    forM_writes_nil (fun _ _ _ _ _ hhome happend => writes_appendRecords hdb hhome happend)
      hhome hempty
  have hfiles := forM_writes (fun _ _ _ _ _ hhome hadd => writes_addTable hdb hhome hadd)
    (hrecords.home.trans hhome) hadd
  have hall := hrecords.trans hfiles
  rw [List.nil_append, flatMap_artifactFiles hrender] at hall
  exact ⟨tables, ⟨_, parsed, lists_descriptions _ _, hparsed, htables⟩,
    exists_controlFile hrender, hall⟩

end Tables

end Compile
end SchemaPackage
