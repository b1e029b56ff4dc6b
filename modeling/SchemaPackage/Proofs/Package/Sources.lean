import SchemaPackage.Proofs.Package.Writing

/-!
The source files of program units. A description in the folder of a kind is for the source files
next to it that have its name, and the folder says which extensions those have. All of them can be
read in the package as soon as the units are generated.
-/
namespace SchemaPackage

open Job Outcome Text

theorem eq_of_extension? {name base ext : Text} (h : extension? name = some (base, ext)) :
    name = base ++ "." ++ ext := by
  unfold extension? at h
  split at h
  · rename_i last first more hsplit
    dsimp only at h
    split at h
    · cases h
    · obtain ⟨rfl, rfl⟩ := Prod.mk.inj (Option.some.inj h)
      have hpieces := congrArg List.reverse hsplit
      rw [List.reverse_reverse, List.reverse_cons] at hpieces
      have hjoined : joined "." (split '.' name) = name := joined_split '.' name
      rw [← hjoined, hpieces, joined_append (by simp) (List.cons_ne_nil _ _)]
      rfl
  · cases h

namespace Compile

open Package Disk

variable {home l : Location} {db staging source target : Path} {e : Encoder}
  {d d' staged : Disk} {S : Location → Prop} {name base ext : Text} {kind : UnitKind}

theorem UnitKind.mem_all (kind : UnitKind) : kind ∈ UnitKind.all := by
  cases kind <;> decide

theorem isName_unitKind (kind : UnitKind) : IsName kind.name := by
  cases kind <;> decide

/-- A file of a folder describes a program unit whose source files are called `base`. -/
structure DescribesSources (d : Disk) (source : Path) (name base : Text) : Prop where
  extension : ∃ ext, extension? name = some (base, ext)
  ne_dot : base ≠ "."
  described : ∃ u, DescribesUnit d source name (some u)

/-- The staged folder of a kind has a description for source files that are called `base`. -/
def HasSources (staged : Disk) (staging : Path) (kind : UnitKind) (base : Text) : Prop :=
  ∃ name ∈ staged.descriptions (staging.join kind.name),
    DescribesSources staged (staging.join kind.name) name base

def sourceFile (db : Path) (kind : UnitKind) (base ext : Text) : Path :=
  (db.join kind.name).join (base ++ "." ++ ext)

theorem length_of_mem_extensions (h : ext ∈ kind.extensions) : ext.length = 3 ∧ '/' ∉ ext := by
  have hall : ∀ ext ∈ kind.extensions, ext.length = 3 ∧ '/' ∉ ext := by
    cases kind <;> decide
  exact hall ext h

theorem isName_source (hbase : '/' ∉ base) (hext : ext ∈ kind.extensions) :
    IsName (base ++ "." ++ ext) := by
  obtain ⟨hlength, hslash⟩ := length_of_mem_extensions hext
  refine isName_of_length ?_ ?_
  · simp only [List.length_append, hlength]
    omega
  · rw [List.mem_append, List.mem_append, not_or, not_or]
    exact ⟨⟨hbase, by decide⟩, hslash⟩

theorem place_join_join {folder file : Text} (hfolder : IsName folder) (hfile : IsName file) :
    ((db.join folder).join file).place home = filePlace home db folder file := by
  rw [Path.place_join hfile, Path.place_join hfolder, List.append_assoc]
  rfl

theorem HasSources.no_slash (h : HasSources staged staging kind base) (hd : staged.Sound) :
    '/' ∉ base := by
  obtain ⟨name, hname, ⟨ext, hext⟩, _, _⟩ := h
  have hslash := (hd.of_mem_descriptions hname).1.no_slash
  rw [eq_of_extension? hext, List.append_assoc, List.mem_append, not_or] at hslash
  exact hslash.1

theorem place_sourceFile (hbase : '/' ∉ base) (hext : ext ∈ kind.extensions) :
    (sourceFile db kind base ext).place home =
      filePlace home db kind.name (base ++ "." ++ ext) :=
  place_join_join (isName_unitKind kind) (isName_source hbase hext)

/-- Places of source files that are taken over. -/
def IsSource (home : Location) (db staging : Path) (staged : Disk) (l : Location) : Prop :=
  ∃ kind base ext, HasSources staged staging kind base ∧ ext ∈ kind.extensions ∧
    l = filePlace home db kind.name (base ++ "." ++ ext)

/-- Places that generating the units writes to. -/
def IsGenerated (home : Location) (db staging : Path) (staged : Disk) (l : Location) : Prop :=
  IsRecords home db l ∨ IsSource home db staging staged l

/-- What every job of a loop has brought is still there when the loop is done. -/
theorem forM_brings {α : Type} {job : α → Job Unit} {jobs : List α} {u : Unit}
    {I : Disk → Prop} {G : α → Disk → Prop}
    (hjob : ∀ a ∈ jobs, ∀ u d d', I d → job a d = (.ok u, d') →
      I d' ∧ Writes S [] d d' ∧ G a d')
    (hstays : ∀ a d d', Writes S [] d d' → G a d → G a d')
    (hd : I d) (h : jobs.forM job d = (.ok u, d')) :
    Writes S [] d d' ∧ ∀ a ∈ jobs, G a d' := by
  induction jobs generalizing d with
  | nil =>
    cases h
    exact ⟨Writes.refl S _, fun a ha => absurd ha List.not_mem_nil⟩
  | cons a rest ih =>
    obtain ⟨u₁, d₁, hfirst, hrest⟩ := bind_eq_ok_iff.mp h
    obtain ⟨hd₁, hwrites, hgood⟩ := hjob a List.mem_cons_self u₁ d d₁ hd hfirst
    obtain ⟨hlater, hall⟩ := ih (fun b hb => hjob b (List.mem_cons_of_mem a hb)) hd₁ hrest
    refine ⟨hwrites.trans hlater, fun b hb => ?_⟩
    rcases List.mem_cons.mp hb with rfl | hb
    · exact hstays b d₁ d' hlater hgood
    · exact hall b hb

theorem forM_copySource_brings {u : Unit} {files : List Text} (htarget : target.WellFormed)
    (hS : ∀ file ∈ files, S ((target.join file).place home)) (hhome : d.home = home)
    (h : files.forM (copySource source target) d = (.ok u, d')) :
    Writes S [] d d' ∧ ∀ file ∈ files, ∃ c, d'.content? (target.join file) = some c := by
  refine forM_brings (I := fun d => d.home = home)
    (G := fun file d => ∃ c, d.content? (target.join file) = some c) ?_ ?_ hhome h
  · intro file hfile u d d' hhome hcopy
    have hplace : S ((target.join file).place d.home) := by
      rw [hhome]
      exact hS file hfile
    obtain ⟨hwrites, hthere⟩ := writes_copy? (htarget.join file) hplace (change_eq_ok hcopy)
    exact ⟨hwrites.home.trans hhome, hwrites, hthere⟩
  · intro file d d' hwrites hthere
    exact hwrites.exists_content? hthere

theorem withExtension?_eq (hext : ∃ last, extension? name = some (base, last)) :
    withExtension? name ext = if base = "." then none else some (base ++ "." ++ ext) := by
  obtain ⟨last, hlast⟩ := hext
  rw [withExtension?, hlast]
  simp only [beq_iff_eq]

theorem mem_sources_iff {file : Text} (hext : ∃ last, extension? name = some (base, last)) :
    file ∈ kind.extensions.filterMap (withExtension? name) ↔
      base ≠ "." ∧ ∃ ext ∈ kind.extensions, file = base ++ "." ++ ext := by
  simp only [List.mem_filterMap, withExtension?_eq hext]
  constructor
  · rintro ⟨ext, hmem, hfile⟩
    split at hfile
    · cases hfile
    · exact ⟨‹_›, ext, hmem, (Option.some.inj hfile).symm⟩
  · rintro ⟨hdot, ext, hmem, rfl⟩
    exact ⟨ext, hmem, if_neg hdot⟩

theorem exists_extension? (h : isDescription name = true) :
    ∃ base last, extension? name = some (base, last) := by
  unfold isDescription at h
  split at h
  · exact ⟨_, _, ‹_›⟩
  · cases h

/-- A unit brings its source files. The description is read as it was staged. -/
theorem addUnit_brings {more : Dictionary → Text} {u : Unit} (hdb : db.WellFormed)
    (hstaged : staged.Sound) (hd : Adds db more staged d)
    (hname : name ∈ staged.descriptions (staging.join kind.name))
    (h : addUnit e (staging.join kind.name) (db.join kind.name) db kind name d = (.ok u, d')) :
    Writes (IsGenerated staged.home db staging staged) [] d d' ∧
      ∀ base, DescribesSources staged (staging.join kind.name) name base →
        ∀ ext ∈ kind.extensions, ∃ c, d'.content? (sourceFile db kind base ext) = some c := by
  obtain ⟨hproper, hdescription⟩ := hstaged.of_mem_descriptions hname
  obtain ⟨base, hbase⟩ := exists_extension? hdescription
  obtain ⟨u?, _, hparse, hmatch⟩ := bind_eq_ok_iff.mp h
  obtain ⟨rfl, content, hread, hunit⟩ := parseUnitFile_eq_ok hparse
  rw [hd.text?_eq hdescription hproper] at hread
  have hdescribes : DescribesUnit staged (staging.join kind.name) name u? := ⟨content, hread, hunit⟩
  cases u? with
  | none =>
    cases hmatch
    refine ⟨Writes.refl _ _, ?_⟩
    rintro _ ⟨_, _, u, content', hread', hunit'⟩
    rw [hread] at hread'
    cases hread'
    rw [hunit] at hunit'
    cases hunit'
  | some unit =>
    obtain ⟨record, _, hlift, hrest⟩ := bind_eq_ok_iff.mp hmatch
    obtain ⟨_, rfl⟩ := lift_eq_ok_iff.mp hlift
    obtain ⟨_, d₁, happend, hcopies⟩ := bind_eq_ok_iff.mp hrest
    have hrecords : Writes (IsGenerated staged.home db staging staged) [] _ d₁ :=
      (writes_appendRecords hdb hd.home happend).mono fun l => Or.inl
    have hsources : ∀ file ∈ kind.extensions.filterMap (withExtension? name),
        IsGenerated staged.home db staging staged
          (((db.join kind.name).join file).place staged.home) := by
      intro file hfile
      obtain ⟨hdot, ext, hext, rfl⟩ := (mem_sources_iff hbase).mp hfile
      have hhas : HasSources staged staging kind base :=
        ⟨name, hname, hbase, hdot, unit, hdescribes⟩
      exact Or.inr ⟨kind, base, ext, hhas, hext, place_sourceFile (hhas.no_slash hstaged) hext⟩
    obtain ⟨hwrites, hthere⟩ := forM_copySource_brings (hdb.join kind.name) hsources
      (hrecords.home.trans hd.home) hcopies
    refine ⟨hrecords.trans hwrites, ?_⟩
    rintro base' ⟨hbase', hdot, _⟩ ext hext
    exact hthere _ ((mem_sources_iff hbase').mpr ⟨hdot, ext, hext, rfl⟩)

theorem addUnits_brings {more : Dictionary → Text} {u : Unit} (hdb : db.WellFormed)
    (hstaged : staged.Sound) (hd : Adds db more staged d)
    (h : addUnits e staging db kind d = (.ok u, d')) :
    Writes (IsGenerated staged.home db staging staged) [] d d' ∧
      ∀ base, HasSources staged staging kind base →
        ∀ ext ∈ kind.extensions, ∃ c, d'.content? (sourceFile db kind base ext) = some c := by
  obtain ⟨names, _, hlisted, hall⟩ := bind_eq_ok_iff.mp h
  obtain ⟨hnames, rfl⟩ := descriptionNames_eq_ok hlisted
  rw [hd.descriptions_eq] at hnames
  subst names
  have hloop : Writes (IsGenerated staged.home db staging staged) [] d d' ∧
      ∀ name ∈ staged.descriptions (staging.join kind.name), ∀ base,
        DescribesSources staged (staging.join kind.name) name base →
          ∀ ext ∈ kind.extensions, ∃ c, d'.content? (sourceFile db kind base ext) = some c := by
    refine forM_brings (I := fun d => ∃ more, Adds db more staged d)
      (G := fun name d => ∀ base, DescribesSources staged (staging.join kind.name) name base →
        ∀ ext ∈ kind.extensions, ∃ c, d.content? (sourceFile db kind base ext) = some c)
      ?_ ?_ ⟨more, hd⟩ hall
    · rintro name hname u d d' ⟨more, hd⟩ hadd
      obtain ⟨_, _, _, _, hadds⟩ := addUnit_eq_ok hdb (hdb.join kind.name) hadd
      exact ⟨⟨_, hd.trans hadds⟩, addUnit_brings hdb hstaged hd hname hadd⟩
    · intro name d d' hwrites hgood base hdescribes ext hext
      exact hwrites.exists_content? (hgood base hdescribes ext hext)
  refine ⟨hloop.1, ?_⟩
  rintro base ⟨name, hname, hdescribes⟩
  exact hloop.2 name hname base hdescribes

/-- Generating the units writes their source files and records, and nothing else. -/
theorem generateUnits_brings {more : Dictionary → Text} {u : Unit} (hdb : db.WellFormed)
    (hstaged : staged.Sound) (hd : Adds db more staged d)
    (h : generateUnits e staging db d = (.ok u, d')) :
    Writes (IsGenerated staged.home db staging staged) [] d d' ∧
      ∀ kind base, HasSources staged staging kind base →
        ∀ ext ∈ kind.extensions, ∃ c, d'.content? (sourceFile db kind base ext) = some c := by
  obtain ⟨_, d₁, happend, hall⟩ := bind_eq_ok_iff.mp h
  have hrecords : Writes (IsGenerated staged.home db staging staged) [] d d₁ :=
    (writes_appendRecords hdb hd.home happend).mono fun l => Or.inl
  have hloop : Writes (IsGenerated staged.home db staging staged) [] d₁ d' ∧
      ∀ kind ∈ UnitKind.all, ∀ base, HasSources staged staging kind base →
        ∀ ext ∈ kind.extensions, ∃ c, d'.content? (sourceFile db kind base ext) = some c := by
    refine forM_brings (I := fun d => ∃ more, Adds db more staged d)
      (G := fun kind d => ∀ base, HasSources staged staging kind base →
        ∀ ext ∈ kind.extensions, ∃ c, d.content? (sourceFile db kind base ext) = some c)
      ?_ ?_ ⟨_, hd.trans (appendRecords_eq_ok hdb happend)⟩ hall
    · rintro kind _ u d d' ⟨more, hd⟩ hadd
      obtain ⟨_, _, _, _, hadds⟩ := addUnits_eq_ok hstaged hdb hd hadd
      exact ⟨⟨_, hd.trans hadds⟩, addUnits_brings hdb hstaged hd hadd⟩
    · intro kind d d' hwrites hgood base hhas ext hext
      exact hwrites.exists_content? (hgood base hhas ext hext)
  exact ⟨hrecords.trans hloop.1, fun kind => hloop.2 kind (UnitKind.mem_all kind)⟩

end Compile
end SchemaPackage
