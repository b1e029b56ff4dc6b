import SchemaPackage.Proofs.DeclarationOrder
import SchemaPackage.Proofs.Dictionary.Calls
import SchemaPackage.Proofs.Package.Growth
import SchemaPackage.Proofs.Package.Rendering

/-!
What a compilation records. Every description file is read as it was staged, in the order of the
listing, and each table and program unit adds its records to the data files exactly once; files
that describe neither add nothing.
-/
namespace SchemaPackage.Compile

open Job Outcome Text Package

variable {e : Encoder} {staging db folder source target : Path} {tracked : Bool}
  {d d' staged : Disk} {name : Text} {names : List Text}

/-- What a file of a folder describes, if it describes a table. -/
def DescribesTable (d : Disk) (folder : Path) (tracked : Bool) (name : Text)
    (t? : Option Table) : Prop :=
  ∃ text ctx ctx', d.text? (folder.join name) = some text ∧ ctx.Reachable ∧
    Description.parseTable (folder.join name) text tracked ctx = (.ok t?, ctx')

/-- What a file of a folder describes, if it describes a program unit. -/
def DescribesUnit (d : Disk) (folder : Path) (name : Text) (u? : Option ProgramUnit) : Prop :=
  ∃ text, d.text? (folder.join name) = some text ∧
    Description.parseUnit (folder.join name) text = .ok u?

/-- The tables that the description files of a folder describe, in the order of the files. -/
def TablesIn (d : Disk) (folder : Path) (tracked : Bool) (tables : List Table) : Prop :=
  ∃ names parsed, d.Lists folder names ∧
    List.Forall₂ (DescribesTable d folder tracked) names parsed ∧
    tables = parsed.flatMap Option.toList

/-- The program units that the description files of a folder describe, in that order. -/
def UnitsIn (d : Disk) (folder : Path) (units : List ProgramUnit) : Prop :=
  ∃ names parsed, d.Lists folder names ∧ List.Forall₂ (DescribesUnit d folder) names parsed ∧
    units = parsed.flatMap Option.toList

/-- The texts for all things of a list on end, if there is one for each. -/
def concatenated {α : Type} (text : α → Except Fault Text) : List α → Except Fault Text
  | [] => .ok []
  | a :: rest => do
    let first ← text a
    let more ← concatenated text rest
    return first ++ more

/-- What a table contributes to the data file for each of the dictionary tables. -/
def tableRecords (e : Encoder) (k : Dictionary) (t : Table) : Except Fault Text :=
  match k with
  | .objects => do
    let object ← t.objectRecord e
    let indexes ← t.indexRecordText e
    return object ++ indexes
  | .tableColumns => t.columnRecords e

theorem concatenated_append {α : Type} {text : α → Except Fault Text} {l l' : List α}
    {s s' : Text} (h : concatenated text l = .ok s) (h' : concatenated text l' = .ok s') :
    concatenated text (l ++ l') = .ok (s ++ s') := by
  induction l generalizing s with
  | nil =>
    cases h
    exact h'
  | cons a rest ih =>
    obtain ⟨first, hfirst, h⟩ := except_bind_eq_ok_iff.mp h
    obtain ⟨more, hmore, h⟩ := except_bind_eq_ok_iff.mp h
    cases h
    rw [List.cons_append, concatenated, hfirst, ih hmore, List.append_assoc]
    rfl

theorem parseTableFile_eq_ok {ctx ctx' : Context} {p : Path} {t? : Option Table}
    (h : parseTableFile ctx p tracked d = (.ok (t?, ctx'), d')) :
    d' = d ∧ ∃ text, d.text? p = some text ∧
      Description.parseTable p text tracked ctx = (.ok t?, ctx') := by
  obtain ⟨text, _, hread, h⟩ := bind_eq_ok_iff.mp h
  obtain ⟨htext, rfl⟩ := require_eq_ok hread
  obtain ⟨hparse, rfl⟩ := building_eq_ok h
  exact ⟨rfl, text, htext, hparse⟩

theorem parseTables_eq_ok {ctx : Context} {tables : List Table} (hctx : ctx.Reachable)
    (h : parseTables folder tracked ctx names d = (.ok tables, d')) :
    d' = d ∧ ∃ parsed, List.Forall₂ (DescribesTable d folder tracked) names parsed ∧
      tables = parsed.flatMap Option.toList := by
  induction names generalizing ctx tables d' with
  | nil =>
    cases h
    exact ⟨rfl, [], List.Forall₂.nil, rfl⟩
  | cons name rest ih =>
    obtain ⟨⟨t?, next⟩, _, hfile, hmore⟩ := bind_eq_ok_iff.mp h
    obtain ⟨rfl, text, htext, hparse⟩ := parseTableFile_eq_ok hfile
    obtain ⟨more, _, hrest, hpure⟩ := bind_eq_ok_iff.mp hmore
    obtain ⟨rfl, parsed, hparsed, rfl⟩ :=
      ih (Description.reachable_of_parseTable hctx hparse) hrest
    obtain ⟨rfl, rfl⟩ := pure_eq_ok_iff.mp hpure
    exact ⟨rfl, t? :: parsed, .cons ⟨text, ctx, next, htext, hctx, hparse⟩ hparsed, rfl⟩

/-- The encoder knows a dictionary table as its staged file describes it. -/
def Registered (d : Disk) (staging : Path) (e : Encoder) (k : Dictionary) : Prop :=
  ∃ t, e.table? k = some t ∧
    DescribesTable d (staging.join "TABLE") false (k.tableName ++ ".XML") (some t)

theorem registerAll_eq_ok {e' : Encoder} {ctx ctx' : Context} {kinds : List Dictionary}
    (hctx : ctx.Reachable) (h : registerAll staging e ctx kinds d = (.ok (e', ctx'), d')) :
    d' = d ∧ ctx'.Reachable ∧ e'.order = e.order ∧
      ∀ k, k ∈ kinds ∨ Registered d staging e k → Registered d staging e' k := by
  induction kinds generalizing e ctx with
  | nil =>
    cases h
    exact ⟨rfl, hctx, rfl, fun k hk => hk.resolve_left List.not_mem_nil⟩
  | cons k rest ih =>
    obtain ⟨⟨t?, next⟩, _, hfile, hmatch⟩ := bind_eq_ok_iff.mp h
    obtain ⟨rfl, text, htext, hparse⟩ := parseTableFile_eq_ok hfile
    cases t? with
    | none => exact absurd hmatch throw_ne_ok
    | some t =>
      obtain ⟨registered, _, hlift, hmore⟩ := bind_eq_ok_iff.mp hmatch
      obtain ⟨hregister, rfl⟩ := lift_eq_ok_iff.mp hlift
      obtain ⟨_, _, rfl⟩ := Encoder.register_eq_ok_iff.mp hregister
      obtain ⟨rfl, hctx', horder, hrest⟩ :=
        ih (Description.reachable_of_parseTable hctx hparse) hmore
      refine ⟨rfl, hctx', horder.trans (Encoder.order_put e k t), fun j hj => hrest j ?_⟩
      by_cases hjk : j = k
      · subst j
        exact Or.inr ⟨t, Encoder.table?_put_self e k t, text, ctx, next, htext, hctx, hparse⟩
      · rcases hj with hj | ⟨old, hold, hdescribed⟩
        · exact Or.inl ((List.mem_cons.mp hj).resolve_left hjk)
        · exact Or.inr ⟨old, (Encoder.table?_put_of_ne e t hjk).trans hold, hdescribed⟩

/-- What the artifacts of a table contribute to each data file. -/
def contribution (a : Artifacts) : Dictionary → Text
  | .objects => a.objectRecord ++ a.indexRecords
  | .tableColumns => a.columnRecords

theorem tableRecords_of_render {t : Table} {a : Artifacts} (h : Artifacts.render e t = .ok a)
    (k : Dictionary) : tableRecords e k t = .ok (contribution a k) := by
  obtain ⟨_, _, _, _, _, hobject, hcolumns, hindexes, rfl⟩ := Artifacts.render_eq_ok h
  cases k with
  | objects =>
    rw [tableRecords, hobject, hindexes]
    rfl
  | tableColumns => exact hcolumns

theorem concatenated_of_rendered {tables : List Table} {artifacts : List Artifacts}
    (h : List.Forall₂ (fun t a => Artifacts.render e t = .ok a) tables artifacts)
    (k : Dictionary) :
    concatenated (tableRecords e k) tables = .ok (artifacts.flatMap (contribution · k)) := by
  induction h with
  | nil => rfl
  | cons hrender _ ih =>
    rw [concatenated, tableRecords_of_render hrender, ih]
    rfl

/-- A loop adds what its jobs add, one after another. -/
theorem forM_eq_ok {α : Type} {job : α → Job Unit} {l : List α} {more : α → Dictionary → Text}
    {u : Unit}
    (hjob : ∀ a ∈ l, ∀ u d d', job a d = (.ok u, d') → Adds db (more a) d d')
    (h : l.forM job d = (.ok u, d')) : Adds db (fun k => l.flatMap (more · k)) d d' := by
  induction l generalizing d with
  | nil =>
    cases h
    exact Adds.refl db _
  | cons a rest ih =>
    obtain ⟨u₁, d₁, hfirst, hrest⟩ := bind_eq_ok_iff.mp h
    have hadds := hjob a List.mem_cons_self u₁ d d₁ hfirst
    exact hadds.trans (ih (fun b hb => hjob b (List.mem_cons_of_mem a hb)) hrest)

/-- A loop of jobs that add nothing adds nothing. -/
theorem forM_nil_eq_ok {α : Type} {job : α → Job Unit} {l : List α} {u : Unit}
    (hjob : ∀ a ∈ l, ∀ u d d', job a d = (.ok u, d') → Adds db (fun _ => []) d d')
    (h : l.forM job d = (.ok u, d')) : Adds db (fun _ => []) d d' := by
  have hadds := forM_eq_ok hjob h
  have hnone : (fun _ : Dictionary => l.flatMap fun _ => ([] : Text)) = fun _ => [] := by
    funext k
    exact List.flatMap_eq_nil_iff.mpr fun _ _ => rfl
  rw [hnone] at hadds
  exact hadds

theorem appendRecords_eq_ok {k : Dictionary} {text : Text} {u : Unit} (hdb : db.WellFormed)
    (h : appendRecords db k text d = (.ok u, d')) :
    Adds db (only k text) d d' :=
  Adds.append hdb (change_eq_ok h)

theorem writeArtifacts_eq (db : Path) (a : Artifacts) : writeArtifacts db a = (do
    write ((db.join "TABLE").join (a.name ++ ".SQL")) a.tableStatement
    a.indexStatements.forM (write ((db.join "TABLE").join (a.name ++ ".IDX.SQL")))
    a.controlFile.forM (write (controlFile db a.name))) := by
  unfold writeArtifacts
  cases a.indexStatements <;> cases a.controlFile <;> rfl

theorem optional_eq_ok {α : Type} {job : α → Job Unit} {a? : Option α} {u : Unit}
    (hjob : ∀ a, job a d = (.ok u, d') → Adds db (fun _ => []) d d')
    (h : a?.forM job d = (.ok u, d')) : Adds db (fun _ => []) d d' := by
  cases a? with
  | none =>
    cases h
    exact Adds.refl db _
  | some a => exact hjob a h

/-- The files that are written for a table are named for it and have extensions of their own. -/
theorem writeArtifacts_eq_ok {a : Artifacts} {u : Unit} (hdb : db.WellFormed)
    (h : writeArtifacts db a d = (.ok u, d')) : Adds db (fun _ => []) d d' := by
  have htable : (db.join "TABLE").WellFormed := hdb.join _
  have hrecords : (recordsFolder db).WellFormed := hdb.join _
  rw [writeArtifacts_eq] at h
  obtain ⟨_, _, hstatement, hrest⟩ := bind_eq_ok_iff.mp h
  obtain ⟨_, _, hindexes, hcontrol⟩ := bind_eq_ok_iff.mp hrest
  have hindexFile : a.name ++ ".IDX.SQL" = (a.name ++ ".IDX") ++ "." ++ "SQL" := by
    rw [List.append_assoc, List.append_assoc]
    rfl
  have hfirst := Adds.write db htable (List.append_assoc a.name "." "SQL").symm
    (by decide) (change_eq_ok hstatement)
  have hsecond := optional_eq_ok
    (fun _ h => Adds.write db htable hindexFile (by decide) (change_eq_ok h)) hindexes
  have hthird := optional_eq_ok
    (fun _ h => Adds.write db hrecords (List.append_assoc a.name "." "CTL").symm (by decide)
      (change_eq_ok h)) hcontrol
  exact (hfirst.trans hsecond).trans hthird

theorem addTable_eq_ok {a : Artifacts} {u : Unit} (hdb : db.WellFormed)
    (h : addTable db a d = (.ok u, d')) : Adds db (contribution a) d d' := by
  obtain ⟨_, _, hwrite, hcolumns⟩ := bind_eq_ok_iff.mp h
  obtain ⟨_, _, hcolumns, hobject⟩ := bind_eq_ok_iff.mp hcolumns
  obtain ⟨_, _, hobject, hindexes⟩ := bind_eq_ok_iff.mp hobject
  have hadds := (((writeArtifacts_eq_ok hdb hwrite).trans (appendRecords_eq_ok hdb hcolumns)).trans
    (appendRecords_eq_ok hdb hobject)).trans (appendRecords_eq_ok hdb hindexes)
  have hmore : (fun k => [] ++ only .tableColumns a.columnRecords k ++
      only .objects a.objectRecord k ++ only .objects a.indexRecords k) = contribution a := by
    funext k
    cases k with
    | objects => rfl
    | tableColumns =>
      change a.columnRecords ++ [] ++ [] = a.columnRecords
      rw [List.append_nil, List.append_nil]
  rw [hmore] at hadds
  exact hadds

theorem forM_addTable_eq_ok {artifacts : List Artifacts} {u : Unit} (hdb : db.WellFormed)
    (h : artifacts.forM (addTable db) d = (.ok u, d')) :
    Adds db (fun k => artifacts.flatMap (contribution · k)) d d' :=
  forM_eq_ok (fun _ _ _ _ _ hadd => addTable_eq_ok hdb hadd) h

/-- An empty record creates a data file that is missing and adds nothing to it. -/
theorem forM_appendRecords_nil_eq_ok {kinds : List Dictionary} {u : Unit} (hdb : db.WellFormed)
    (h : (kinds.forM fun k => appendRecords db k []) d = (.ok u, d')) :
    Adds db (fun _ => []) d d' := by
  refine forM_nil_eq_ok (fun k _ u d d' happend => ?_) h
  have hadds := appendRecords_eq_ok hdb happend
  rw [only_nil] at hadds
  exact hadds

theorem descriptionNames_eq_ok (h : descriptionNames folder d = (.ok names, d')) :
    d.descriptions folder = names ∧ d = d' := by
  rw [Disk.descriptionNames_eq] at h
  cases h
  exact ⟨rfl, rfl⟩

theorem generateTables_eq_ok {choice : FaultChoice} {ctx : Context} {u : Unit}
    (hdb : db.WellFormed) (hctx : ctx.Reachable)
    (h : generateTables choice e staging db tracked ctx d = (.ok u, d')) :
    ∃ tables, TablesIn d (staging.join "TABLE") tracked tables ∧
      ∃ texts : Dictionary → Text, (∀ k, concatenated (tableRecords e k) tables = .ok (texts k)) ∧
        Adds db texts d d' := by
  obtain ⟨names, _, hnames, hrest₁⟩ := bind_eq_ok_iff.mp h
  obtain ⟨rfl, rfl⟩ := descriptionNames_eq_ok hnames
  obtain ⟨tables, _, hparse, hrest₂⟩ := bind_eq_ok_iff.mp hrest₁
  obtain ⟨rfl, parsed, hparsed, htables⟩ := parseTables_eq_ok hctx hparse
  obtain ⟨artifacts, _, hlift, hrest₃⟩ := bind_eq_ok_iff.mp hrest₂
  obtain ⟨hrender, rfl⟩ := lift_eq_ok_iff.mp hlift
  obtain ⟨_, _, hempty, hadd⟩ := bind_eq_ok_iff.mp hrest₃
  have hin : TablesIn _ (staging.join "TABLE") tracked tables :=
    ⟨_, parsed, Disk.lists_descriptions _ _, hparsed, htables⟩
  have hadds := (forM_appendRecords_nil_eq_ok hdb hempty).trans (forM_addTable_eq_ok hdb hadd)
  exact ⟨tables, hin, fun k => artifacts.flatMap (contribution · k),
    concatenated_of_rendered (Artifacts.forall₂_of_renderAll hrender), hadds⟩

theorem exists_of_withExtension? {ext file : Text} (h : withExtension? name ext = some file) :
    ∃ front, file = front ++ "." ++ ext := by
  unfold withExtension? at h
  split at h
  · rename_i front last _
    split at h
    · cases h
    · exact ⟨front, (Option.some.inj h).symm⟩
  · exact ⟨name, (Option.some.inj h).symm⟩

theorem isOther_of_mem_extensions {kind : UnitKind} {ext : Text} (h : ext ∈ kind.extensions) :
    IsOther ext := by
  have hall : ∀ ext ∈ kind.extensions, IsOther ext := by
    cases kind <;> decide
  exact hall ext h

/-- Source files are taken over under names with the extensions of sources. -/
theorem forM_copySource_eq_ok (db : Path) {files : List Text} {u : Unit}
    (htarget : target.WellFormed)
    (hfiles : ∀ file ∈ files, ∃ front ext, IsOther ext ∧ file = front ++ "." ++ ext)
    (h : files.forM (copySource source target) d = (.ok u, d')) :
    Adds db (fun _ => []) d d' := by
  refine forM_nil_eq_ok (fun file hmem u d d' hcopy => ?_) h
  obtain ⟨front, ext, hext, hfile⟩ := hfiles file hmem
  exact Adds.copy db htarget hfile hext (change_eq_ok hcopy)

theorem parseUnitFile_eq_ok {p : Path} {u? : Option ProgramUnit}
    (h : parseUnitFile p d = (.ok u?, d')) :
    d' = d ∧ ∃ text, d.text? p = some text ∧ Description.parseUnit p text = .ok u? := by
  obtain ⟨text, _, hread, hlift⟩ := bind_eq_ok_iff.mp h
  obtain ⟨htext, rfl⟩ := require_eq_ok hread
  obtain ⟨hparse, rfl⟩ := lift_eq_ok_iff.mp hlift
  exact ⟨rfl, text, htext, hparse⟩

theorem addUnit_eq_ok {kind : UnitKind} {u : Unit} (hdb : db.WellFormed)
    (htarget : target.WellFormed) (h : addUnit e source target db kind name d = (.ok u, d')) :
    ∃ u?, DescribesUnit d source name u? ∧
      ∃ text, concatenated (·.objectRecord e) u?.toList = .ok text ∧
        Adds db (only .objects text) d d' := by
  obtain ⟨u?, _, hparse, hmatch⟩ := bind_eq_ok_iff.mp h
  obtain ⟨rfl, hdescribed⟩ := parseUnitFile_eq_ok hparse
  refine ⟨u?, hdescribed, ?_⟩
  cases u? with
  | none =>
    cases hmatch
    refine ⟨[], rfl, ?_⟩
    rw [only_nil]
    exact Adds.refl db _
  | some unit =>
    obtain ⟨record, _, hlift, hrest⟩ := bind_eq_ok_iff.mp hmatch
    obtain ⟨hrecord, rfl⟩ := lift_eq_ok_iff.mp hlift
    obtain ⟨_, _, happend, hcopies⟩ := bind_eq_ok_iff.mp hrest
    have hfiles : ∀ file ∈ kind.extensions.filterMap (withExtension? name),
        ∃ front ext, IsOther ext ∧ file = front ++ "." ++ ext := by
      intro file hfile
      obtain ⟨ext, hext, hfound⟩ := List.mem_filterMap.mp hfile
      obtain ⟨front, hfront⟩ := exists_of_withExtension? hfound
      exact ⟨front, ext, isOther_of_mem_extensions hext, hfront⟩
    have hadds := (appendRecords_eq_ok hdb happend).trans
      (forM_copySource_eq_ok db htarget hfiles hcopies)
    refine ⟨record, ?_, ?_⟩
    · change concatenated (·.objectRecord e) [unit] = _
      rw [concatenated, hrecord]
      exact congrArg Except.ok (List.append_nil record)
    · simpa only [List.append_nil] using hadds

/-- A loop over what program units come from adds the records of all of them, provided that each
of its jobs does so on whatever disk the jobs before it have made of the staged one. -/
theorem forM_units_eq_ok {α β : Type} {job : α → Job Unit} {l : List α} {found : α → β → Prop}
    {units : β → List ProgramUnit} {more : Dictionary → Text} {u : Unit}
    (hjob : ∀ a ∈ l, ∀ more d d' u, Adds db more staged d → job a d = (.ok u, d') →
      ∃ b, found a b ∧ ∃ text, concatenated (·.objectRecord e) (units b) = .ok text ∧
        Adds db (only .objects text) d d')
    (hd : Adds db more staged d) (h : l.forM job d = (.ok u, d')) :
    ∃ all, List.Forall₂ found l all ∧
      ∃ text, concatenated (·.objectRecord e) (all.flatMap units) = .ok text ∧
        Adds db (only .objects text) d d' := by
  induction l generalizing d more with
  | nil =>
    cases h
    refine ⟨[], .nil, [], rfl, ?_⟩
    rw [only_nil]
    exact Adds.refl db _
  | cons a rest ih =>
    obtain ⟨u₁, d₁, hfirst, hrest⟩ := bind_eq_ok_iff.mp h
    obtain ⟨b, hb, first, htext, hadds⟩ := hjob a List.mem_cons_self more d d₁ u₁ hd hfirst
    have hlater := fun c (hc : c ∈ rest) => hjob c (List.mem_cons_of_mem a hc)
    obtain ⟨all, hall, text, hmore, hadds'⟩ := ih hlater (hd.trans hadds) hrest
    refine ⟨b :: all, .cons hb hall, first ++ text, ?_, ?_⟩
    · rw [List.flatMap_cons]
      exact concatenated_append htext hmore
    · rw [← only_append]
      exact hadds.trans hadds'

/-- A folder of descriptions adds the records of its units, which are read as they were staged
although files have been written in the meantime. -/
theorem forM_addUnit_eq_ok {kind : UnitKind} {more : Dictionary → Text} {u : Unit}
    (hdb : db.WellFormed) (htarget : target.WellFormed)
    (hnames : ∀ name ∈ names, IsName name ∧ isDescription name = true)
    (hd : Adds db more staged d)
    (h : names.forM (addUnit e source target db kind) d = (.ok u, d')) :
    ∃ parsed, List.Forall₂ (DescribesUnit staged source) names parsed ∧
      ∃ text, concatenated (·.objectRecord e) (parsed.flatMap Option.toList) = .ok text ∧
        Adds db (only .objects text) d d' := by
  refine forM_units_eq_ok (fun name hmem more d d' u hd hadd => ?_) hd h
  obtain ⟨hname, hdescription⟩ := hnames name hmem
  obtain ⟨u?, ⟨content, hread, hparse⟩, htext⟩ := addUnit_eq_ok hdb htarget hadd
  rw [hd.text?_eq hdescription hname] at hread
  exact ⟨u?, ⟨content, hread, hparse⟩, htext⟩

theorem addUnits_eq_ok {kind : UnitKind} {more : Dictionary → Text} {u : Unit}
    (hstaged : staged.Sound) (hdb : db.WellFormed) (hd : Adds db more staged d)
    (h : addUnits e staging db kind d = (.ok u, d')) :
    ∃ units, UnitsIn staged (staging.join kind.name) units ∧
      ∃ text, concatenated (·.objectRecord e) units = .ok text ∧
        Adds db (only .objects text) d d' := by
  obtain ⟨names, _, hlisted, hall⟩ := bind_eq_ok_iff.mp h
  obtain ⟨hnames, rfl⟩ := descriptionNames_eq_ok hlisted
  rw [hd.descriptions_eq] at hnames
  subst names
  obtain ⟨parsed, hparsed, htext⟩ := forM_addUnit_eq_ok hdb (hdb.join kind.name)
    (fun name hname => hstaged.of_mem_descriptions hname) hd hall
  exact ⟨_, ⟨_, parsed, staged.lists_descriptions _, hparsed, rfl⟩, htext⟩

theorem forM_addUnits_eq_ok {kinds : List UnitKind} {more : Dictionary → Text} {u : Unit}
    (hstaged : staged.Sound) (hdb : db.WellFormed) (hd : Adds db more staged d)
    (h : kinds.forM (addUnits e staging db) d = (.ok u, d')) :
    ∃ units, List.Forall₂ (fun kind => UnitsIn staged (staging.join kind.name)) kinds units ∧
      ∃ text, concatenated (·.objectRecord e) units.flatten = .ok text ∧
        Adds db (only .objects text) d d' := by
  obtain ⟨all, hall, text, htext, hadds⟩ := forM_units_eq_ok
    (fun kind _ more d d' u hd hadd => addUnits_eq_ok hstaged hdb hd hadd) hd h
  rw [List.flatMap_id'] at htext
  exact ⟨all, hall, text, htext, hadds⟩

theorem generateUnits_eq_ok {more : Dictionary → Text} {u : Unit} (hstaged : staged.Sound)
    (hdb : db.WellFormed) (hd : Adds db more staged d)
    (h : generateUnits e staging db d = (.ok u, d')) :
    ∃ units, List.Forall₂ (fun kind => UnitsIn staged (staging.join kind.name))
        UnitKind.all units ∧
      ∃ text, concatenated (·.objectRecord e) units.flatten = .ok text ∧
        Adds db (only .objects text) d d' := by
  obtain ⟨_, _, hempty, hall⟩ := bind_eq_ok_iff.mp h
  have hnone := appendRecords_eq_ok hdb hempty
  obtain ⟨units, hunits, text, htext, hadds⟩ :=
    forM_addUnits_eq_ok hstaged hdb (hd.trans hnone) hall
  refine ⟨units, hunits, text, htext, ?_⟩
  have hboth := hnone.trans hadds
  rw [only_append] at hboth
  exact hboth

end SchemaPackage.Compile
