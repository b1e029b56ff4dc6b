import SchemaPackage.Proofs.Disk.Agreement
import SchemaPackage.Proofs.Disk.Trees
import SchemaPackage.Proofs.Package.Containment

/-!
Compiling on two disks that are the same but for an old archive. The archive may lie among the files
that are staged, and then a copy of it is staged too, but nothing that is staged under its name is
read again. So from the staging on every step comes to the same outcome on both disks, and the
archive that is written in the end is the same.
-/
namespace SchemaPackage

open Job Outcome Text Disk

namespace Compile

open Package

variable {home l above : Location} {target source folder p q : Path} {d d' : Disk} {name : Text}
  {names : List Text} {e : Encoder}

/-- Copies of the archive among the staged files. -/
def IsStagedCopy (target q : Path) : Prop :=
  ∃ f ∈ rawFolders, q = ((target.join "DB_STAGING").join f).join "DB.zip"

/-- The archive and its staged copies. -/
def IsSpare (target q : Path) : Prop := q = target.join "DB.zip" ∨ IsStagedCopy target q

theorem place_stagedCopy {f : Text} (hf : f ∈ rawFolders) :
    (((target.join "DB_STAGING").join f).join "DB.zip").place home =
      (target.join "DB_STAGING").place home ++ [f, "DB.zip"] := by
  have hzip : IsName "DB.zip" := by decide
  rw [Path.place_join hzip, Path.place_join (isName_of_mem_rawFolders hf), List.append_assoc]
  rfl

theorem exists_place_of_isSpare (h : IsSpare target q) :
    ∃ above, q.place home = above ++ [("DB.zip" : Text)] := by
  have hzip : IsName "DB.zip" := by decide
  rcases h with rfl | ⟨f, _, rfl⟩ <;> exact ⟨_, Path.place_join hzip⟩

/-- Files of another name are not spare. -/
theorem off_of_ne (hname : name ≠ "DB.zip") : Off home (IsSpare target) (above ++ [name]) := by
  intro q hq hplace
  obtain ⟨other, hother⟩ : ∃ above, q.place home = above ++ [("DB.zip" : Text)] :=
    exists_place_of_isSpare hq
  rw [hother] at hplace
  exact hname (List.singleton_inj.mp (List.append_inj' hplace rfl).2)

theorem off_join (hname : IsName name) (hne : name ≠ "DB.zip") :
    Off home (IsSpare target) ((p.join name).place home) := by
  rw [Path.place_join hname]
  exact off_of_ne hne

theorem off_of_isDescription (hname : isDescription name = true) :
    Off home (IsSpare target) (above ++ [name]) := by
  refine off_of_ne ?_
  rintro rfl
  exact absurd hname (by decide)

theorem off_of_ending {file front ext : Text} (hfile : file = front ++ "." ++ ext)
    (hext : '/' ∉ ext ∧ '.' ∉ ext ∧ 1 < ext.length) (hzip : ext ≠ "zip") :
    Off home (IsSpare target) ((p.join file).place home) := by
  obtain ⟨above, name, hplace, hending⟩ := Path.exists_place_join_ending home p hfile hext
  rw [hplace]
  refine off_of_ne ?_
  rintro rfl
  exact hzip (hending.symm.trans (by decide))

/-- What is in a folder next to the archive is not spare, unless it is staged. -/
theorem off_of_beside (hname : IsName name) (hzip : name ≠ "DB.zip")
    (hstaging : name ≠ "DB_STAGING") (hl : (target.join name).place home <+: l) :
    Off home (IsSpare target) l := by
  have hapart {other : Text} (hother : IsName other) (hne : name ≠ other) :
      ¬ (target.join other).place home <+: l := fun h =>
    hne (eq_of_places_above hname hother hl h)
  rintro q (rfl | ⟨f, hf, rfl⟩) hplace
  · exact hapart (by decide) hzip (by rw [hplace])
  · refine hapart isName_staging hstaging ?_
    rw [hplace, place_stagedCopy hf]
    exact List.prefix_append _ _

theorem off_of_package (hl : (target.join "DB").place home <+: l) : Off home (IsSpare target) l :=
  off_of_beside (by decide) (by decide) (by decide) hl

/-- The folders above a target are not spare. -/
theorem off_of_above (hl : l <+: target.place home) : Off home (IsSpare target) l := by
  have hbelow {rest : Location} (hrest : rest ≠ []) : l ≠ target.place home ++ rest := by
    intro heq
    have hlength := hl.length_le
    rw [heq, List.length_append] at hlength
    exact hrest (List.length_eq_zero_iff.mp (by omega))
  have hzip : IsName "DB.zip" := by decide
  rintro q (rfl | ⟨f, hf, rfl⟩) hplace
  · rw [Path.place_join hzip] at hplace
    exact hbelow (List.cons_ne_nil _ _) hplace
  · rw [place_stagedCopy hf, Path.place_join isName_staging, List.append_assoc] at hplace
    exact hbelow (List.cons_ne_nil _ _) hplace

theorem off_of_onWay (hdown : target.Descends) (hl : target.OnWay home l) :
    Off home (IsSpare target) l :=
  off_of_above (hdown.prefix_of_onWay hl)

theorem off_of_onWay_join (hdown : target.Descends) (hname : IsName name) (hne : name ≠ "DB.zip")
    (hl : (target.join name).OnWay home l) : Off home (IsSpare target) l := by
  rcases Path.onWay_join hname hl with hl | rfl
  · exact off_of_onWay hdown hl
  · exact off_join hname hne

theorem copy_run (p q : Path) (d : Disk) : copy p q d =
    match d.copy? p q with
    | some d' => (.ok (), d')
    | none => (.error (.unwritable q), d) := by
  unfold copy change
  rfl

/-- Where a spare file is copied to on one disk only, the disks stay the same but for spare files. -/
theorem exists_copy?_of_isSpare (h : Alike home (IsSpare target) d d') (hq : q.WellFormed)
    (hspare : IsSpare target q) (hc : ∃ c, d.content? p = some c) :
    ∃ e, d.copy? p q = some e ∧ Alike home (IsSpare target) e d' := by
  obtain ⟨first, hfirst⟩ : ∃ e, d.write? q .empty = some e :=
    ⟨_, write?_of_accepts (h.left.accepts q hspare) .empty⟩
  have hhosts := h.left.write? hq hfirst
  obtain ⟨c, hread⟩ := (writes_write? (S := fun _ => True) hq trivial hfirst).exists_content? hc
  obtain ⟨last, hlast⟩ : ∃ e, first.write? q c = some e :=
    ⟨_, write?_of_accepts (hhosts.accepts q hspare) c⟩
  obtain ⟨c₀, hc₀⟩ := hc
  refine ⟨last, ?_, hhosts.write? hq hlast, h.right, ?_, ?_, fun l hl => ?_⟩
  · simp only [Disk.copy?, hc₀, hfirst, hread, hlast, Option.bind_eq_bind, Option.bind_some]
  · rw [h.right.home, (settings_write? hlast).1, hhosts.home]
  · rw [h.agree.closed, (settings_write? hlast).2, (settings_write? hfirst).2]
  · rw [h.agree.same l hl, entryAt?_write? hlast, entryAt?_write? hfirst, hhosts.home, h.left.home,
      if_neg (hl q hspare), if_neg (hl q hspare)]

theorem filter_ne_cons {α : Type} [DecidableEq α] (a b : α) (rest : List α) :
    (b :: rest).filter (· ≠ a) =
      if b = a then rest.filter (· ≠ a) else b :: rest.filter (· ≠ a) := by
  by_cases h : b = a <;> simp [h]

/-- Copying files with the archive among them on one disk, and without it on the other. -/
theorem forM_copy_filter (h : Alike home (IsSpare target) d d') (hfolder : folder.WellFormed)
    (hspare : IsSpare target (folder.join "DB.zip")) (hnames : ∀ name ∈ names, IsName name)
    (hthere : ("DB.zip" : Text) ∈ names → ∃ c, d.content? (source.join "DB.zip") = some c) :
    ((names.filter (· ≠ ("DB.zip" : Text))).forM
        (fun name => copy (source.join name) (folder.join name)) d').1 =
      (names.forM (fun name => copy (source.join name) (folder.join name)) d).1 ∧
      Alike home (IsSpare target)
        (names.forM (fun name => copy (source.join name) (folder.join name)) d).2
        ((names.filter (· ≠ ("DB.zip" : Text))).forM
          (fun name => copy (source.join name) (folder.join name)) d').2 := by
  induction names generalizing d d' with
  | nil => exact ⟨rfl, h⟩
  | cons name rest ih =>
    have hrest : ∀ name ∈ rest, IsName name := fun other hother =>
      hnames other (List.mem_cons_of_mem name hother)
    have hcons (more : List Text) (d : Disk) :
        (name :: more).forM (fun name => copy (source.join name) (folder.join name)) d =
          (copy (source.join name) (folder.join name) >>= fun _ =>
            more.forM fun name => copy (source.join name) (folder.join name)) d := rfl
    -- A copy keeps what can be read.
    have hstill {p q : Path} {d₁ : Disk} (hq : q.WellFormed) (hcopy : d.copy? p q = some d₁)
        (hmem : ("DB.zip" : Text) ∈ rest) : ∃ c, d₁.content? (source.join "DB.zip") = some c :=
      (writes_copy? (S := fun _ => True) hq trivial hcopy).1.exists_content?
        (hthere (List.mem_cons_of_mem name hmem))
    rw [hcons, bind_run, copy_run, filter_ne_cons]
    by_cases hname : name = "DB.zip"
    · rw [if_pos hname]
      subst hname
      obtain ⟨d₁, hcopy, halike⟩ := exists_copy?_of_isSpare h (hfolder.join _) hspare
        (hthere List.mem_cons_self)
      rw [hcopy]
      exact ih halike hrest (hstill (hfolder.join _) hcopy)
    · have hproper := hnames name List.mem_cons_self
      have hoff (p : Path) : Off home (IsSpare target) ((p.join name).place home) :=
        off_join hproper hname
      rw [if_neg hname, hcons, bind_run, copy_run]
      rcases h.copy? (hfolder.join name) (hoff source) (hoff folder) with
        ⟨hnone, hnone'⟩ | ⟨d₁, d₁', hcopy, hcopy', halike⟩
      · rw [hnone, hnone']
        exact ⟨rfl, h⟩
      · rw [hcopy, hcopy']
        exact ih halike hrest (hstill (hfolder.join name) hcopy)

/-- Whether the archive is among the files of a folder or not, copying them comes to the same. -/
theorem agrees_copyFiles (source : Path) (hfolder : folder.WellFormed)
    (hspare : IsSpare target (folder.join "DB.zip")) :
    Agrees (Alike home (IsSpare target)) (do
      (← fileNames source).forM fun name => copy (source.join name) (folder.join name)) := by
  intro d d' h
  have hlists : (d'.fileNames? source).isSome = (d.fileNames? source).isSome := by
    rw [← isFolder_eq, ← isFolder_eq, h.isFolder_eq]
  rw [bind_run, bind_run, fileNames, require_run, require_run]
  cases hnames : d.fileNames? source with
  | none =>
    rw [hnames, Option.isSome_none, Option.isSome_eq_false_iff, Option.isNone_iff_eq_none] at hlists
    rw [hlists]
    exact ⟨rfl, h⟩
  | some names =>
    rw [hnames, Option.isSome_some, Option.isSome_iff_exists] at hlists
    obtain ⟨names', hnames'⟩ := hlists
    have hseen : d.seen source = names := by rw [seen, hnames, Option.getD_some]
    have hseen' : d'.seen source = names' := by rw [seen, hnames', Option.getD_some]
    have hsame : names'.filter (· ≠ ("DB.zip" : Text)) = names.filter (· ≠ ("DB.zip" : Text)) := by
      rw [← hseen, ← hseen']
      refine eq_of_pairwise_byteList ((pairwise_seen d' source).filter _)
        ((pairwise_seen d source).filter _) fun name => ?_
      rw [List.mem_filter, List.mem_filter, and_congr_left_iff]
      intro hname
      rw [mem_seen, mem_seen, h.isFolder_eq, h.right.home, h.left.home,
        fileAt?_congr (h.agree.same _ (off_of_ne (of_decide_eq_true hname)))]
    have hcopies {d d' : Disk} (h : Alike home (IsSpare target) d d') :=
      forM_copy_filter h hfolder hspare
        (fun name (hname : name ∈ d.seen source) => h.left.sound.isName_of_mem_seen hname)
        fun hmem => exists_content?_of_mem_seen (by decide) hmem
    obtain ⟨hfirst, halike⟩ := hcopies h
    obtain ⟨hsecond, halike'⟩ := hcopies (h.symm.trans h)
    rw [hseen] at hfirst halike
    rw [hseen', hsame] at hsecond halike'
    rw [hnames']
    exact ⟨hsecond.symm.trans hfirst, halike.trans halike'.symm⟩

theorem agrees_copyRaw (htarget : target.WellFormed) (hdown : target.Descends) (source : Path) :
    Agrees (Alike home (IsSpare target)) (copyRaw source (target.join "DB_STAGING")) := by
  refine agrees_forM fun f hf => ?_
  have hfolder := (htarget.join "DB_STAGING").join f
  have hname : IsName f := isName_of_mem_rawFolders hf
  have hne : ∀ f ∈ rawFolders, f ≠ "DB.zip" := by decide
  refine agrees_bind (agrees_inspect fun _ _ h => h.isFolder_eq _) fun there _ => ?_
  cases there with
  | false => exact agrees_pure ()
  | true =>
    refine agrees_bind (agrees_makeFolders _ hfolder fun l hl => ?_) fun _ _ =>
      agrees_copyFiles _ hfolder (Or.inr ⟨f, hf, rfl⟩)
    rcases Path.onWay_join hname hl with hl | rfl
    · exact off_of_onWay_join hdown isName_staging (by decide) hl
    · exact off_join hname (hne f hf)

theorem agrees_stage {settings : Settings} (htarget : settings.target.WellFormed)
    (hdown : settings.target.Descends) :
    Agrees (Alike home (IsSpare settings.target))
      (stage settings (settings.target.join "DB_STAGING")) := by
  have hcopy (source : Path) : Agrees (Alike home (IsSpare settings.target))
      (copyRaw source (settings.target.join "DB_STAGING")) :=
    agrees_copyRaw htarget hdown source
  unfold stage
  dsimp only
  split
  · exact agrees_bind (hcopy _) fun _ _ => hcopy _
  · exact hcopy _

theorem agrees_parseTableFile (ctx : Context) (tracked : Bool)
    (hoff : Off home (IsSpare target) (p.place home)) :
    Agrees (Alike home (IsSpare target)) (parseTableFile ctx p tracked) :=
  agrees_bind (agrees_readText hoff) fun _ _ => agrees_building _ _

theorem agrees_registerAll (staging : Path) (e : Encoder) (ctx : Context)
    (kinds : List Dictionary) :
    Agrees (Alike home (IsSpare target)) (registerAll staging e ctx kinds) := by
  induction kinds generalizing e ctx with
  | nil => exact agrees_pure _
  | cons k rest ih =>
    have hoff : Off home (IsSpare target)
        (((staging.join "TABLE").join (k.tableName ++ ".XML")).place home) :=
      off_of_ending (List.append_assoc k.tableName "." "XML").symm (by decide) (by decide)
    refine agrees_bind (agrees_parseTableFile ctx false hoff) fun parsed _ => ?_
    obtain ⟨t?, next⟩ := parsed
    cases t? with
    | none => exact agrees_throw _
    | some t => exact agrees_bind (agrees_lift _) fun registered _ => ih registered next

theorem agrees_parseTables (folder : Path) (tracked : Bool) (ctx : Context) (names : List Text)
    (hnames : ∀ name ∈ names, IsName name ∧ isDescription name = true) :
    Agrees (Alike home (IsSpare target)) (parseTables folder tracked ctx names) := by
  induction names generalizing ctx with
  | nil => exact agrees_pure _
  | cons name rest ih =>
    obtain ⟨hname, hdescription⟩ := hnames name List.mem_cons_self
    have hoff : Off home (IsSpare target) ((folder.join name).place home) := by
      rw [Path.place_join hname]
      exact off_of_isDescription hdescription
    exact agrees_bind (agrees_parseTableFile ctx tracked hoff) fun parsed _ =>
      agrees_bind (ih parsed.2 fun other hother => hnames other (List.mem_cons_of_mem name hother))
        fun _ _ => agrees_pure _

theorem agrees_appendRecords (htarget : target.WellFormed) (k : Dictionary) (records : Text) :
    Agrees (Alike home (IsSpare target)) (appendRecords (target.join "DB") k records) := by
  refine agrees_append _ (wellFormed_dataFile (htarget.join _) _) ?_ records
  exact off_of_ending (List.append_assoc k.tableName "." "DAT").symm (by decide) (by decide)

theorem agrees_addTable (htarget : target.WellFormed) (a : Artifacts) :
    Agrees (Alike home (IsSpare target)) (addTable (target.join "DB") a) := by
  have hindexFile : a.name ++ ".IDX.SQL" = (a.name ++ ".IDX") ++ "." ++ "SQL" := by
    rw [List.append_assoc, List.append_assoc]
    rfl
  have hwrite {q : Path} {file front ext : Text} (hq : q.WellFormed)
      (hfile : file = front ++ "." ++ ext) (hext : '/' ∉ ext ∧ '.' ∉ ext ∧ 1 < ext.length)
      (hzip : ext ≠ "zip") (text : Text) :
      Agrees (Alike home (IsSpare target)) (write (q.join file) text) :=
    agrees_write _ (hq.join file) (off_of_ending hfile hext hzip) _
  have hfolder : ((target.join "DB").join "TABLE").WellFormed := (htarget.join _).join _
  have hrecords : (recordsFolder (target.join "DB")).WellFormed := (htarget.join _).join _
  rw [addTable_eq]
  refine agrees_bind (agrees_bind ?_ fun _ _ => agrees_optional fun text _ => ?_) fun _ _ =>
    agrees_bind (agrees_optional fun text _ => ?_) fun _ _ =>
      agrees_bind (agrees_appendRecords htarget _ _) fun _ _ =>
        agrees_bind (agrees_appendRecords htarget _ _) fun _ _ => agrees_appendRecords htarget _ _
  · exact hwrite hfolder (List.append_assoc a.name "." "SQL").symm (by decide) (by decide) _
  · exact hwrite hfolder hindexFile (by decide) (by decide) text
  · exact hwrite hrecords (List.append_assoc a.name "." "CTL").symm (by decide) (by decide) text

/-- The descriptions that a job finds are files by their names. -/
theorem of_mem_descriptionNames {names : List Text}
    (h : ∃ d d', Alike home (IsSpare target) d d' ∧ (descriptionNames folder d).1 = .ok names) :
    ∀ name ∈ names, IsName name ∧ isDescription name = true := by
  obtain ⟨d, _, hd, hfound⟩ := h
  obtain ⟨rfl, _⟩ := descriptionNames_eq_ok (Prod.ext hfound rfl)
  exact fun name hname => hd.left.sound.of_mem_descriptions hname

theorem agrees_generateTables (htarget : target.WellFormed) (choice : FaultChoice) (e : Encoder)
    (staging : Path) (tracked : Bool) (ctx : Context) :
    Agrees (Alike home (IsSpare target))
      (generateTables choice e staging (target.join "DB") tracked ctx) := by
  refine agrees_bind (agrees_descriptionNames _ fun _ _ => off_of_isDescription) fun names hnames =>
    agrees_bind (agrees_parseTables _ tracked ctx names (of_mem_descriptionNames hnames)) fun _ _ =>
      agrees_bind (agrees_lift _) fun _ _ =>
        agrees_bind (agrees_forM fun k _ => agrees_appendRecords htarget k _) fun _ _ =>
          agrees_forM fun a _ => agrees_addTable htarget a

theorem agrees_addUnits (htarget : target.WellFormed) (e : Encoder) (staging : Path)
    (kind : UnitKind) :
    Agrees (Alike home (IsSpare target)) (addUnits e staging (target.join "DB") kind) := by
  refine agrees_bind (agrees_descriptionNames _ fun _ _ => off_of_isDescription) fun names hnames =>
    agrees_forM fun name hname => ?_
  obtain ⟨hproper, hdescription⟩ := of_mem_descriptionNames hnames name hname
  obtain ⟨base, last, hbase⟩ := exists_extension? hdescription
  have hoff : Off home (IsSpare target) (((staging.join kind.name).join name).place home) := by
    rw [Path.place_join hproper]
    exact off_of_isDescription hdescription
  refine agrees_bind (agrees_bind (agrees_readText hoff) fun _ _ => agrees_lift _) fun u? _ => ?_
  cases u? with
  | none => exact agrees_pure _
  | some u =>
    refine agrees_bind (agrees_lift _) fun record _ =>
      agrees_bind (agrees_appendRecords htarget _ _) fun _ _ => agrees_forM fun file hfile => ?_
    obtain ⟨_, ext, hext, rfl⟩ := (mem_sources_iff ⟨last, hbase⟩).mp hfile
    have hsource (p : Path) :
        Off home (IsSpare target) ((p.join (base ++ "." ++ ext)).place home) := by
      have hall : ∀ ext ∈ kind.extensions,
          ('/' ∉ ext ∧ '.' ∉ ext ∧ 1 < ext.length) ∧ ext ≠ "zip" := by
        cases kind <;> decide
      exact off_of_ending rfl (hall ext hext).1 (hall ext hext).2
    exact agrees_copy _ (((htarget.join _).join _).join _) (hsource _) (hsource _)

theorem agrees_writeUpgradeControl (htarget : target.WellFormed) (e : Encoder) (k : Dictionary) :
    Agrees (Alike home (IsSpare target)) (writeUpgradeControl e (target.join "DB") k) := by
  have hoff : Off home (IsSpare target)
      ((controlFile (target.join "DB") (upgradeName k)).place home) :=
    off_of_ending (List.append_assoc (upgradeName k) "." "CTL").symm (by decide) (by decide)
  refine agrees_bind (agrees_inspect fun _ _ h => h.isThere_eq hoff) fun there _ => ?_
  split
  · split
    · exact agrees_bind (agrees_lift _) fun text _ =>
        agrees_write _ (((htarget.join _).join _).join _) hoff _
    · exact agrees_pure _
  · exact agrees_pure _

/-- The package is filled alike. -/
theorem agrees_fill {settings : Settings} (htarget : settings.target.WellFormed) (staging : Path) :
    Agrees (Alike home (IsSpare settings.target))
      (fill settings staging (settings.target.join "DB")) := by
  have hrecords {table : Text} : Off home (IsSpare settings.target)
      ((dataFile (settings.target.join "DB") table).place home) :=
    off_of_ending (List.append_assoc table "." "DAT").symm (by decide) (by decide)
  refine agrees_bind (agrees_registerAll staging _ {} _) fun registered _ => ?_
  refine agrees_bind (agrees_generateTables htarget _ _ _ _ _) fun _ _ =>
    agrees_bind (agrees_bind (agrees_appendRecords htarget _ _) fun _ _ =>
      agrees_forM fun kind _ => agrees_addUnits htarget _ _ kind) fun _ _ =>
        agrees_bind (agrees_forM fun k _ => ?_) fun _ _ =>
          agrees_forM fun k _ => agrees_writeUpgradeControl htarget _ k
  exact agrees_copy _ (wellFormed_dataFile (htarget.join _) _) hrecords hrecords

theorem render_congr {files files' : Text → List Text} (made : Moment) (release : Text)
    (h : ∀ folder, IsName folder → files' folder = files folder) :
    InstallScript.render made release files' = InstallScript.render made release files := by
  unfold InstallScript.render
  rw [h "TYPE" (by decide), h "TABLE" (by decide), h "SEQUENCE" (by decide),
    h "FUNCTION" (by decide), h "PROCEDURE" (by decide), h "PACKAGE" (by decide),
    h "VIEW" (by decide), h "INIT_TABLE" (by decide)]

theorem ofFolder_eq (h : Alike home (IsSpare target) d d') (made : Moment) (release : Text) :
    InstallScript.ofFolder made release (target.join "DB") d' =
      InstallScript.ofFolder made release (target.join "DB") d := by
  refine render_congr made release fun folder hfolder => ?_
  change d'.seen ((target.join "DB").join folder) = d.seen ((target.join "DB").join folder)
  refine h.seen_eq fun name => off_of_package ?_
  rw [Path.place_join hfolder, List.append_assoc]
  exact List.prefix_append _ _

/-- Tools are not spare, unless the target is among them. -/
theorem off_of_tools (htools : ¬ (source.join "TOOLS").place home <+: target.place home)
    (hl : (source.join "TOOLS").place home <+: l) : Off home (IsSpare target) l := by
  have hname : IsName "TOOLS" := by decide
  have hzip : IsName "DB.zip" := by decide
  have hraw : ∀ f ∈ rawFolders, f ≠ "TOOLS" := by decide
  rw [Path.place_join hname] at hl htools
  -- The tools are above a place that is called otherwise only if they are above its folder.
  have hstep {front : Location} {last : Text} (hlast : last ≠ "TOOLS")
      (h : source.place home ++ [("TOOLS" : Text)] <+: front ++ [last]) :
      source.place home ++ [("TOOLS" : Text)] <+: front := by
    rcases List.prefix_concat_iff.mp h with heq | hprefix
    · exact absurd (List.singleton_inj.mp (List.append_inj' heq rfl).2).symm hlast
    · exact hprefix
  rintro q (rfl | ⟨f, hf, rfl⟩) rfl
  · rw [Path.place_join hzip] at hl
    exact htools (hstep (by decide) hl)
  · rw [Path.place_join hzip, Path.place_join (isName_of_mem_rawFolders hf),
      Path.place_join isName_staging] at hl
    exact htools (hstep (by decide) (hstep (hraw f hf) (hstep (by decide) hl)))

theorem templates_eq (h : Alike home (IsSpare target) d d')
    (htools : ¬ (source.join "TOOLS").place home <+: target.place home) :
    templates source d' = templates source d := by
  unfold templates
  rw [h.isFolder_eq, h.locate?_eq]
  cases hlocate : d.locate? (source.join "TOOLS") with
  | none => rfl
  | some m =>
    have hplace := locate?_eq_some hlocate
    rw [h.left.home] at hplace
    have hbelow : d'.below m = d.below m := by
      rw [hplace]
      exact below_congr fun rest _ =>
        h.agree.same _ (off_of_tools htools (List.prefix_append _ rest))
    rw [Option.map_some, Option.map_some, hbelow]

theorem agrees_copyTemplates (htarget : target.WellFormed) (hdown : target.Descends)
    (htools : ¬ (source.join "TOOLS").place home <+: target.place home) :
    Agrees (Alike home (IsSpare target)) (copyTemplates source (target.join "DB")) := by
  have hdb : IsName "DB" := by decide
  rw [copyTemplates_eq]
  refine agrees_bind (agrees_inspect fun _ _ h => templates_eq h htools) fun tools hfound =>
    agrees_forM fun entry hentry => ?_
  obtain ⟨d, _, hd, hlook⟩ := hfound
  obtain ⟨rfl, _⟩ := inspect_eq_ok (Prod.ext hlook rfl)
  have hnames := isName_of_mem_templates hd.left.sound hentry
  have hplace (p : Path) : (p.join (Text.joined "/" (("TOOLS" : Text) :: entry.1))).place home =
      p.place home ++ ("TOOLS" : Text) :: entry.1 :=
    Path.place_join_joined (List.cons_ne_nil _ _) hnames
  have hcopied : Off home (IsSpare target)
      (((target.join "DB").join (Text.joined "/" (("TOOLS" : Text) :: entry.1))).place home) := by
    rw [hplace]
    exact off_of_package (List.prefix_append _ _)
  have hread : Off home (IsSpare target)
      ((source.join (Text.joined "/" (("TOOLS" : Text) :: entry.1))).place home) := by
    refine off_of_tools htools ?_
    rw [hplace, Path.place_join (by decide), List.prefix_append_right_inj]
    exact List.prefix_append [("TOOLS" : Text)] entry.1
  unfold copyTemplate
  dsimp only
  split
  · refine agrees_bind (agrees_makeFolders _ ((htarget.join _).join _) fun l hl => ?_) fun _ _ => ?_
    · rcases Path.onWay_join_joined (List.cons_ne_nil _ _) hnames hl with hl | ⟨front, _, _, rfl⟩
      · exact off_of_onWay_join hdown hdb (by decide) hl
      · exact off_of_package (List.prefix_append _ _)
    · split
      · exact agrees_throw _
      · exact agrees_pure _
  · exact agrees_copy _ ((htarget.join _).join _) hread hcopied

/-- The package is finished alike, unless the target is among the tools that it takes over. -/
theorem agrees_finish {made : Moment} {settings : Settings}
    (htarget : settings.target.WellFormed) (hdown : settings.target.Descends)
    (htools : ∀ shared ∈ settings.shared,
      ¬ (shared.join "TOOLS").place home <+: settings.target.place home) :
    Agrees (Alike home (IsSpare settings.target))
      (finish made settings (settings.target.join "DB")) := by
  have hscript : Agrees (Alike home (IsSpare settings.target))
      (writeScript made settings.release (settings.target.join "DB")) := by
    refine agrees_bind (agrees_inspect fun _ _ h => ofFolder_eq h made _) fun text _ =>
      agrees_write _ ((((htarget.join _).join _).join _).join _) ?_ _
    exact off_join (by decide) (by decide)
  have hrelease : Agrees (Alike home (IsSpare settings.target))
      (writeRelease (settings.target.join "DB") settings.release) := by
    refine agrees_write _ ((htarget.join _).join _) ?_ _
    exact off_join (by decide) (by decide)
  refine agrees_bind hscript fun _ _ => ?_
  dsimp only
  split
  · rename_i shared hshared
    exact agrees_bind (agrees_copyTemplates htarget hdown (htools shared hshared))
      fun _ _ => hrelease
  · exact hrelease

theorem off_isStagedCopy (hl : Off home (IsSpare target) l) :
    Off home (IsStagedCopy target) l :=
  fun q hq => hl q (Or.inr hq)

theorem off_archive : Off home (IsStagedCopy target) ((target.join "DB.zip").place home) := by
  have hzip : IsName "DB.zip" := by decide
  rintro q ⟨f, hf, rfl⟩ hplace
  have hbelow : (target.join "DB_STAGING").place home <+: (target.join "DB.zip").place home := by
    rw [hplace, place_stagedCopy hf]
    exact List.prefix_append _ _
  exact absurd (eq_of_places_above isName_staging hzip hbelow (List.prefix_refl _)) (by decide)

/-- Once an archive has been begun on both disks, it is written alike. -/
theorem agrees_writeEntries (htarget : target.WellFormed) :
    Agrees (Alike home (IsStagedCopy target))
      (writeEntries (target.join "DB") (target.join "DB.zip")) := by
  have hoff {l : Location} (hl : (target.join "DB").place home <+: l) :
      Off home (IsStagedCopy target) l :=
    off_isStagedCopy (off_of_package hl)
  have hfind {d d' : Disk} (h : Alike home (IsStagedCopy target) d d') :
      ((d'.locate? (target.join "DB")).filter fun l => (d'.entryAt? l).isSome) =
        (d.locate? (target.join "DB")).filter fun l => (d.entryAt? l).isSome := by
    rw [h.locate?_eq]
    cases hlocate : d.locate? (target.join "DB") with
    | none => rfl
    | some l =>
      have hplace := locate?_eq_some hlocate
      rw [h.left.home] at hplace
      rw [Option.filter_some, Option.filter_some, h.agree.same l (hoff (by rw [hplace]))]
  refine agrees_bind (agrees_require _ fun _ _ h => hfind h) fun location hfound => ?_
  obtain ⟨d, _, hd, hrequire⟩ := hfound
  obtain ⟨hlocated, _⟩ := require_eq_ok (Prod.ext hrequire rfl)
  have hplace := locate?_eq_some (Option.filter_eq_some_iff.mp hlocated).1
  rw [hd.left.home] at hplace
  subst hplace
  have htree {d d' : Disk} (h : Alike home (IsStagedCopy target) d d') :
      d'.tree ((target.join "DB").place home) = d.tree ((target.join "DB").place home) := by
    have hbelow : d'.below ((target.join "DB").place home) =
        d.below ((target.join "DB").place home) :=
      below_congr fun rest _ => h.agree.same _ (hoff (List.prefix_append _ rest))
    rw [tree, tree, h.agree.same _ (hoff (List.prefix_refl _)), hbelow]
  refine agrees_bind (agrees_inspect fun _ _ h => htree h) fun things _ => ?_
  refine agrees_bind (agrees_inspect fun _ _ h => by rw [h.locate?_eq]) fun self _ =>
    agrees_bind (agrees_write _ (htarget.join _) off_archive _) fun _ _ => ?_
  split
  · exact agrees_throw _
  · exact agrees_pure _

/-- Results that are the same in the package, and after success everywhere, although it may be in
doubt which fault is reported. -/
structure SameResult {α : Type} (InDoubt : Fault → Prop) (home : Location) (target : Path)
    (r r' : Except Fault α × Disk) : Prop where
  outcome : SameOutcome InDoubt r.1 r'.1
  package : ∀ l, (target.join "DB").place home <+: l → r'.2.entryAt? l = r.2.entryAt? l
  all : ∀ a, r.1 = .ok a → ∀ l, r'.2.entryAt? l = r.2.entryAt? l

section Results

variable {α β : Type} {InDoubt : Fault → Prop}

/-- The results of a job and of what follows it if it succeeds. -/
theorem sameResult_bind {x : Job α} {f : α → Job β} {R : Disk → Disk → Prop}
    (hx : (x d').1 = (x d).1 ∧ R (x d).2 (x d').2)
    (hR : ∀ e e', R e e' → ∀ l, (target.join "DB").place home <+: l →
      e'.entryAt? l = e.entryAt? l)
    (hf : ∀ a e e', x d = (.ok a, e) → x d' = (.ok a, e') → R e e' →
      SameResult InDoubt home target (f a e) (f a e')) :
    SameResult InDoubt home target ((x >>= f) d) ((x >>= f) d') := by
  obtain ⟨hsame, hafter⟩ := hx
  rw [bind_run, bind_run]
  rcases cases_of_fst_eq hsame with ⟨fault, e, e', hrun, hrun'⟩ | ⟨a, e, e', hrun, hrun'⟩
  · rw [hrun, hrun'] at hafter ⊢
    exact ⟨.same _, hR e e' hafter, fun _ h => by cases h⟩
  · rw [hrun, hrun'] at hafter ⊢
    exact hf a e e' hrun hrun' hafter

namespace SameResult

variable {r r' r'' : Except Fault α × Disk}

theorem refl (r : Except Fault α × Disk) : SameResult InDoubt home target r r :=
  ⟨.same _, fun _ _ => rfl, fun _ _ _ => rfl⟩

/-- What is answered in the end makes no difference. -/
theorem andReturn {x : Job α} (h : SameResult InDoubt home target (x d) (x d')) (b : β) :
    SameResult InDoubt home target ((x >>= fun _ => pure b) d) ((x >>= fun _ => pure b) d') := by
  obtain ⟨houtcome, hpackage, hall⟩ := h
  rw [bind_run, bind_run]
  rcases hrun : x d with ⟨outcome, e⟩
  rcases hrun' : x d' with ⟨outcome', e'⟩
  rw [hrun, hrun'] at houtcome hpackage hall
  cases houtcome with
  | same =>
    cases outcome with
    | ok a => exact ⟨.same _, hpackage, fun _ _ => hall a rfl⟩
    | error fault => exact ⟨.same _, hpackage, fun _ h => by cases h⟩
  | inDoubt h h' => exact ⟨.inDoubt h h', hpackage, fun _ h => by cases h⟩

/-- On one disk it may already have been in doubt which fault is reported. -/
theorem of_sameButFault (h : SameButFault InDoubt r r')
    (h' : SameResult InDoubt home target r' r'') : SameResult InDoubt home target r r'' := by
  refine ⟨h.outcome.trans h'.outcome, fun l hl => ?_, fun a ha l => ?_⟩
  · rw [h'.package l hl, h.state]
  · have hsame := h.outcome.toOption_eq
    rw [ha] at hsame
    rw [h'.all a (except_toOption_eq_some_iff.mp hsame.symm), h.state]

end SameResult

end Results

theorem package_of_alike {spare : Path → Prop} (hspare : ∀ q, spare q → IsSpare target q)
    (d d' : Disk) (h : Alike home spare d d') (l : Location)
    (hl : (target.join "DB").place home <+: l) : d'.entryAt? l = d.entryAt? l :=
  h.agree.same l fun q hq => off_of_package hl q (hspare q hq)

/-- Packing leaves no difference. -/
theorem sameResult_pack {InDoubt : Fault → Prop} (htarget : target.WellFormed)
    (hdown : target.Descends) (h : Alike home (IsSpare target) d d') :
    SameResult InDoubt home target (pack target d) (pack target d') := by
  have hzip : IsName "DB.zip" := by decide
  have hparent : Agrees (Alike home (IsSpare target))
      ((target.join "DB.zip").parent?.forM fun parent =>
        advance (.unwritable (target.join "DB.zip")) (Disk.makeFolders parent)) :=
    agrees_optional fun parent hparent =>
      agrees_makeFolders _ (wellFormed_of_parent? (htarget.join _) hparent) fun l hl =>
        off_of_onWay hdown (Path.onWay_parent?_join hzip hparent hl)
  have hstaged : ∀ q, IsStagedCopy target q → IsSpare target q := fun q => Or.inr
  rw [pack, createArchive_eq, bind_assoc, bind_assoc]
  refine sameResult_bind (hparent d d' h) (package_of_alike fun _ => id)
    fun _ e e' _ _ h => ?_
  -- From now on the archive is the same on both disks.
  have hbegun : ∃ begun begun', e.write? (target.join "DB.zip") (.archive []) = some begun ∧
      e'.write? (target.join "DB.zip") (.archive []) = some begun' ∧
        Alike home (IsStagedCopy target) begun begun' :=
    h.write_spare (htarget.join _) (Or.inl rfl) (fun q hq => hq.symm) hstaged _
  obtain ⟨begun, begun', hbegin, hbegin', hbegun⟩ := hbegun
  refine sameResult_bind (R := Alike home (IsStagedCopy target)) ?_
    (package_of_alike hstaged) fun _ e e' _ _ h => ?_
  · unfold change
    rw [hbegin, hbegin']
    exact ⟨rfl, hbegun⟩
  refine sameResult_bind (agrees_writeEntries htarget e e' h) (package_of_alike hstaged)
    fun _ e e' _ _ h => ?_
  have hstaging : Off home (IsStagedCopy target) ((target.join "DB_STAGING").place home) :=
    off_isStagedCopy (off_join isName_staging (by decide))
  obtain ⟨hflag, hentries⟩ := h.removeFolder (target.join "DB_STAGING") hstaging
  have hbelow (l : Location) : Off home (IsStagedCopy target) l ∨
      (target.join "DB_STAGING").place home <+: l := by
    by_contra hboth
    obtain ⟨hoff, hbeside⟩ := not_or.mp hboth
    refine hoff fun q hq hplace => hbeside ?_
    obtain ⟨f, hf, rfl⟩ := hq
    rw [hplace, place_stagedCopy hf]
    exact List.prefix_append _ _
  have hpackage (l : Location) (hl : (target.join "DB").place home <+: l) :=
    hentries l (Or.inl (off_isStagedCopy (off_of_package hl)))
  unfold advance
  rcases hleft : e.removeFolder (target.join "DB_STAGING") with ⟨cleared, _ | _⟩ <;>
    rcases hright : e'.removeFolder (target.join "DB_STAGING") with ⟨cleared', flag⟩ <;>
      rw [hleft, hright] at hflag hentries hpackage <;> obtain rfl : flag = _ := hflag
  · exact ⟨.same _, hpackage, fun _ h => by cases h⟩
  · exact ⟨.same _, hpackage, fun _ _ l => hentries l ((hbelow l).imp_right fun hl => ⟨rfl, hl⟩)⟩

end Compile
end SchemaPackage
