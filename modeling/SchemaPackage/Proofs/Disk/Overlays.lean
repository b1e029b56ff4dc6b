import SchemaPackage.Proofs.Disk.Agreement
import SchemaPackage.Proofs.Disk.Trees

/-!
Files that are laid over a disk. Each has a place where a file can be written, so all folders stay,
and where no file is laid the disk shows through. What is laid later lies on top. Copying the files
of a folder lays them over another folder, and if it comes to an end it has copied them all.
-/
namespace SchemaPackage

open Outcome Text

namespace Disk

variable {d d' d'' : Disk} {p q folder source target : Path} {l m : Location} {name : Text}
  {c : Content} {cover cover' : Location → Option Content}

/-- Files lie over a disk, and elsewhere the disk shows through. -/
structure Overlaid (cover : Location → Option Content) (d d' : Disk) : Prop where
  home : d'.home = d.home
  closed : d'.closed = d.closed
  accepts : ∀ l c, cover l = some c → d.acceptsFile l = true
  entry : ∀ l, d'.entryAt? l = ((cover l).map Entry.file).or (d.entryAt? l)

/-- The file of that name directly in a folder, provided that the path leads to a folder and that of
the file can be followed. -/
def fileIn? (d : Disk) (folder : Path) (name : Text) : Option Content :=
  if (folder.join name).isUsable = true ∧ d.isFolder folder = true then
    d.fileAt? (folder.place d.home ++ [name])
  else none

theorem fileIn?_eq_some : d.fileIn? folder name = some c ↔
    (folder.join name).isUsable = true ∧ d.isFolder folder = true ∧
      d.fileAt? (folder.place d.home ++ [name]) = some c := by
  unfold fileIn?
  split
  · rename_i hthere
    rw [← and_assoc, and_iff_right hthere]
  · rename_i hmissing
    rw [← and_assoc]
    exact ⟨fun h => absurd h (Option.some_ne_none c).symm, fun h => absurd h.1 hmissing⟩

/-- The files in a folder are those that are seen there. -/
theorem mem_seen_iff_fileIn? : name ∈ d.seen folder ↔ ∃ c, d.fileIn? folder name = some c := by
  simp only [mem_seen, fileIn?_eq_some, exists_and_left]

theorem content?_of_fileIn? (hname : IsName name) (h : d.fileIn? folder name = some c) :
    d.content? (folder.join name) = some c := by
  obtain ⟨husable, hfolder, hfile⟩ := fileIn?_eq_some.mp h
  rw [content?_eq, locate?_join_of_isFolder hname husable hfolder, Option.bind_some,
    Path.place_join hname]
  exact hfile

theorem Sound.isName_of_fileIn? (hd : d.Sound) (h : d.fileIn? folder name = some c) :
    IsName name :=
  hd.isName_of_mem_filesAt (mem_filesAt.mpr ⟨c, (fileIn?_eq_some.mp h).2.2⟩)

namespace Overlaid

theorem refl (d : Disk) : Overlaid (fun _ => none) d d where
  home := rfl
  closed := rfl
  accepts _ _ h := nomatch h
  entry _ := rfl

theorem congr (h : Overlaid cover d d') (heq : ∀ l, cover' l = cover l) : Overlaid cover' d d' := by
  rwa [funext heq]

theorem entryAt?_eq (h : Overlaid cover d d') (hl : cover l = none) :
    d'.entryAt? l = d.entryAt? l := by
  rw [h.entry, hl]
  rfl

theorem fileAt?_eq (h : Overlaid cover d d') (hl : cover l = none) : d'.fileAt? l = d.fileAt? l :=
  fileAt?_congr (h.entryAt?_eq hl)

/-- No place takes a file that did not, or the other way round. -/
theorem acceptsFile_eq (h : Overlaid cover d d') (l : Location) :
    d'.acceptsFile l = d.acceptsFile l := by
  cases hl : cover l with
  | none =>
    have htakes : d'.takesNew = d.takesNew :=
      funext fun folder => funext fun name => takesNew_congr h.closed folder name
    rw [acceptsFile, acceptsFile, h.entryAt?_eq hl, htakes]
  | some c =>
    rw [h.accepts l c hl, acceptsFile, h.entry, hl]
    rfl

theorem isFolderAt_eq (h : Overlaid cover d d') (l : Location) :
    d'.isFolderAt l = d.isFolderAt l := by
  cases hl : cover l with
  | none => rw [isFolderAt, h.entryAt?_eq hl, isFolderAt]
  | some c =>
    have haccepts := h.accepts l c hl
    rw [isFolderAt_of_acceptsFile haccepts,
      isFolderAt_of_acceptsFile ((h.acceptsFile_eq l).trans haccepts)]

theorem locate?_eq (h : Overlaid cover d d') (p : Path) : d'.locate? p = d.locate? p :=
  locate?_congr h.home h.isFolderAt_eq p

theorem isFolder_eq (h : Overlaid cover d d') (p : Path) : d'.isFolder p = d.isFolder p := by
  rw [Bool.eq_iff_iff, isFolder_iff_locate?, isFolder_iff_locate?, h.locate?_eq, h.home,
    h.isFolderAt_eq]

theorem content?_eq (h : Overlaid cover d d') (hp : cover (p.place d.home) = none) :
    d'.content? p = d.content? p := by
  rw [Disk.content?_eq, Disk.content?_eq, h.locate?_eq]
  cases hlocate : d.locate? p with
  | none => rfl
  | some l =>
    obtain rfl := locate?_eq_some hlocate
    exact h.fileAt?_eq hp

theorem fileIn?_eq (h : Overlaid cover d d')
    (hfolder : cover (folder.place d.home ++ [name]) = none) :
    d'.fileIn? folder name = d.fileIn? folder name := by
  rw [fileIn?, fileIn?, h.isFolder_eq, h.home, h.fileAt?_eq hfolder]

/-- What is laid over a disk later lies on top. -/
theorem trans (h : Overlaid cover d d') (h' : Overlaid cover' d' d'') :
    Overlaid (fun l => (cover' l).or (cover l)) d d'' where
  home := h'.home.trans h.home
  closed := h'.closed.trans h.closed
  accepts l c hl := by
    rcases Option.or_eq_some_iff.mp hl with hl | ⟨_, hl⟩
    · rw [← h.acceptsFile_eq]
      exact h'.accepts l c hl
    · exact h.accepts l c hl
  entry l := by
    rw [h'.entry, h.entry, Option.map_or, Option.or_assoc]

end Overlaid

/-- Nothing but one file, if there is one. -/
def single (l : Location) (c? : Option Content) (m : Location) : Option Content :=
  if m = l then c? else none

@[simp] theorem single_self (l : Location) (c? : Option Content) : single l c? l = c? := if_pos rfl

theorem single_of_ne (h : m ≠ l) (c? : Option Content) : single l c? m = none := if_neg h

theorem single_or_single (l : Location) (c c' : Content) (m : Location) :
    (single l (some c') m).or (single l (some c) m) = single l (some c') m := by
  unfold single
  split <;> rfl

theorem overlaid_put (h : d.acceptsFile l = true) (c : Content) :
    Overlaid (single l (some c)) d (d.put l (.file c)) where
  home := rfl
  closed := rfl
  accepts m c' hm := by
    unfold single at hm
    split at hm
    · rename_i hml
      rwa [hml]
    · cases hm
  entry m := by
    have hne : l ≠ [] := by
      rintro rfl
      exact absurd (isFolderAt_of_acceptsFile h) (Bool.noConfusion ·)
    rw [entryAt?_put hne]
    unfold single
    split <;> rfl

theorem overlaid_write? (h : d.write? p c = some d') :
    Overlaid (single (p.place d.home) (some c)) d d' := by
  have haccepts := acceptsFile_of_write? h
  obtain ⟨_, _, _, rfl⟩ := write?_eq_some h
  exact overlaid_put haccepts c

/-- A copy lays what the source holds over the target, if they are different files. -/
theorem overlaid_copy? (hpq : p.place d.home ≠ q.place d.home) (hp : d.content? p = some c)
    (h : d.copy? p q = some d') : Overlaid (single (q.place d.home) (some c)) d d' := by
  obtain ⟨emptied, c', hempty, hcontent, hwrite⟩ := copy?_eq_some h
  have hemptied := overlaid_write? hempty
  rw [hemptied.content?_eq (single_of_ne hpq _), hp] at hcontent
  obtain rfl := Option.some.inj hcontent
  have hwritten := overlaid_write? hwrite
  rw [hemptied.home] at hwritten
  exact (hemptied.trans hwritten).congr fun l => (single_or_single _ _ _ l).symm

theorem exists_copy? (hpq : p.place d.home ≠ q.place d.home) (hp : d.content? p = some c)
    (hq : d.Accepts q) : ∃ d', d.copy? p q = some d' := by
  have hempty := write?_of_accepts hq .empty
  have hemptied := overlaid_write? hempty
  generalize d.put (q.place d.home) (.file .empty) = emptied at hempty hemptied
  have hcontent := hemptied.content?_eq (single_of_ne hpq _)
  have haccepts : emptied.Accepts q := by
    obtain ⟨l, hlocate, haccepts⟩ := hq
    exact ⟨l, (hemptied.locate?_eq q).trans hlocate, (hemptied.acceptsFile_eq l).trans haccepts⟩
  have hwrite := write?_of_accepts haccepts c
  refine ⟨emptied.put (q.place emptied.home) (.file c), ?_⟩
  simp only [copy?, hp, hempty, hcontent, hwrite, Option.bind_eq_bind, Option.bind_some]

/-- A file can be written in a folder that the path leads to, if its own path can be followed and
the folder takes it. -/
theorem accepts_join_iff (hname : IsName name) (hfolder : d.isFolder folder = true) :
    d.Accepts (folder.join name) ↔ (folder.join name).isUsable = true ∧
      d.acceptsFile (folder.place d.home ++ [name]) = true := by
  rw [← Path.place_join hname]
  constructor
  · intro h
    have haccepts := h.acceptsFile
    obtain ⟨_, hlocate, _⟩ := h
    exact ⟨isUsable_of_locate? hlocate, haccepts⟩
  · rintro ⟨husable, haccepts⟩
    exact ⟨_, locate?_join_of_isFolder hname husable hfolder, haccepts⟩

/-- Layers one over another: of those that have a file for a place, the last one shows. -/
def stacked {α : Type} (layer : α → Location → Option Content) (items : List α) (l : Location) :
    Option Content :=
  items.reverse.findSome? fun a => layer a l

theorem stacked_cons {α : Type} (layer : α → Location → Option Content) (a : α) (rest : List α)
    (l : Location) : stacked layer (a :: rest) l = (stacked layer rest l).or (layer a l) := by
  rw [stacked, List.reverse_cons, List.findSome?_append, List.findSome?_singleton, stacked]

theorem stacked_eq_none {α : Type} {layer : α → Location → Option Content} {items : List α}
    (h : ∀ a ∈ items, layer a l = none) : stacked layer items l = none :=
  List.findSome?_eq_none_iff.mpr fun a ha => h a (List.mem_reverse.mp ha)

theorem stacked_congr {α : Type} {layer layer' : α → Location → Option Content} {items : List α}
    (h : ∀ a ∈ items, layer' a = layer a) (l : Location) :
    stacked layer' items l = stacked layer items l := by
  induction items with
  | nil => rfl
  | cons a rest ih =>
    rw [stacked_cons, stacked_cons, h a List.mem_cons_self,
      ih fun b hb => h b (List.mem_cons_of_mem a hb)]

/-- Where no other layer has a file, one shows whether it is the last or not. -/
theorem stacked_eq {α : Type} {layer : α → Location → Option Content} {items : List α} {a : α}
    (ha : a ∈ items) (h : ∀ b ∈ items, b ≠ a → layer b l = none) :
    stacked layer items l = layer a l := by
  induction items with
  | nil => cases ha
  | cons b rest ih =>
    have hrest : ∀ b ∈ rest, b ≠ a → layer b l = none := fun b hb =>
      h b (List.mem_cons_of_mem _ hb)
    rw [stacked_cons]
    by_cases hmem : a ∈ rest
    · rw [ih hmem hrest]
      by_cases hb : b = a
      · rw [hb, Option.or_self]
      · rw [h b List.mem_cons_self hb, Option.or_none]
    · obtain rfl := (List.mem_cons.mp ha).resolve_right hmem
      rw [stacked_eq_none fun b hb => hrest b hb fun heq => hmem (heq ▸ hb), Option.none_or]

/-- The files of one folder, in the places that they have in another. -/
def layer (d : Disk) (source target : Path) (l : Location) : Option Content :=
  match Text.after? (target.place d.home) l with
  | some [name] => d.fileIn? source name
  | _ => none

theorem layer_concat (d : Disk) (source target : Path) (name : Text) :
    d.layer source target (target.place d.home ++ [name]) = d.fileIn? source name := by
  rw [layer, after?_eq_some.mpr rfl]

theorem layer_eq_some (h : d.layer source target l = some c) :
    ∃ name, l = target.place d.home ++ [name] ∧ d.fileIn? source name = some c := by
  unfold layer at h
  split at h
  · rename_i name hafter
    exact ⟨name, after?_eq_some.mp hafter, h⟩
  · cases h

theorem layer_eq_none (h : ∀ name, l ≠ target.place d.home ++ [name]) :
    d.layer source target l = none := by
  rw [Option.eq_none_iff_forall_ne_some]
  intro c hc
  obtain ⟨name, hl, _⟩ := layer_eq_some hc
  exact h name hl

/-- The files of a folder, one after another. -/
theorem stacked_seen (d : Disk) (source target : Path) (l : Location) :
    stacked (fun name => single (target.place d.home ++ [name]) (d.fileIn? source name))
      (d.seen source) l = d.layer source target l := by
  by_cases hl : ∃ name, l = target.place d.home ++ [name]
  · obtain ⟨name, rfl⟩ := hl
    have hother (other : Text) (hne : other ≠ name) :
        single (target.place d.home ++ [other]) (d.fileIn? source other)
          (target.place d.home ++ [name]) = none := by
      refine single_of_ne (fun heq => hne ?_) _
      exact (List.singleton_inj.mp (List.append_cancel_left heq)).symm
    rw [layer_concat]
    by_cases hmem : name ∈ d.seen source
    · rw [stacked_eq hmem fun other _ hne => hother other hne, single_self]
    · rw [stacked_eq_none fun other hmem' => hother other fun heq => hmem (heq ▸ hmem')]
      rw [mem_seen_iff_fileIn?, not_exists] at hmem
      exact (Option.eq_none_iff_forall_ne_some.mpr hmem).symm
  · rw [not_exists] at hl
    rw [layer_eq_none hl]
    exact stacked_eq_none fun name _ => single_of_ne (hl name) _

/-- Every file of one folder can be written in another. -/
def Fits (d : Disk) (source target : Path) : Prop :=
  ∀ name ∈ d.seen source,
    (target.join name).isUsable = true ∧ d.acceptsFile (target.place d.home ++ [name]) = true

end Disk

namespace Job

open Disk

variable {α : Type} {d : Disk} {cover cover' : Location → Option Content} {fits fits' : Prop}
  {job job' : Job Unit} {source target : Path} {name : Text} {c : Content}

/-- On this disk the job succeeds exactly if the files fit, and then it has laid them over it. -/
structure Lays (cover : Location → Option Content) (fits : Prop) (job : Job Unit) (d : Disk) :
    Prop where
  succeeds_iff : (∃ d', job d = (.ok (), d')) ↔ fits
  overlaid : ∀ d', job d = (.ok (), d') → Overlaid cover d d'

theorem lays_pure (d : Disk) : Lays (fun _ => none) True (pure ()) d where
  succeeds_iff := iff_true_intro ⟨d, rfl⟩
  overlaid d' h := by
    obtain ⟨_, rfl⟩ := pure_eq_ok_iff.mp h
    exact Overlaid.refl d

theorem Lays.congr (h : Lays cover fits job d) (hjob : job' d = job d)
    (hcover : ∀ l, cover' l = cover l) (hfits : fits' ↔ fits) : Lays cover' fits' job' d where
  succeeds_iff := by rw [hjob, h.succeeds_iff, hfits]
  overlaid d' hd' := (h.overlaid d' (hjob ▸ hd')).congr hcover

theorem Lays.bind (h : Lays cover fits job d)
    (h' : ∀ d', Overlaid cover d d' → Lays cover' fits' job' d') :
    Lays (fun l => (cover' l).or (cover l)) (fits ∧ fits') (job >>= fun _ => job') d where
  succeeds_iff := by
    constructor
    · rintro ⟨d'', hrun⟩
      obtain ⟨_, d', hfirst, hlast⟩ := bind_eq_ok_iff.mp hrun
      exact ⟨h.succeeds_iff.mp ⟨d', hfirst⟩,
        (h' d' (h.overlaid d' hfirst)).succeeds_iff.mp ⟨d'', hlast⟩⟩
    · rintro ⟨hfits, hfits'⟩
      obtain ⟨d', hfirst⟩ := h.succeeds_iff.mpr hfits
      obtain ⟨d'', hlast⟩ := (h' d' (h.overlaid d' hfirst)).succeeds_iff.mpr hfits'
      exact ⟨d'', bind_eq_ok_iff.mpr ⟨_, d', hfirst, hlast⟩⟩
  overlaid d'' hrun := by
    obtain ⟨_, d', hfirst, hlast⟩ := bind_eq_ok_iff.mp hrun
    exact (h.overlaid d' hfirst).trans ((h' d' (h.overlaid d' hfirst)).overlaid d'' hlast)

/-- Each job of a loop has to lay its files over whatever the others may have laid before. -/
theorem lays_forM {items : List α} {layer : α → Location → Option Content} {fits : α → Prop}
    {job : α → Job Unit}
    (h : ∀ a ∈ items, ∀ cover d', Overlaid cover d d' →
      (∀ l, (∀ b ∈ items, layer b l = none) → cover l = none) →
        Lays (layer a) (fits a) (job a) d') :
    Lays (stacked layer items) (∀ a ∈ items, fits a) (items.forM job) d := by
  induction items generalizing d with
  | nil => exact (lays_pure d).congr rfl (fun _ => rfl) (by simp)
  | cons a rest ih =>
    have hfirst : Lays (layer a) (fits a) (job a) d :=
      h a List.mem_cons_self _ d (Overlaid.refl d) fun _ _ => rfl
    refine (hfirst.bind fun d₁ hd₁ => ih fun b hb cover d' hd' hcover =>
      h b (List.mem_cons_of_mem a hb) _ d' (hd₁.trans hd') fun l hl => ?_).congr rfl
      (stacked_cons layer a rest) List.forall_mem_cons
    rw [hcover l fun b hb => hl b (List.mem_cons_of_mem a hb), hl a List.mem_cons_self]
    rfl

theorem lays_copy (hname : IsName name) (hfile : d.fileIn? source name = some c)
    (htarget : d.isFolder target = true) (hne : source.place d.home ≠ target.place d.home) :
    Lays (single (target.place d.home ++ [name]) (some c))
      ((target.join name).isUsable = true ∧ d.acceptsFile (target.place d.home ++ [name]) = true)
      (copy (source.join name) (target.join name)) d := by
  have hcontent := content?_of_fileIn? hname hfile
  have hplaces : (source.join name).place d.home ≠ (target.join name).place d.home := by
    rw [Path.place_join hname, Path.place_join hname]
    exact fun heq => hne (List.append_cancel_right heq)
  refine ⟨?_, fun d' hrun => ?_⟩
  · rw [← accepts_join_iff hname htarget]
    constructor
    · rintro ⟨d', hrun⟩
      obtain ⟨_, _, hempty, _⟩ := copy?_eq_some (change_eq_ok hrun)
      exact ⟨_, (write?_eq_some hempty).1, acceptsFile_of_write? hempty⟩
    · intro haccepts
      obtain ⟨d', hcopy⟩ := exists_copy? hplaces hcontent haccepts
      refine ⟨d', ?_⟩
      rw [copy, change, hcopy]
  · have hcopied := overlaid_copy? hplaces hcontent (change_eq_ok hrun)
    rwa [Path.place_join hname] at hcopied

/-- Copying the files that are seen in one folder to another. -/
theorem lays_copies (hnames : ∀ name c, d.fileIn? source name = some c → IsName name)
    (htarget : d.isFolder target = true) (hne : source.place d.home ≠ target.place d.home) :
    Lays (d.layer source target) (d.Fits source target)
      ((d.seen source).forM fun name => copy (source.join name) (target.join name)) d := by
  rw [← funext (stacked_seen d source target)]
  refine lays_forM fun name hmem cover d' hd' hcover => ?_
  obtain ⟨c, hc⟩ := mem_seen_iff_fileIn?.mp hmem
  -- What has been copied so far is in the target, not in the source.
  have hsource : cover (source.place d.home ++ [name]) = none := by
    refine hcover _ fun other _ => single_of_ne (fun heq => ?_) _
    exact hne (List.append_inj' heq rfl).1
  have hcopy := lays_copy (hnames name c hc) ((hd'.fileIn?_eq hsource).trans hc)
    ((hd'.isFolder_eq target).trans htarget) (by rwa [hd'.home])
  rw [hd'.home, hd'.acceptsFile_eq] at hcopy
  rwa [hc]

end Job
end SchemaPackage
