import SchemaPackage.Proofs.Disk.Places

/-!
The files of a disk, and what becomes of them when something is written, made or removed. Every
change reaches the place that its path leads to and leaves the files at other places as they are.
-/
namespace SchemaPackage.Disk

open Text

variable {d d' : Disk} {p : Path} {l m here : Location} {c : Content} {pieces : List Text}

/-- A path that leads somewhere leads to its place. -/
theorem follow?_eq_some (h : d.follow? here pieces = some l) : l = Path.walk here pieces := by
  induction pieces generalizing here with
  | nil => exact (Option.some.inj h).symm
  | cons piece rest ih =>
    obtain ⟨there, hstep, hrest⟩ := Option.bind_eq_some_iff.mp h
    rw [ih hrest, Path.walk]
    unfold step? at hstep
    split at hstep
    · cases hstep
    · split at hstep
      · rw [if_pos ‹_›, Option.some.inj hstep]
      · rw [if_neg ‹_›]
        split at hstep
        · rw [if_pos ‹_›, Option.some.inj hstep]
        · rw [if_neg ‹_›, Option.some.inj hstep]

theorem locate?_eq_some (h : d.locate? p = some l) : l = p.place d.home := by
  unfold locate? at h
  split at h
  · exact follow?_eq_some h
  · cases h

theorem isUsable_of_locate? (h : d.locate? p = some l) : p.isUsable = true := by
  unfold locate? at h
  split at h
  · assumption
  · cases h

/-- What a path to a folder has found. -/
theorem isFolder_iff_locate? : d.isFolder p = true ↔
    d.locate? p = some (p.place d.home) ∧ d.isFolderAt (p.place d.home) = true := by
  rw [isFolder, entry?, beq_iff_eq, Option.bind_eq_some_iff]
  constructor
  · rintro ⟨l, hlocate, hentry⟩
    obtain rfl := locate?_eq_some hlocate
    exact ⟨hlocate, beq_iff_eq.mpr hentry⟩
  · rintro ⟨hlocate, hfolder⟩
    exact ⟨_, hlocate, beq_iff_eq.mp hfolder⟩

/-- The content of the file at a location. -/
def fileAt? (d : Disk) (l : Location) : Option Content :=
  match d.entryAt? l with
  | some (.file content) => some content
  | _ => none

theorem content?_eq (d : Disk) (p : Path) : d.content? p = (d.locate? p).bind d.fileAt? := by
  unfold content? entry? fileAt?
  cases d.locate? p <;> rfl

theorem entryAt?_of_ne_nil (h : l ≠ []) : d.entryAt? l = d.entries[l]? := if_neg h

theorem fileAt?_eq_some : d.fileAt? l = some c ↔ d.entryAt? l = some (.file c) := by
  unfold fileAt?
  cases d.entryAt? l with
  | none => simp
  | some entry => cases entry <;> simp

theorem fileAt?_congr (h : d'.entryAt? l = d.entryAt? l) : d'.fileAt? l = d.fileAt? l := by
  unfold fileAt?
  rw [h]

@[simp] theorem home_put (l : Location) (entry : Entry) (d : Disk) :
    (d.put l entry).home = d.home :=
  rfl

theorem entryAt?_put (hl : l ≠ []) (entry : Entry) :
    (d.put l entry).entryAt? m = if m = l then some entry else d.entryAt? m := by
  by_cases hm : m = []
  · subst m
    rw [if_neg (Ne.symm hl)]
    rfl
  · rw [entryAt?_of_ne_nil hm, entryAt?_of_ne_nil hm, put, Std.ExtTreeMap.getElem?_insert]
    simp only [Std.LawfulEqCmp.compare_eq_iff_eq, eq_comm (a := l)]

theorem fileAt?_put_file (hl : l ≠ []) :
    (d.put l (.file c)).fileAt? m = if m = l then some c else d.fileAt? m := by
  unfold fileAt?
  rw [entryAt?_put hl]
  by_cases hm : m = l
  · rw [if_pos hm, if_pos hm]
  · rw [if_neg hm, if_neg hm]

theorem isFolderAt_put_file (hl : l ≠ []) (hfolder : d.isFolderAt l = false) (m : Location) :
    (d.put l (.file c)).isFolderAt m = d.isFolderAt m := by
  rw [isFolderAt, entryAt?_put hl]
  by_cases hm : m = l
  · rw [if_pos hm, hm, hfolder]
    rfl
  · rw [if_neg hm, isFolderAt]

theorem fileAt?_put_folder (h : d.entryAt? l = none) :
    (d.put l .folder).fileAt? m = d.fileAt? m := by
  have hl : l ≠ [] := by
    rintro rfl
    cases h
  unfold fileAt?
  rw [entryAt?_put hl]
  by_cases hm : m = l
  · rw [if_pos hm, hm, h]
  · rw [if_neg hm]

/-- Everything has a name that a path can have for a piece. -/
structure Sound (d : Disk) : Prop where
  home : ∀ name ∈ d.home, IsName name
  entries : ∀ l ∈ d.entries, ∀ name ∈ l, IsName name

theorem Sound.put (hd : d.Sound) (hl : ∀ name ∈ l, IsName name) (entry : Entry) :
    (d.put l entry).Sound where
  home := hd.home
  entries m hm := by
    rcases Std.ExtTreeMap.mem_insert.mp hm with heq | hm
    · rw [← Std.LawfulEqCmp.eq_of_compare heq]
      exact hl
    · exact hd.entries m hm

/-- Disks that are put together entry by entry. -/
theorem sound_foldl_put {entries : List (Location × Entry)} (hd : d.Sound)
    (h : ∀ e ∈ entries, ∀ name ∈ e.1, IsName name) :
    (entries.foldl (fun d e => d.put e.1 e.2) d).Sound := by
  induction entries generalizing d with
  | nil => exact hd
  | cons e rest ih =>
    exact ih (hd.put (h e List.mem_cons_self) e.2) fun e' he' => h e' (List.mem_cons_of_mem e he')

theorem sound_empty : Sound {} where
  home _ h := absurd h List.not_mem_nil
  entries _ h := absurd h Std.ExtTreeMap.not_mem_empty

theorem isName_of_mem_walk (hhere : ∀ name ∈ here, IsName name)
    (hpieces : ∀ piece ∈ pieces, '/' ∉ piece) : ∀ name ∈ Path.walk here pieces, IsName name := by
  induction pieces generalizing here with
  | nil => exact hhere
  | cons piece rest ih =>
    have hrest : ∀ piece ∈ rest, '/' ∉ piece := fun q hq => hpieces q (List.mem_cons_of_mem _ hq)
    rw [Path.walk]
    split
    · exact ih hhere hrest
    · rename_i hdot
      split
      · exact ih (fun name hname => hhere name ((List.dropLast_sublist _).subset hname)) hrest
      · rename_i hdots
        rw [Bool.or_eq_true, List.isEmpty_iff, beq_iff_eq, not_or] at hdot
        rw [beq_iff_eq] at hdots
        have hpiece : IsName piece :=
          ⟨hdot.1, hdot.2, hdots, hpieces piece List.mem_cons_self⟩
        refine ih (fun name hname => ?_) hrest
        rcases List.mem_append.mp hname with hname | hname
        · exact hhere name hname
        · rw [List.mem_singleton.mp hname]
          exact hpiece

theorem Sound.isName_of_mem_place (hd : d.Sound) (hp : p.WellFormed) :
    ∀ name ∈ p.place d.home, IsName name := by
  refine isName_of_mem_walk ?_ hp
  split
  · exact fun _ h => absurd h List.not_mem_nil
  · exact hd.home

theorem isFolderAt_of_acceptsFile (h : d.acceptsFile l = true) : d.isFolderAt l = false := by
  unfold acceptsFile at h
  unfold isFolderAt
  cases hentry : d.entryAt? l with
  | none => rfl
  | some entry =>
    cases entry with
    | file => rfl
    | folder =>
      rw [hentry] at h
      cases h

theorem acceptsFile_concat {name : Text} (hnone : d.entryAt? (l ++ [name]) = none) :
    d.acceptsFile (l ++ [name]) = d.takesNew l name := by
  rw [acceptsFile, hnone, List.getLast?_concat, List.dropLast_concat]
  rfl

theorem acceptsFile_of_write? (h : d.write? p c = some d') :
    d.acceptsFile (p.place d.home) = true := by
  unfold write? at h
  split at h
  · rename_i l hlocate
    split at h
    · rename_i haccepts
      rwa [← locate?_eq_some hlocate]
    · cases h
  · cases h

theorem write?_eq_some (h : d.write? p c = some d') :
    d.locate? p = some (p.place d.home) ∧ p.place d.home ≠ [] ∧
      d.isFolderAt (p.place d.home) = false ∧ d' = d.put (p.place d.home) (.file c) := by
  unfold write? at h
  split at h
  · rename_i l hlocate
    split at h
    · rename_i haccepts
      have hfolder := isFolderAt_of_acceptsFile haccepts
      have hl : l ≠ [] := by
        rintro rfl
        cases hfolder
      rw [← locate?_eq_some hlocate]
      exact ⟨hlocate, hl, hfolder, (Option.some.inj h).symm⟩
    · cases h
  · cases h

/-- A copy writes the target twice, the second time with what the source holds then. -/
theorem copy?_eq_some {q : Path} (h : d.copy? p q = some d') :
    ∃ emptied c, d.write? q .empty = some emptied ∧ emptied.content? p = some c ∧
      emptied.write? q c = some d' := by
  unfold copy? at h
  obtain ⟨_, _, h⟩ := Option.bind_eq_some_iff.mp h
  obtain ⟨emptied, hemptied, h⟩ := Option.bind_eq_some_iff.mp h
  obtain ⟨c, hc, h⟩ := Option.bind_eq_some_iff.mp h
  exact ⟨emptied, c, hemptied, hc, h⟩

/-- From a sound disk with that home there is a way to another one, on which the files at certain
places are as they were. -/
def Keeps (home : Location) (P : Location → Prop) (d d' : Disk) : Prop :=
  d.home = home → d.Sound → d'.home = home ∧ d'.Sound ∧ ∀ l, P l → d'.fileAt? l = d.fileAt? l

section Keeps

variable {home : Location} {P : Location → Prop}

theorem Keeps.refl (d : Disk) : Keeps home P d d := fun hhome hd => ⟨hhome, hd, fun _ _ => rfl⟩

theorem Keeps.trans {d₁ d₂ d₃ : Disk} (h : Keeps home P d₁ d₂) (h' : Keeps home P d₂ d₃) :
    Keeps home P d₁ d₃ := by
  intro hhome hd
  obtain ⟨hhome₂, hd₂, hfiles₂⟩ := h hhome hd
  obtain ⟨hhome₃, hd₃, hfiles₃⟩ := h' hhome₂ hd₂
  exact ⟨hhome₃, hd₃, fun l hl => (hfiles₃ l hl).trans (hfiles₂ l hl)⟩

theorem keeps_write? (hp : p.WellFormed) (hP : ¬ P (p.place home)) (h : d.write? p c = some d') :
    Keeps home P d d' := by
  intro hhome hd
  obtain ⟨_, hne, _, rfl⟩ := write?_eq_some h
  rw [hhome] at hne ⊢
  have hnames := hd.isName_of_mem_place hp
  rw [hhome] at hnames
  refine ⟨hhome, hd.put hnames _, fun l hl => ?_⟩
  have hother : l ≠ p.place home := by
    rintro rfl
    exact hP hl
  rw [fileAt?_put_file hne, if_neg hother]

theorem keeps_copy? {q : Path} (hq : q.WellFormed) (hP : ¬ P (q.place home))
    (h : d.copy? p q = some d') : Keeps home P d d' := by
  obtain ⟨emptied, c, hemptied, _, h⟩ := copy?_eq_some h
  exact (keeps_write? hq hP hemptied).trans (keeps_write? hq hP h)

theorem keeps_makeFrom (hhere : ∀ name ∈ here, IsName name)
    (hpieces : ∀ piece ∈ pieces, '/' ∉ piece) (d : Disk) :
    Keeps home P d (makeFrom here d pieces).1 := by
  induction pieces generalizing here d with
  | nil => exact Keeps.refl d
  | cons piece rest ih =>
    have hrest : ∀ piece ∈ rest, '/' ∉ piece := fun q hq => hpieces q (List.mem_cons_of_mem _ hq)
    have hstep : ∀ name ∈ Path.walk here [piece], IsName name := by
      refine isName_of_mem_walk hhere fun q hq => ?_
      rw [List.mem_singleton.mp hq]
      exact hpieces piece List.mem_cons_self
    rw [Path.walk] at hstep
    rw [makeFrom]
    split
    · exact ih hhere hrest d
    · rw [if_neg ‹_›] at hstep
      split
      · rw [if_pos ‹_›] at hstep
        exact ih hstep hrest d
      · rw [if_neg ‹_›] at hstep
        dsimp only
        split
        · exact ih hstep hrest d
        · exact Keeps.refl d
        · rename_i hnone
          split
          · refine Keeps.trans ?_ (ih hstep hrest _)
            exact fun hhome hd => ⟨hhome, hd.put hstep _, fun _ _ => fileAt?_put_folder hnone⟩
          · exact Keeps.refl d

theorem keeps_makeFolders (hp : p.WellFormed) (d : Disk) :
    Keeps home P d (d.makeFolders p).1 := by
  intro hhome hd
  unfold makeFolders
  split
  · refine keeps_makeFrom ?_ hp d hhome hd
    unfold start
    split
    · exact fun _ h => absurd h List.not_mem_nil
    · exact hd.home
  · exact Keeps.refl d hhome hd

end Keeps

theorem entryAt?_removeBelow (hm : m ≠ []) (l : Location) :
    (d.removeBelow l).entryAt? m =
      (d.entryAt? m).filter fun _ => m = l || !l.isPrefixOf m := by
  rw [entryAt?_of_ne_nil hm, entryAt?_of_ne_nil hm, removeBelow, Std.ExtTreeMap.getElem?_filter']

theorem isFolderAt_removeBelow (hl : d.isFolderAt l = true) :
    (d.removeBelow l).isFolderAt l = true := by
  by_cases hne : l = []
  · rw [hne]
    rfl
  · rw [isFolderAt, entryAt?_removeBelow hne, beq_iff_eq.mp hl]
    simp

theorem fileAt?_of_isFolderAt (hl : d.isFolderAt l = true) : d.fileAt? l = none := by
  rw [fileAt?, beq_iff_eq.mp hl]

theorem fileAt?_removeBelow (hl : d.isFolderAt l = true) :
    (d.removeBelow l).fileAt? m = if l <+: m then none else d.fileAt? m := by
  by_cases hm : m = []
  · rw [hm]
    exact (ite_self none).symm
  by_cases hbelow : l <+: m
  · rw [if_pos hbelow]
    by_cases heq : m = l
    · rw [heq]
      exact fileAt?_of_isFolderAt (isFolderAt_removeBelow hl)
    · have hnone : (d.removeBelow l).entryAt? m = none := by
        rw [entryAt?_removeBelow hm, Option.filter_eq_none_iff]
        intro entry _
        simp [heq, List.isPrefixOf_iff_prefix.mpr hbelow]
      rw [fileAt?, hnone]
  · have hkeep : (decide (m = l) || !l.isPrefixOf m) = true := by
      rw [Bool.or_eq_true, Bool.not_eq_true']
      exact Or.inr (Bool.eq_false_iff.mpr (mt List.isPrefixOf_iff_prefix.mp hbelow))
    rw [if_neg hbelow]
    refine fileAt?_congr ?_
    rw [entryAt?_removeBelow hm, hkeep]
    cases d.entryAt? m <;> rfl

theorem fileAt?_remove (hl : d.isFolderAt l = true) : (d.remove l).fileAt? m = d.fileAt? m := by
  by_cases hm : m = []
  · rw [hm]
    rfl
  · have hentry : (d.remove l).entryAt? m = if m = l then none else d.entryAt? m := by
      rw [entryAt?_of_ne_nil hm, entryAt?_of_ne_nil hm, remove, Std.ExtTreeMap.getElem?_erase]
      simp only [Std.LawfulEqCmp.compare_eq_iff_eq, eq_comm (a := l)]
    by_cases heq : m = l
    · rw [if_pos heq] at hentry
      rw [fileAt?, hentry, heq, fileAt?_of_isFolderAt hl]
    · rw [if_neg heq] at hentry
      exact fileAt?_congr hentry

theorem Sound.removeBelow (hd : d.Sound) (l : Location) : (d.removeBelow l).Sound where
  home := hd.home
  entries m hm := hd.entries m (Std.ExtTreeMap.mem_of_mem_filter hm)

theorem Sound.remove (hd : d.Sound) (l : Location) : (d.remove l).Sound where
  home := hd.home
  entries m hm := hd.entries m (Std.ExtTreeMap.mem_of_mem_erase hm)

/-- A folder that is removed takes all files below it along, and no others. -/
theorem fileAt?_removeFolder (p : Path) (d : Disk) :
    (d.removeFolder p).1 = d ∧ (d.removeFolder p).2 = false ∨
      (d.removeFolder p).1.home = d.home ∧ (d.Sound → (d.removeFolder p).1.Sound) ∧
        ∀ m, (d.removeFolder p).1.fileAt? m =
          if p.place d.home <+: m then none else d.fileAt? m := by
  unfold removeFolder
  split
  · exact Or.inl ⟨rfl, rfl⟩
  · rename_i l hlocate
    rw [← locate?_eq_some hlocate]
    split
    · exact Or.inl ⟨rfl, rfl⟩
    · rename_i hfolder
      have hl : d.isFolderAt l = true := by simpa using hfolder
      right
      dsimp only
      split
      · exact ⟨rfl, fun hd => hd.removeBelow l, fun m => fileAt?_removeBelow hl⟩
      · split
        · exact ⟨rfl, fun hd => hd.removeBelow l, fun m => fileAt?_removeBelow hl⟩
        · refine ⟨rfl, fun hd => (hd.removeBelow l).remove l, fun m => ?_⟩
          rw [fileAt?_remove (isFolderAt_removeBelow hl), fileAt?_removeBelow hl]

theorem keeps_removeFolder {home : Location} {P : Location → Prop}
    (hP : ∀ l, P l → ¬ p.place home <+: l) (d : Disk) : Keeps home P d (d.removeFolder p).1 := by
  intro hhome hd
  rcases fileAt?_removeFolder p d with ⟨heq, _⟩ | ⟨hhome', hd', hfiles⟩
  · rw [heq]
    exact Keeps.refl d hhome hd
  · refine ⟨hhome'.trans hhome, hd' hd, fun l hl => ?_⟩
    rw [hfiles, hhome, if_neg (hP l hl)]

end SchemaPackage.Disk
