import SchemaPackage.Proofs.Disk.Changes

/-!
Two disks that are the same but for a few spare files, which can be written on both whether they
are there or not. Work that neither reads a spare file nor asks for one comes to the same outcome
on both disks, and leaves them the same but for the spare files.
-/
namespace SchemaPackage

open Outcome Text

namespace Disk

variable {home here l : Location} {P : Location → Prop} {spare : Path → Prop} {d d' d'' : Disk}
  {p q : Path} {c : Content} {pieces : List Text}

/-- Disks that have the same at certain places. -/
structure AgreeOn (P : Location → Prop) (d d' : Disk) : Prop where
  home : d'.home = d.home
  closed : d'.closed = d.closed
  same : ∀ l, P l → d'.entryAt? l = d.entryAt? l

theorem AgreeOn.refl (P : Location → Prop) (d : Disk) : AgreeOn P d d := ⟨rfl, rfl, fun _ _ => rfl⟩

theorem AgreeOn.symm (h : AgreeOn P d d') : AgreeOn P d' d :=
  ⟨h.home.symm, h.closed.symm, fun l hl => (h.same l hl).symm⟩

theorem AgreeOn.trans (h : AgreeOn P d d') (h' : AgreeOn P d' d'') : AgreeOn P d d'' :=
  ⟨h'.home.trans h.home, h'.closed.trans h.closed, fun l hl =>
    (h'.same l hl).trans (h.same l hl)⟩

theorem AgreeOn.put (h : AgreeOn P d d') (hl : l ≠ []) (entry : Entry) :
    AgreeOn P (d.put l entry) (d'.put l entry) where
  home := h.home
  closed := h.closed
  same m hm := by
    rw [entryAt?_put hl, entryAt?_put hl, h.same m hm]

theorem takesNew_congr (h : d'.closed = d.closed) (folder : Location) (name : Text) :
    d'.takesNew folder name = d.takesNew folder name := by
  rw [takesNew, takesNew, h]

/-- A way down depends only on what is on the way. -/
theorem agreeOn_makeFrom (h : AgreeOn P d d')
    (hway : ∀ front, front <+: pieces → P (Path.walk here front)) :
    (makeFrom here d' pieces).2 = (makeFrom here d pieces).2 ∧
      AgreeOn P (makeFrom here d pieces).1 (makeFrom here d' pieces).1 := by
  have hnext {here there : Location} {piece : Text} {rest : List Text}
      (hwalk : ∀ front, Path.walk here (piece :: front) = Path.walk there front)
      (hway : ∀ front, front <+: piece :: rest → P (Path.walk here front)) (front : List Text)
      (hfront : front <+: rest) : P (Path.walk there front) := by
    rw [← hwalk]
    exact hway _ (List.cons_prefix_cons.mpr ⟨rfl, hfront⟩)
  -- What is at the next place is the same on both disks.
  have hsame {d d' : Disk} {here : Location} {piece : Text} {rest : List Text}
      (h : AgreeOn P d d') (hdot : ¬ (piece.isEmpty || piece == ".") = true)
      (hup : ¬ (piece == "..") = true)
      (hway : ∀ front, front <+: piece :: rest → P (Path.walk here front)) :
      d'.entryAt? (here ++ [piece]) = d.entryAt? (here ++ [piece]) :=
    h.same _ (hnext (fun _ => Path.walk_down hdot hup) hway [] List.nil_prefix)
  fun_induction makeFrom here d pieces generalizing d' with
  | case1 => exact ⟨rfl, h⟩
  | case2 here d piece rest hdot ih =>
    rw [makeFrom_skip hdot]
    exact ih h (hnext (fun _ => Path.walk_skip hdot) hway)
  | case3 here d piece rest hdot hup ih =>
    rw [makeFrom_up hdot hup]
    exact ih h (hnext (fun _ => Path.walk_up hdot hup) hway)
  | case4 here d piece rest hdot hup there hthere =>
    rename_i ih
    rw [makeFrom_of_folder hdot hup ((hsame h hdot hup hway).trans hthere)]
    exact ih h (hnext (fun _ => Path.walk_down hdot hup) hway)
  | case5 here d piece rest hdot hup there c =>
    rename_i hthere
    rw [makeFrom_of_file hdot hup ((hsame h hdot hup hway).trans hthere)]
    exact ⟨rfl, h⟩
  | case6 here d piece rest hdot hup there hnone htakes =>
    rename_i ih
    rw [makeFrom_of_none hdot hup ((hsame h hdot hup hway).trans hnone), takesNew_congr h.closed,
      if_pos htakes]
    exact ih (h.put (by simp [there]) .folder) (hnext (fun _ => Path.walk_down hdot hup) hway)
  | case7 here d piece rest hdot hup there hnone =>
    rename_i htakes
    rw [makeFrom_of_none hdot hup ((hsame h hdot hup hway).trans hnone), takesNew_congr h.closed,
      if_neg htakes]
    exact ⟨rfl, h⟩

theorem agreeOn_makeFolders (h : AgreeOn P d d') (hway : ∀ l, p.OnWay d.home l → P l) :
    (d'.makeFolders p).2 = (d.makeFolders p).2 ∧
      AgreeOn P (d.makeFolders p).1 (d'.makeFolders p).1 := by
  unfold makeFolders
  split
  · have hstart : d'.start p = d.start p := by
      rw [start, start, h.home]
    rw [hstart]
    exact agreeOn_makeFrom h fun front hfront => hway _ ⟨front, hfront, rfl⟩
  · exact ⟨rfl, h⟩

/-- A file can be written under the path, whether one is there or not. -/
def Accepts (d : Disk) (p : Path) : Prop := ∃ l, d.locate? p = some l ∧ d.acceptsFile l = true

theorem Accepts.acceptsFile (h : d.Accepts p) : d.acceptsFile (p.place d.home) = true := by
  obtain ⟨l, hlocate, haccepts⟩ := h
  rwa [← locate?_eq_some hlocate]

theorem write?_of_accepts (h : d.Accepts p) (c : Content) :
    d.write? p c = some (d.put (p.place d.home) (.file c)) := by
  obtain ⟨l, hlocate, haccepts⟩ := h
  unfold write?
  rw [hlocate]
  dsimp only
  rw [if_pos haccepts, locate?_eq_some hlocate]

theorem locate?_mono (hhome : d'.home = d.home)
    (hfolders : ∀ l, d.isFolderAt l = true → d'.isFolderAt l = true)
    (h : d.locate? p = some l) : d'.locate? p = some l := by
  have hfollow (here : Location) (pieces : List Text) (h : d.follow? here pieces = some l) :
      d'.follow? here pieces = some l := by
    induction pieces generalizing here with
    | nil => exact h
    | cons piece rest ih =>
      obtain ⟨there, hstep, hrest⟩ := Option.bind_eq_some_iff.mp h
      refine Option.bind_eq_some_iff.mpr ⟨there, ?_, ih there hrest⟩
      unfold step? at hstep ⊢
      cases hhere : d.isFolderAt here with
      | false =>
        rw [hhere] at hstep
        cases hstep
      | true =>
        rw [hhere] at hstep
        rwa [hfolders here hhere]
  unfold locate? at h ⊢
  split at h
  · rename_i husable
    rw [if_pos husable, start, hhome]
    exact hfollow _ _ h
  · cases h

theorem isFolder_mono (hhome : d'.home = d.home)
    (hfolders : ∀ l, d.isFolderAt l = true → d'.isFolderAt l = true)
    (h : d.isFolder p = true) : d'.isFolder p = true := by
  obtain ⟨hlocate, hfolder⟩ := isFolder_iff_locate?.mp h
  rw [isFolder_iff_locate?, hhome]
  exact ⟨locate?_mono hhome hfolders hlocate, hfolders _ hfolder⟩

theorem isFolderAt_removeBelow_congr (h : d'.isFolderAt l = d.isFolderAt l) (m : Location) :
    (d'.removeBelow m).isFolderAt l = (d.removeBelow m).isFolderAt l := by
  have hkeeps (d : Disk) (hne : l ≠ []) : (d.removeBelow m).isFolderAt l =
      (d.isFolderAt l && (decide (l = m) || !m.isPrefixOf l)) := by
    rw [isFolderAt, entryAt?_removeBelow hne, isFolderAt]
    generalize (decide (l = m) || !m.isPrefixOf l) = kept
    cases d.entryAt? l <;> cases kept <;> simp
  by_cases hne : l = []
  · rw [hne]
    rfl
  · rw [hkeeps d' hne, hkeeps d hne, h]

/-- The place of no spare file. -/
def Off (home : Location) (spare : Path → Prop) (l : Location) : Prop :=
  ∀ q, spare q → l ≠ q.place home

/-- A disk on which the spare files can be written. -/
structure Hosts (home : Location) (spare : Path → Prop) (d : Disk) : Prop where
  home : d.home = home
  sound : d.Sound
  accepts : ∀ q, spare q → d.Accepts q

/-- Accepting a file depends on the folders, and on nothing else but what is at its place. -/
theorem Accepts.of_folders (h : d.Accepts q) (hhome : d'.home = d.home)
    (hclosed : d'.closed = d.closed)
    (hfolders : ∀ l, d.isFolderAt l = true → d'.isFolderAt l = true)
    (hentry : d'.entryAt? (q.place d.home) = d.entryAt? (q.place d.home) ∨
      ∃ c, d'.entryAt? (q.place d.home) = some (.file c)) : d'.Accepts q := by
  obtain ⟨l, hlocate, haccepts⟩ := h
  refine ⟨l, locate?_mono hhome hfolders hlocate, ?_⟩
  rw [← locate?_eq_some hlocate] at hentry
  rcases hentry with hsame | ⟨c, hfile⟩
  · unfold Disk.acceptsFile at haccepts ⊢
    rw [hsame]
    simp only [funext (takesNew_congr hclosed _)]
    exact haccepts
  · rw [Disk.acceptsFile, hfile]

theorem Hosts.write? (hd : d.Hosts home spare) (hp : p.WellFormed)
    (h : d.write? p c = some d') : d'.Hosts home spare where
  home := (settings_write? h).1.trans hd.home
  sound := (keeps_write? (P := fun _ => False) hp id h rfl hd.sound).2.1
  accepts q hq := by
    refine (hd.accepts q hq).of_folders (settings_write? h).1 (settings_write? h).2
      (fun l hl => (isFolderAt_of_write? h l).trans hl) ?_
    rw [entryAt?_write? h]
    split
    · exact Or.inr ⟨c, rfl⟩
    · exact Or.inl rfl

theorem Hosts.makeFolders (hd : d.Hosts home spare) (hp : p.WellFormed)
    (hway : ∀ l, p.OnWay home l → Off home spare l) :
    (d.makeFolders p).1.Hosts home spare where
  home := (settings_makeFolders p d).1.trans hd.home
  sound := (keeps_makeFolders (P := fun _ => False) hp d rfl hd.sound).2.1
  accepts q hq := by
    refine (hd.accepts q hq).of_folders (settings_makeFolders p d).1 (settings_makeFolders p d).2
      (fun l hl => isFolderAt_makeFolders p d hl) (Or.inl ?_)
    rcases entryAt?_makeFolders p d (q.place d.home) with hsame | ⟨_, _, hon⟩
    · exact hsame
    · rw [hd.home] at hon
      exact absurd rfl (hway _ hon q hq)

/-- Disks that are the same but for spare files. -/
structure Alike (home : Location) (spare : Path → Prop) (d d' : Disk) : Prop where
  left : d.Hosts home spare
  right : d'.Hosts home spare
  agree : AgreeOn (Off home spare) d d'

namespace Alike

theorem symm (h : Alike home spare d d') : Alike home spare d' d :=
  ⟨h.right, h.left, h.agree.symm⟩

theorem trans (h : Alike home spare d d') (h' : Alike home spare d' d'') :
    Alike home spare d d'' :=
  ⟨h.left, h'.right, h.agree.trans h'.agree⟩

theorem isFolderAt_eq (h : Alike home spare d d') (l : Location) :
    d'.isFolderAt l = d.isFolderAt l := by
  by_cases hl : Off home spare l
  · rw [isFolderAt, h.agree.same l hl, isFolderAt]
  · obtain ⟨q, hq, rfl⟩ : ∃ q, spare q ∧ l = q.place home := by
      by_contra hnone
      exact hl fun q hq hplace => hnone ⟨q, hq, hplace⟩
    have hleft := isFolderAt_of_acceptsFile (h.left.accepts q hq).acceptsFile
    have hright := isFolderAt_of_acceptsFile (h.right.accepts q hq).acceptsFile
    rw [h.left.home] at hleft
    rw [h.right.home] at hright
    rw [hleft, hright]

theorem locate?_eq (h : Alike home spare d d') (p : Path) : d'.locate? p = d.locate? p :=
  locate?_congr h.agree.home h.isFolderAt_eq p

theorem entry?_eq (h : Alike home spare d d') (hp : Off home spare (p.place home)) :
    d'.entry? p = d.entry? p := by
  unfold entry?
  rw [h.locate?_eq]
  cases hlocate : d.locate? p with
  | none => rfl
  | some l =>
    have hplace := locate?_eq_some hlocate
    rw [h.left.home] at hplace
    exact h.agree.same l (hplace ▸ hp)

theorem isThere_eq (h : Alike home spare d d') (hp : Off home spare (p.place home)) :
    d'.isThere p = d.isThere p := by
  rw [isThere, h.entry?_eq hp, isThere]

theorem isFolder_eq (h : Alike home spare d d') (p : Path) : d'.isFolder p = d.isFolder p := by
  rw [isFolder, entry?, h.locate?_eq, isFolder, entry?]
  cases d.locate? p with
  | none => rfl
  | some l => exact h.isFolderAt_eq l

theorem content?_eq (h : Alike home spare d d') (hp : Off home spare (p.place home)) :
    d'.content? p = d.content? p := by
  rw [content?, h.entry?_eq hp, content?]

theorem text?_eq (h : Alike home spare d d') (hp : Off home spare (p.place home)) :
    d'.text? p = d.text? p := by
  rw [text?, h.content?_eq hp, text?]

/-- A file that is not spare is written on both disks or on neither. -/
theorem write? (h : Alike home spare d d') (hp : p.WellFormed)
    (hoff : Off home spare (p.place home)) (c : Content) :
    (d.write? p c = none ∧ d'.write? p c = none) ∨
      ∃ e e', d.write? p c = some e ∧ d'.write? p c = some e' ∧ Alike home spare e e' := by
  have haccepts : d'.acceptsFile (p.place home) = d.acceptsFile (p.place home) := by
    rw [acceptsFile, acceptsFile, h.agree.same _ hoff]
    simp only [funext (takesNew_congr h.agree.closed _)]
  have hright : d'.write? p c =
      (d.write? p c).map fun _ => d'.put (p.place home) (.file c) := by
    unfold Disk.write?
    rw [h.locate?_eq]
    cases hlocate : d.locate? p with
    | none => rfl
    | some l =>
      have hplace := locate?_eq_some hlocate
      rw [h.left.home] at hplace
      subst hplace
      dsimp only
      rw [haccepts]
      split <;> rfl
  cases hwrite : d.write? p c with
  | none =>
    rw [hwrite] at hright
    exact Or.inl ⟨rfl, hright⟩
  | some e =>
    rw [hwrite] at hright
    obtain ⟨_, hne, _, rfl⟩ := write?_eq_some hwrite
    refine Or.inr ⟨_, _, rfl, hright, h.left.write? hp hwrite, h.right.write? hp hright, ?_⟩
    rw [h.left.home] at hne ⊢
    exact h.agree.put hne _

theorem copy? (h : Alike home spare d d') (hq : q.WellFormed)
    (hoff : Off home spare (p.place home)) (hoff' : Off home spare (q.place home)) :
    (d.copy? p q = none ∧ d'.copy? p q = none) ∨
      ∃ e e', d.copy? p q = some e ∧ d'.copy? p q = some e' ∧ Alike home spare e e' := by
  unfold Disk.copy?
  rw [h.content?_eq hoff]
  cases d.content? p with
  | none => exact Or.inl ⟨rfl, rfl⟩
  | some _ =>
    rcases h.write? hq hoff' .empty with ⟨hnone, hnone'⟩ | ⟨e, e', hsome, hsome', halike⟩
    · rw [hnone, hnone']
      exact Or.inl ⟨rfl, rfl⟩
    · rw [hsome, hsome']
      simp only [Option.bind_eq_bind, Option.bind_some, halike.content?_eq hoff]
      cases e.content? p with
      | none => exact Or.inl ⟨rfl, rfl⟩
      | some c => exact halike.write? hq hoff' c

theorem makeFolders (h : Alike home spare d d') (hp : p.WellFormed)
    (hway : ∀ l, p.OnWay home l → Off home spare l) :
    (d'.makeFolders p).2 = (d.makeFolders p).2 ∧
      Alike home spare (d.makeFolders p).1 (d'.makeFolders p).1 := by
  obtain ⟨hflag, hagree⟩ := agreeOn_makeFolders h.agree (by rwa [h.left.home])
  exact ⟨hflag, h.left.makeFolders hp hway, h.right.makeFolders hp hway, hagree⟩

/-- A file that is written on both disks is spare no more. -/
theorem write_spare {spare' : Path → Prop} (h : Alike home spare d d') (hp : p.WellFormed)
    (hspare : spare p) (hother : ∀ q, spare q → spare' q ∨ q = p)
    (hsub : ∀ q, spare' q → spare q) (c : Content) :
    ∃ e e', d.write? p c = some e ∧ d'.write? p c = some e' ∧ Alike home spare' e e' := by
  have hwrite := write?_of_accepts (h.left.accepts p hspare) c
  have hwrite' := write?_of_accepts (h.right.accepts p hspare) c
  obtain ⟨_, hne, _, _⟩ := write?_eq_some hwrite
  have hleft := h.left.write? hp hwrite
  have hright := h.right.write? hp hwrite'
  refine ⟨_, _, hwrite, hwrite', ⟨hleft.home, hleft.sound, fun q hq => hleft.accepts q (hsub q hq)⟩,
    ⟨hright.home, hright.sound, fun q hq => hright.accepts q (hsub q hq)⟩,
    h.agree.home, h.agree.closed, fun l hl => ?_⟩
  rw [h.left.home] at hne ⊢
  rw [h.right.home, entryAt?_put hne, entryAt?_put hne]
  split
  · rfl
  · rename_i hl'
    refine h.agree.same l fun q hq hplace => ?_
    rcases hother q hq with hq | rfl
    · exact hl q hq hplace
    · exact hl' hplace

/-- Below an emptied folder there is no difference any more. -/
theorem entryAt?_removeBelow (h : Alike home spare d d') {m : Location}
    (hm : Off home spare m) (hl : Off home spare l ∨ m <+: l) :
    (d'.removeBelow m).entryAt? l = (d.removeBelow m).entryAt? l := by
  by_cases hne : l = []
  · rw [hne]
    rfl
  rw [Disk.entryAt?_removeBelow hne, Disk.entryAt?_removeBelow hne]
  by_cases heq : l = m
  · rw [heq, h.agree.same m hm]
  rcases hl with hl | hl
  · rw [h.agree.same l hl]
  · have hgone (e? : Option Entry) :
        (e?.filter fun _ => decide (l = m) || !m.isPrefixOf l) = none := by
      rw [decide_eq_false heq, List.isPrefixOf_iff_prefix.mpr hl]
      cases e? <;> rfl
    rw [hgone, hgone]

/-- What is removed leaves no difference behind. -/
theorem removeFolder (h : Alike home spare d d') (p : Path) (hoff : Off home spare (p.place home)) :
    (d'.removeFolder p).2 = (d.removeFolder p).2 ∧ ∀ l,
      Off home spare l ∨ (d.removeFolder p).2 = true ∧ p.place home <+: l →
        (d'.removeFolder p).1.entryAt? l = (d.removeFolder p).1.entryAt? l := by
  have hkept : ∀ l, Off home spare l ∨ false = true ∧ p.place home <+: l →
      d'.entryAt? l = d.entryAt? l := fun l hl =>
    h.agree.same l (hl.resolve_right fun hfalse => Bool.false_ne_true hfalse.1)
  unfold Disk.removeFolder
  rw [h.locate?_eq]
  cases hlocate : d.locate? p with
  | none => exact ⟨rfl, hkept⟩
  | some m =>
    have hplace := locate?_eq_some hlocate
    rw [h.left.home] at hplace
    subst hplace
    have hhome : (d'.removeBelow (p.place home)).home = (d.removeBelow (p.place home)).home :=
      h.agree.home
    have hemptied : (d'.removeBelow (p.place home)).locate? p =
        (d.removeBelow (p.place home)).locate? p :=
      locate?_congr hhome (fun l => isFolderAt_removeBelow_congr (h.isFolderAt_eq l) _) p
    dsimp only
    rw [h.isFolderAt_eq, hemptied]
    split
    · exact ⟨rfl, hkept⟩
    · split
      · exact ⟨rfl, fun l hl => h.entryAt?_removeBelow hoff (hl.imp_right And.right)⟩
      · split
        · exact ⟨rfl, fun l hl => h.entryAt?_removeBelow hoff (hl.imp_right And.right)⟩
        · refine ⟨rfl, fun l hl => ?_⟩
          by_cases hne : l = []
          · rw [hne]
            rfl
          rw [entryAt?_remove hne, entryAt?_remove hne,
            h.entryAt?_removeBelow hoff (hl.imp_right And.right)]

/-- The files that are seen in a folder where nothing is spare. -/
theorem seen_eq (h : Alike home spare d d') {folder : Path}
    (hoff : ∀ name, Off home spare (folder.place home ++ [name])) :
    d'.seen folder = d.seen folder := by
  refine eq_of_pairwise_byteList (pairwise_seen d' folder) (pairwise_seen d folder) fun name => ?_
  rw [mem_seen, mem_seen, h.isFolder_eq, h.right.home, h.left.home,
    fileAt?_congr (h.agree.same _ (hoff name))]

end Alike

end Disk

namespace Job

open Disk

variable {α β : Type} {R : Disk → Disk → Prop} {home : Location} {spare : Path → Prop}

/-- On related disks the job comes to the same outcome, and leaves the disks related. -/
def Agrees (R : Disk → Disk → Prop) (job : Job α) : Prop :=
  ∀ d d', R d d' → (job d').1 = (job d).1 ∧ R (job d).2 (job d').2

theorem Observes.agrees {job : Job α} (h : Observes job)
    (hsame : ∀ d d', R d d' → (job d').1 = (job d).1) : Agrees R job := by
  intro d d' hd
  rw [h d, h d']
  exact ⟨hsame d d' hd, hd⟩

theorem agrees_pure (a : α) : Agrees R (pure a : Job α) :=
  (observes_pure a).agrees fun _ _ _ => rfl

theorem agrees_throw (fault : Fault) : Agrees R (throw fault : Job α) :=
  (observes_throw fault).agrees fun _ _ _ => rfl

theorem agrees_lift (x : Except Fault α) : Agrees R (liftM x : Job α) :=
  (observes_lift x).agrees fun _ _ _ => rfl

theorem agrees_building (ctx : Context) (build : Build α) : Agrees R (building ctx build) := by
  refine (observes_building ctx build).agrees fun _ _ _ => ?_
  unfold building
  rcases build ctx with ⟨_ | _, _⟩ <;> rfl

theorem agrees_inspect {look : Disk → α} (h : ∀ d d', R d d' → look d' = look d) :
    Agrees R (inspect look) :=
  (observes_inspect look).agrees fun d d' hd => congrArg Except.ok (h d d' hd)

theorem agrees_require (fault : Fault) {find : Disk → Option α}
    (h : ∀ d d', R d d' → find d' = find d) : Agrees R (require fault find) :=
  (observes_require fault find).agrees fun d d' hd => by
    rw [require_run, require_run, h d d' hd]

theorem cases_of_fst_eq {x : Job α} {d d' : Disk} (h : (x d').1 = (x d).1) :
    (∃ fault e e', x d = (.error fault, e) ∧ x d' = (.error fault, e')) ∨
      ∃ a e e', x d = (.ok a, e) ∧ x d' = (.ok a, e') := by
  rcases hrun : x d with ⟨fault | a, e⟩
  · rw [hrun] at h
    exact Or.inl ⟨fault, e, (x d').2, rfl, Prod.ext h rfl⟩
  · rw [hrun] at h
    exact Or.inr ⟨a, e, (x d').2, rfl, Prod.ext h rfl⟩

/-- The second job may depend on what the first has found. -/
theorem agrees_bind {x : Job α} {f : α → Job β} (hx : Agrees R x)
    (hf : ∀ a, (∃ d d', R d d' ∧ (x d).1 = .ok a) → Agrees R (f a)) : Agrees R (x >>= f) := by
  intro d d' hd
  obtain ⟨hsame, hafter⟩ := hx d d' hd
  rw [bind_run, bind_run]
  rcases cases_of_fst_eq hsame with ⟨fault, e, e', hrun, hrun'⟩ | ⟨a, e, e', hrun, hrun'⟩
  · rw [hrun, hrun'] at hafter ⊢
    exact ⟨rfl, hafter⟩
  · have hfound : (x d).1 = .ok a := by rw [hrun]
    rw [hrun, hrun'] at hafter ⊢
    exact hf a ⟨d, d', hd, hfound⟩ e e' hafter

theorem agrees_forM {l : List α} {f : α → Job Unit} (h : ∀ a ∈ l, Agrees R (f a)) :
    Agrees R (l.forM f) := by
  induction l with
  | nil => exact agrees_pure ()
  | cons a rest ih =>
    change Agrees R (f a >>= fun _ => rest.forM f)
    exact agrees_bind (h a List.mem_cons_self) fun _ _ =>
      ih fun b hb => h b (List.mem_cons_of_mem _ hb)

theorem agrees_optional {job : α → Job Unit} {a? : Option α} (h : ∀ a ∈ a?, Agrees R (job a)) :
    Agrees R (a?.forM job) := by
  cases a? with
  | none => exact agrees_pure ()
  | some a => exact h a rfl

theorem agrees_change (fault : Fault) {f : Disk → Option Disk}
    (h : ∀ d d', R d d' → (f d = none ∧ f d' = none) ∨
      ∃ e e', f d = some e ∧ f d' = some e' ∧ R e e') : Agrees R (change fault f) := by
  intro d d' hd
  unfold change
  rcases h d d' hd with ⟨hnone, hnone'⟩ | ⟨e, e', hsome, hsome', hafter⟩
  · rw [hnone, hnone']
    exact ⟨rfl, hd⟩
  · rw [hsome, hsome']
    exact ⟨rfl, hafter⟩

theorem agrees_advance (fault : Fault) {f : Disk → Disk × Bool}
    (h : ∀ d d', R d d' → (f d').2 = (f d).2 ∧ R (f d).1 (f d').1) :
    Agrees R (advance fault f) := by
  intro d d' hd
  obtain ⟨hflag, hafter⟩ := h d d' hd
  unfold advance
  rcases hf : f d with ⟨e, flag⟩
  rcases hf' : f d' with ⟨e', flag'⟩
  rw [hf, hf'] at hflag hafter
  obtain rfl : flag' = flag := hflag
  cases flag' <;> exact ⟨rfl, hafter⟩

variable {p q : Path}

theorem agrees_write (fault : Fault) (hp : p.WellFormed) (hoff : Off home spare (p.place home))
    (c : Content) : Agrees (Alike home spare) (change fault (Disk.write? p c)) :=
  agrees_change fault fun _ _ hd => hd.write? hp hoff c

theorem agrees_copy (fault : Fault) (hq : q.WellFormed) (hoff : Off home spare (p.place home))
    (hoff' : Off home spare (q.place home)) :
    Agrees (Alike home spare) (change fault (Disk.copy? p q)) :=
  agrees_change fault fun _ _ hd => hd.copy? hq hoff hoff'

theorem agrees_append (fault : Fault) (hp : p.WellFormed) (hoff : Off home spare (p.place home))
    (text : Text) : Agrees (Alike home spare) (change fault (Disk.append? p text)) := by
  refine agrees_change fault fun d d' hd => ?_
  unfold Disk.append?
  rw [hd.content?_eq hoff]
  exact hd.write? hp hoff _

theorem agrees_makeFolders (fault : Fault) (hp : p.WellFormed)
    (hway : ∀ l, p.OnWay home l → Off home spare l) :
    Agrees (Alike home spare) (advance fault (Disk.makeFolders p)) :=
  agrees_advance fault fun _ _ hd => hd.makeFolders hp hway

theorem agrees_readText (hoff : Off home spare (p.place home)) :
    Agrees (Alike home spare) (readText p) :=
  agrees_require _ fun _ _ hd => hd.text?_eq hoff

/-- Descriptions are not spare. -/
theorem agrees_descriptionNames (folder : Path)
    (hoff : ∀ l name, isDescription name = true → Off home spare (l ++ [name])) :
    Agrees (Alike home spare) (descriptionNames folder) := by
  refine (observes_descriptionNames folder).agrees fun d d' hd => ?_
  rw [descriptionNames_eq, descriptionNames_eq, descriptions_congr hd.agree.home hd.isFolderAt_eq
    fun l name hname => fileAt?_congr (hd.agree.same _ (hoff l name hname))]

end Job
end SchemaPackage
