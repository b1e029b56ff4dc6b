import SchemaPackage.Proofs.Disk.Work
import SchemaPackage.Proofs.Text.Entries
import SchemaPackage.Proofs.Text.Lengths

/-!
Folders, and what is below them. A path that never goes up makes folders only on its way, and a
folder that is removed takes along all that is below it. A file that is found in a folder has
found the folder first.
-/
namespace SchemaPackage

open Outcome Text

namespace Path

variable {p : Path} {name : Text}

theorem isAbsolute_ofText_of_isName (hname : IsName name) : (ofText name).isAbsolute = false := by
  rw [ofText, split_of_notMem hname.no_slash]
  cases name <;> rfl

theorem pieces_join (p : Path) (hname : IsName name) :
    (p.join name).pieces = p.stump ++ [name] := by
  have hrelative := isAbsolute_ofText_of_isName hname
  rw [join, if_neg (Bool.eq_false_iff.mp hrelative), ofText, split_of_notMem hname.no_slash]

theorem stump_join (p : Path) (hname : IsName name) :
    (p.join name).stump = (p.join name).pieces := by
  have hlast : (p.join name).pieces.getLast? ≠ some [] := by
    rw [pieces_join p hname, List.getLast?_concat, Ne, Option.some.injEq]
    exact hname.ne_nil
  rw [stump, if_neg hlast]

theorem isAbsolute_join (p : Path) (hname : IsName name) :
    (p.join name).isAbsolute = p.isAbsolute := by
  have hrelative := isAbsolute_ofText_of_isName hname
  rw [ofText, split_of_notMem hname.no_slash] at hrelative
  have habsolute := isAbsolute_stump_append (p := p) (List.cons_ne_nil name []) hrelative
  rw [← habsolute, ← pieces_join p hname]

/-- What is above a usable path is usable. -/
theorem isUsable_of_join {parent : Path} (hname : IsName name)
    (hstump : parent.stump = parent.pieces) (hne : parent.pieces ≠ [])
    (h : (parent.join name).isUsable = true) : parent.isUsable = true := by
  have htext : (parent.join name).text = parent.text ++ ("/" ++ name) := by
    rw [text, pieces_join parent hname, hstump, joined_append hne (List.cons_ne_nil name []),
      List.append_assoc]
    rfl
  unfold isUsable at h ⊢
  rw [htext, byteLength_append, Bool.and_eq_true, decide_eq_true_iff, Bool.not_eq_true',
    List.contains_eq_mem, decide_eq_false_iff_not, List.mem_append, not_or] at h
  rw [Bool.and_eq_true, decide_eq_true_iff, Bool.not_eq_true', List.contains_eq_mem,
    decide_eq_false_iff_not]
  exact ⟨Nat.le_of_add_right_le h.1, h.2.1⟩

/-- A path that never goes up. -/
def Descends (p : Path) : Prop := ∀ piece ∈ p.pieces, piece ≠ ".."

instance : DecidablePred Descends := fun p =>
  inferInstanceAs (Decidable (∀ piece ∈ p.pieces, piece ≠ ".."))

theorem stump_subset (p : Path) : p.stump ⊆ p.pieces := by
  unfold stump
  split
  · exact (List.dropLast_sublist _).subset
  · exact List.Subset.refl _

theorem Descends.join (hp : p.Descends) (hname : IsName name) : (p.join name).Descends := by
  intro piece hpiece
  rw [pieces_join p hname, List.mem_append, List.mem_singleton] at hpiece
  rcases hpiece with hpiece | rfl
  · exact hp piece (p.stump_subset hpiece)
  · exact hname.ne_dots

theorem prefix_walk {pieces : List Text} (hpieces : ∀ piece ∈ pieces, piece ≠ "..")
    (here : Location) : here <+: walk here pieces := by
  induction pieces generalizing here with
  | nil => exact List.prefix_refl here
  | cons piece rest ih =>
    have hrest : ∀ piece ∈ rest, piece ≠ ".." := fun q hq => hpieces q (List.mem_cons_of_mem _ hq)
    have hdown : ¬ (piece == "..") = true := by
      rw [beq_iff_eq]
      exact hpieces piece List.mem_cons_self
    rw [walk]
    split
    · exact ih hrest here
    · exact (List.prefix_append here [piece]).trans (ih hrest (here ++ [piece]))

end Path

namespace Disk

variable {d d' : Disk} {p : Path} {l m here home : Location} {name : Text} {P : Location → Prop}

/-- What is at a location can be told from its files and its folders. -/
theorem entryAt?_eq (d : Disk) (l : Location) :
    d.entryAt? l = if d.isFolderAt l then some .folder else (d.fileAt? l).map Entry.file := by
  unfold isFolderAt fileAt?
  cases d.entryAt? l with
  | none => rfl
  | some entry => cases entry <;> rfl

theorem entryAt?_congr (hfolder : d'.isFolderAt l = d.isFolderAt l)
    (hfile : d'.fileAt? l = d.fileAt? l) : d'.entryAt? l = d.entryAt? l := by
  rw [entryAt?_eq, hfolder, hfile, ← entryAt?_eq]

theorem entryAt?_eq_none_iff :
    d.entryAt? l = none ↔ d.isFolderAt l = false ∧ d.fileAt? l = none := by
  rw [entryAt?_eq]
  cases d.isFolderAt l <;> simp

theorem follow?_append (d : Disk) (here : Location) (front rest : List Text) :
    d.follow? here (front ++ rest) =
      (d.follow? here front).bind fun there => d.follow? there rest := by
  induction front generalizing here with
  | nil => rfl
  | cons piece front ih =>
    rw [List.cons_append, follow?, follow?]
    cases d.step? here piece with
    | none => rfl
    | some there => exact ih there

/-- If a file is found in a folder, the folder is found. -/
theorem locate?_of_join (hname : IsName name) (hstump : p.stump = p.pieces) (hne : p.pieces ≠ [])
    (h : d.locate? (p.join name) = some l) :
    d.locate? p = some (p.place d.home) ∧ d.isFolderAt (p.place d.home) = true ∧
      (p.join name).isUsable = true := by
  unfold locate? at h
  split at h
  next husable =>
    have hstart : d.start (p.join name) = d.start p := by
      rw [start, Path.isAbsolute_join p hname, start]
    rw [hstart, Path.pieces_join p hname, hstump, follow?_append] at h
    obtain ⟨folder, hfolder, hstep⟩ := Option.bind_eq_some_iff.mp h
    have hlocate : d.locate? p = some folder := by
      rw [locate?, if_pos (Path.isUsable_of_join hname hstump hne husable), hfolder]
    obtain ⟨_, hlast, _⟩ := Option.bind_eq_some_iff.mp hstep
    have hplace := locate?_eq_some hlocate
    subst hplace
    refine ⟨hlocate, ?_, husable⟩
    unfold step? at hlast
    cases hisFolder : d.isFolderAt (p.place d.home) with
    | true => rfl
    | false =>
      rw [hisFolder] at hlast
      cases hlast
  next => cases h

/-- A file that can be read is seen in its folder. -/
theorem mem_seen_of_content? {c : Content} (hname : IsName name) (hstump : p.stump = p.pieces)
    (hne : p.pieces ≠ []) (h : d.content? (p.join name) = some c) : name ∈ d.seen p := by
  rw [content?_eq] at h
  obtain ⟨l, hlocate, hfile⟩ := Option.bind_eq_some_iff.mp h
  obtain ⟨hfolder, hisFolder, husable⟩ := locate?_of_join hname hstump hne hlocate
  rw [locate?_eq_some hlocate, Path.place_join hname] at hfile
  refine mem_seen.mpr ⟨husable, ?_, c, hfile⟩
  rw [isFolder, entry?, hfolder]
  exact hisFolder

theorem fileNames?_of_locate? (hlocate : d.locate? p = some l) (hfolder : d.isFolderAt l = true) :
    d.fileNames? p = some ((d.filesAt l).filter fun name => (p.join name).isUsable) := by
  unfold fileNames?
  rw [hlocate]
  exact if_pos hfolder

theorem mem_below {rest : Location} {entry : Entry} :
    (rest, entry) ∈ d.below l ↔ rest ≠ [] ∧ d.entryAt? (l ++ rest) = some entry := by
  have hentries {m : Location} (hm : m ≠ []) :
      (m, entry) ∈ d.entries.toList ↔ d.entryAt? m = some entry := by
    rw [Std.ExtTreeMap.mem_toList_iff_getElem?_eq_some, entryAt?_of_ne_nil hm]
  rw [below, List.mem_filterMap]
  constructor
  · rintro ⟨⟨location, found⟩, hmem, hfound⟩
    cases hafter : after? l location with
    | none => simp [hafter] at hfound
    | some tail =>
      cases tail with
      | nil => simp [hafter] at hfound
      | cons first tail =>
        simp only [hafter, Option.some.injEq, Prod.mk.injEq] at hfound
        obtain ⟨rfl, rfl⟩ := hfound
        obtain rfl := after?_eq_some.mp hafter
        have hne : l ++ first :: tail ≠ [] := by simp
        exact ⟨List.cons_ne_nil _ _, (hentries hne).mp hmem⟩
  · rintro ⟨hrest, hentry⟩
    obtain ⟨first, tail, rfl⟩ := List.exists_cons_of_ne_nil hrest
    have hne : l ++ first :: tail ≠ [] := by simp
    refine ⟨(l ++ first :: tail, entry), (hentries hne).mpr hentry, ?_⟩
    have hafter : after? l (l ++ first :: tail) = some (first :: tail) := after?_eq_some.mpr rfl
    simp only [hafter]

theorem entryAt?_of_below_eq_nil (h : d.below l = []) {rest : Location} (hrest : rest ≠ []) :
    d.entryAt? (l ++ rest) = none := by
  rw [Option.eq_none_iff_forall_ne_some]
  intro entry hentry
  have hmem := mem_below.mpr ⟨hrest, hentry⟩
  rw [h] at hmem
  exact List.not_mem_nil hmem

theorem below_eq_nil (h : ∀ rest, rest ≠ [] → d.entryAt? (l ++ rest) = none) : d.below l = [] := by
  rw [List.eq_nil_iff_forall_not_mem]
  rintro ⟨rest, entry⟩ hmem
  obtain ⟨hrest, hentry⟩ := mem_below.mp hmem
  rw [h rest hrest] at hentry
  cases hentry

theorem isFolderAt_of_write? {p : Path} {c : Content} (h : d.write? p c = some d')
    (l : Location) : d'.isFolderAt l = d.isFolderAt l := by
  obtain ⟨_, hne, hfolder, rfl⟩ := write?_eq_some h
  exact isFolderAt_put_file hne hfolder l

theorem isFolderAt_of_put_folder (h : (d.put l .folder).isFolderAt m = true) :
    d.isFolderAt m = true ∨ m = l := by
  by_cases hl : l = []
  · left
    subst hl
    unfold isFolderAt entryAt? at h ⊢
    by_cases hm : m = []
    · rw [if_pos hm]
      rfl
    · rw [if_neg hm] at h ⊢
      rw [put, Std.ExtTreeMap.getElem?_insert] at h
      rwa [if_neg] at h
      rw [Std.LawfulEqCmp.compare_eq_iff_eq]
      exact Ne.symm hm
  · rw [isFolderAt, entryAt?_put hl] at h
    by_cases hm : m = l
    · exact Or.inr hm
    · rw [if_neg hm] at h
      exact Or.inl h

/-- New folders are on the way of a path that never goes up. -/
theorem makeFrom_descending {pieces : List Text} (hpieces : ∀ piece ∈ pieces, piece ≠ "..")
    (here : Location) (d : Disk) :
    (makeFrom here d pieces).1.home = d.home ∧ ∀ m,
      (makeFrom here d pieces).1.isFolderAt m = true →
        d.isFolderAt m = true ∨ m <+: Path.walk here pieces := by
  induction pieces generalizing here d with
  | nil => exact ⟨rfl, fun _ => Or.inl⟩
  | cons piece rest ih =>
    have hrest : ∀ piece ∈ rest, piece ≠ ".." := fun q hq => hpieces q (List.mem_cons_of_mem _ hq)
    have hdown : ¬ (piece == "..") = true := by
      rw [beq_iff_eq]
      exact hpieces piece List.mem_cons_self
    rw [makeFrom, Path.walk]
    split
    · exact ih hrest here d
    · dsimp only
      split
      · exact ih hrest (here ++ [piece]) d
      · exact ⟨rfl, fun _ => Or.inl⟩
      · split
        · obtain ⟨hhome, hfolders⟩ := ih hrest (here ++ [piece]) (d.put (here ++ [piece]) .folder)
          refine ⟨hhome, fun m hm => ?_⟩
          rcases hfolders m hm with hm | hm
          · rcases isFolderAt_of_put_folder hm with hm | rfl
            · exact Or.inl hm
            · exact Or.inr (Path.prefix_walk hrest _)
          · exact Or.inr hm
        · exact ⟨rfl, fun _ => Or.inl⟩

theorem isFolderAt_of_removeBelow (h : (d.removeBelow l).isFolderAt m = true) :
    d.isFolderAt m = true ∧ (l <+: m → m = l) := by
  by_cases hm : m = []
  · subst hm
    exact ⟨rfl, fun hbelow => (List.prefix_nil.mp hbelow).symm⟩
  · rw [isFolderAt, entryAt?_removeBelow hm, beq_iff_eq, Option.filter_eq_some_iff] at h
    obtain ⟨hentry, hkept⟩ := h
    refine ⟨beq_iff_eq.mpr hentry, fun hbelow => ?_⟩
    simpa [List.isPrefixOf_iff_prefix.mpr hbelow] using hkept

theorem isFolderAt_of_remove (h : (d.remove l).isFolderAt m = true) : d.isFolderAt m = true := by
  by_cases hm : m = []
  · rw [hm]
    rfl
  · rw [isFolderAt, entryAt?_of_ne_nil hm, remove, Std.ExtTreeMap.getElem?_erase] at h
    split at h
    · cases h
    · rwa [isFolderAt, entryAt?_of_ne_nil hm]

/-- Removing a folder makes none, and once it has succeeded nothing is left below the folder. -/
theorem isFolderAt_of_removeFolder (p : Path) (d : Disk)
    (h : (d.removeFolder p).1.isFolderAt m = true) :
    d.isFolderAt m = true ∧
      ((d.removeFolder p).2 = true → p.place d.home <+: m → m = p.place d.home) := by
  unfold removeFolder at h ⊢
  split at h
  · exact ⟨h, fun hfalse => absurd hfalse Bool.false_ne_true⟩
  · rename_i l hlocate
    rw [← locate?_eq_some hlocate]
    split at h
    · rename_i hnone
      rw [if_pos hnone]
      exact ⟨h, fun hfalse => absurd hfalse Bool.false_ne_true⟩
    · rename_i hfolder
      have hbelow : (d.removeBelow l).isFolderAt m = true := by
        dsimp only at h
        split at h
        · exact h
        · split at h
          · exact h
          · exact isFolderAt_of_remove h
      obtain ⟨hm, hplace⟩ := isFolderAt_of_removeBelow hbelow
      exact ⟨hm, fun _ => hplace⟩

theorem Sound.removeFolder (hd : d.Sound) (p : Path) : (d.removeFolder p).1.Sound := by
  rcases fileAt?_removeFolder p d with ⟨hsame, _⟩ | ⟨_, hsound, _⟩
  · rwa [hsame]
  · exact hsound hd

/-- Once a folder has been removed, nothing is left below its place. -/
theorem entryAt?_of_removeFolder (h : (d.removeFolder p).2 = true) (hl : p.place d.home <+: l)
    (hne : l ≠ p.place d.home) : (d.removeFolder p).1.entryAt? l = none := by
  rw [entryAt?_eq_none_iff, Bool.eq_false_iff]
  refine ⟨fun hfolder => hne ((isFolderAt_of_removeFolder p d hfolder).2 h hl), ?_⟩
  rcases fileAt?_removeFolder p d with ⟨_, hfalse⟩ | ⟨_, _, hfiles⟩
  · rw [h] at hfalse
    cases hfalse
  · rw [hfiles, if_pos hl]

/-- From a disk with that home there is a way to another one, on which the folders at certain places
have been there before. -/
def MakesNone (home : Location) (P : Location → Prop) (d d' : Disk) : Prop :=
  d.home = home → d'.home = home ∧ ∀ l, P l → d'.isFolderAt l = true → d.isFolderAt l = true

theorem MakesNone.refl (d : Disk) : MakesNone home P d d := fun hhome => ⟨hhome, fun _ _ h => h⟩

theorem MakesNone.trans {d₁ d₂ d₃ : Disk} (h : MakesNone home P d₁ d₂)
    (h' : MakesNone home P d₂ d₃) : MakesNone home P d₁ d₃ := by
  intro hhome
  obtain ⟨hhome₂, hfolders₂⟩ := h hhome
  obtain ⟨hhome₃, hfolders₃⟩ := h' hhome₂
  exact ⟨hhome₃, fun l hl hfolder => hfolders₂ l hl (hfolders₃ l hl hfolder)⟩

theorem makesNone_write? {c : Content} (h : d.write? p c = some d') : MakesNone home P d d' := by
  intro hhome
  refine ⟨?_, fun l _ hfolder => (isFolderAt_of_write? h l).symm.trans hfolder⟩
  obtain ⟨_, _, _, rfl⟩ := write?_eq_some h
  exact hhome

theorem makesNone_copy? {q : Path} (h : d.copy? p q = some d') : MakesNone home P d d' := by
  obtain ⟨_, _, hempty, _, hwrite⟩ := copy?_eq_some h
  exact (makesNone_write? hempty).trans (makesNone_write? hwrite)

theorem makesNone_makeFolders (hp : p.Descends) (hP : ∀ l, P l → ¬ l <+: p.place home)
    (d : Disk) : MakesNone home P d (d.makeFolders p).1 := by
  intro hhome
  unfold makeFolders
  split
  · obtain ⟨hhome', hfolders⟩ := makeFrom_descending hp (d.start p) d
    refine ⟨hhome'.trans hhome, fun l hl hfolder => ?_⟩
    rcases hfolders l hfolder with hfolder | hbelow
    · exact hfolder
    · rw [start, hhome] at hbelow
      exact absurd hbelow (hP l hl)
  · exact MakesNone.refl d hhome

theorem makesNone_removeFolder (p : Path) (d : Disk) : MakesNone home P d (d.removeFolder p).1 := by
  intro hhome
  refine ⟨?_, fun _ _ hfolder => (isFolderAt_of_removeFolder p d hfolder).1⟩
  obtain ⟨heq, _⟩ | ⟨hhome', _⟩ := fileAt?_removeFolder p d
  · rw [heq]
    exact hhome
  · exact hhome'.trans hhome

end Disk

namespace Job

variable {α β : Type} {home : Location} {P : Location → Prop}

/-- The job makes no folder at certain places, whatever comes of it. -/
def MakesNone (home : Location) (P : Location → Prop) (job : Job α) : Prop :=
  ∀ d, Disk.MakesNone home P d (job d).2

theorem makesNone_pure (a : α) : MakesNone home P (pure a : Job α) :=
  fun d => Disk.MakesNone.refl d

theorem makesNone_inspect (look : Disk → α) : MakesNone home P (inspect look) :=
  fun d => Disk.MakesNone.refl d

theorem makesNone_require (fault : Fault) (find : Disk → Option α) :
    MakesNone home P (require fault find) := by
  intro d
  rw [require_run]
  exact Disk.MakesNone.refl d

theorem makesNone_copy (p q : Path) : MakesNone home P (copy p q) := by
  intro d
  unfold copy change
  cases hcopy : d.copy? p q with
  | none => exact Disk.MakesNone.refl d
  | some d' => exact Disk.makesNone_copy? hcopy

theorem makesNone_advance {f : Disk → Disk × Bool} (fault : Fault)
    (h : ∀ d, Disk.MakesNone home P d (f d).1) : MakesNone home P (advance fault f) := by
  intro d
  have hd := h d
  unfold advance
  rcases hf : f d with ⟨d', _ | _⟩ <;> rw [hf] at hd <;> exact hd

theorem makesNone_makeFolder {p : Path} (hp : p.Descends) (hP : ∀ l, P l → ¬ l <+: p.place home) :
    MakesNone home P (makeFolder p) :=
  makesNone_advance _ fun d => Disk.makesNone_makeFolders hp hP d

theorem makesNone_bind {x : Job α} {f : α → Job β} (hx : MakesNone home P x)
    (hf : ∀ a, MakesNone home P (f a)) : MakesNone home P (x >>= f) := by
  intro d
  have hfirst := hx d
  rw [bind_run]
  rcases hrun : x d with ⟨_ | a, d'⟩
  · rwa [hrun] at hfirst
  · rw [hrun] at hfirst
    exact hfirst.trans (hf a d')

theorem makesNone_forM {l : List α} {f : α → Job Unit} (h : ∀ a ∈ l, MakesNone home P (f a)) :
    MakesNone home P (l.forM f) := by
  induction l with
  | nil => exact makesNone_pure ()
  | cons a rest ih =>
    change MakesNone home P (f a >>= fun _ => rest.forM f)
    exact makesNone_bind (h a List.mem_cons_self) fun _ =>
      ih fun b hb => h b (List.mem_cons_of_mem _ hb)

theorem MakesNone.of_eq_ok {job : Job α} {a : α} {d d' : Disk} (h : MakesNone home P job)
    (hhome : d.home = home) (hrun : job d = (.ok a, d')) :
    d'.home = home ∧ ∀ l, P l → d'.isFolderAt l = true → d.isFolderAt l = true := by
  have hmade := h d hhome
  rwa [hrun] at hmade

end Job
end SchemaPackage
