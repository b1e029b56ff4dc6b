import SchemaPackage.Proofs.Disk.Listings

/-!
Work that leaves files alone. Whether a job succeeds or stops halfway, it keeps the files at those
places that none of its steps reaches, and a disk that is sound stays so.
-/
namespace SchemaPackage

open Outcome Text

namespace Disk

variable {d : Disk} {l : Location} {name : Text}

theorem Sound.isName_of_mem_filesAt (hd : d.Sound) (h : name ∈ d.filesAt l) : IsName name := by
  obtain ⟨c, hc⟩ := mem_filesAt.mp h
  have hne : l ++ [name] ≠ [] := List.append_ne_nil_of_right_ne_nil l (List.cons_ne_nil name [])
  rw [fileAt?_eq_some, entryAt?_of_ne_nil hne] at hc
  have hmem : l ++ [name] ∈ d.entries :=
    Std.ExtTreeMap.mem_iff_isSome_getElem?.mpr (Option.isSome_of_eq_some hc)
  exact hd.entries _ hmem name (List.mem_append_right l (List.mem_singleton_self name))

theorem Sound.isName_of_mem_fileNames? (hd : d.Sound) {folder : Path} {names : List Text}
    (hnames : d.fileNames? folder = some names) (h : name ∈ names) : IsName name := by
  obtain ⟨l, _, _, rfl⟩ := fileNames?_eq_some hnames
  exact hd.isName_of_mem_filesAt (List.mem_filter.mp h).1

theorem Sound.isName_of_mem_seen (hd : d.Sound) {folder : Path} (h : name ∈ d.seen folder) :
    IsName name :=
  hd.isName_of_mem_filesAt (mem_filesAt.mpr (mem_seen.mp h).2.2)

theorem Sound.of_mem_descriptions (hd : d.Sound) {folder : Path}
    (h : name ∈ d.descriptions folder) : IsName name ∧ Job.isDescription name = true := by
  obtain ⟨hdescription, _, _, hfile⟩ := mem_descriptions.mp h
  exact ⟨hd.isName_of_mem_filesAt (mem_filesAt.mpr hfile), hdescription⟩

/-- What is below a location has a name at each step of the way. -/
theorem Sound.isName_of_mem_below (hd : d.Sound) {e : Location × Entry} (he : e ∈ d.below l)
    (h : name ∈ e.1) : IsName name := by
  obtain ⟨⟨location, entry⟩, hmem, hfound⟩ := List.mem_filterMap.mp he
  have hentries : location ∈ d.entries := Std.ExtTreeMap.mem_iff_isSome_getElem?.mpr
    (Option.isSome_of_eq_some (Std.ExtTreeMap.mem_toList_iff_getElem?_eq_some.mp hmem))
  cases hafter : after? l location with
  | none => simp [hafter] at hfound
  | some rest =>
    cases rest with
    | nil => simp [hafter] at hfound
    | cons first rest =>
      simp only [hafter, Option.some.injEq] at hfound
      rw [← hfound] at h
      refine hd.entries location hentries name ?_
      rw [after?_eq_some.mp hafter]
      exact List.mem_append_right l h

end Disk

namespace Job

variable {α β : Type} {home : Location} {P : Location → Prop}

/-- The job keeps the files at certain places, whatever comes of it. -/
def Keeps (home : Location) (P : Location → Prop) (job : Job α) : Prop :=
  ∀ d, Disk.Keeps home P d (job d).2

theorem keeps_pure (a : α) : Keeps home P (pure a : Job α) := fun d => Disk.Keeps.refl d

theorem keeps_throw (fault : Fault) : Keeps home P (throw fault : Job α) :=
  fun d => Disk.Keeps.refl d

theorem keeps_lift (x : Except Fault α) : Keeps home P (liftM x : Job α) :=
  fun d => Disk.Keeps.refl d

theorem keeps_inspect (look : Disk → α) : Keeps home P (inspect look) :=
  fun d => Disk.Keeps.refl d

theorem require_run (fault : Fault) (find : Disk → Option α) (d : Disk) :
    require fault find d = (match find d with | some a => .ok a | none => .error fault, d) := by
  unfold require
  cases find d <;> rfl

theorem keeps_require (fault : Fault) (find : Disk → Option α) :
    Keeps home P (require fault find) := by
  intro d
  rw [require_run]
  exact Disk.Keeps.refl d

theorem keeps_change {f : Disk → Option Disk} (fault : Fault)
    (h : ∀ d d', f d = some d' → Disk.Keeps home P d d') : Keeps home P (change fault f) := by
  intro d
  unfold change
  cases hf : f d with
  | none => exact Disk.Keeps.refl d
  | some d' => exact h d d' hf

theorem keeps_advance {f : Disk → Disk × Bool} (fault : Fault)
    (h : ∀ d, Disk.Keeps home P d (f d).1) : Keeps home P (advance fault f) := by
  intro d
  have hd := h d
  unfold advance
  rcases hf : f d with ⟨d', _ | _⟩ <;> rw [hf] at hd <;> exact hd

/-- The second job may depend on what the first has found, which was on a sound disk. -/
theorem keeps_bind {x : Job α} {f : α → Job β} (hx : Keeps home P x)
    (hf : ∀ a, (∃ d : Disk, d.Sound ∧ (x d).1 = .ok a) → Keeps home P (f a)) :
    Keeps home P (x >>= f) := by
  intro d hhome hd
  have hfirst := hx d
  rw [bind_run]
  rcases hrun : x d with ⟨_ | a, d'⟩
  · rw [hrun] at hfirst
    exact hfirst hhome hd
  · rw [hrun] at hfirst
    exact hfirst.trans (hf a ⟨d, hd, by rw [hrun]⟩ d') hhome hd

theorem keeps_forM {l : List α} {f : α → Job Unit} (h : ∀ a ∈ l, Keeps home P (f a)) :
    Keeps home P (l.forM f) := by
  induction l with
  | nil => exact keeps_pure ()
  | cons a rest ih =>
    change Keeps home P (f a >>= fun _ => rest.forM f)
    exact keeps_bind (h a List.mem_cons_self) fun _ _ =>
      ih fun b hb => h b (List.mem_cons_of_mem _ hb)

theorem keeps_write {p : Path} (hp : p.WellFormed) (hP : ¬ P (p.place home)) (text : Text) :
    Keeps home P (write p text) :=
  keeps_change _ fun _ _ h => Disk.keeps_write? hp hP h

theorem keeps_copy {q : Path} (p : Path) (hq : q.WellFormed) (hP : ¬ P (q.place home)) :
    Keeps home P (copy p q) :=
  keeps_change _ fun _ _ h => Disk.keeps_copy? hq hP h

theorem keeps_makeFolder {p : Path} (hp : p.WellFormed) : Keeps home P (makeFolder p) :=
  keeps_advance _ fun d => Disk.keeps_makeFolders hp d

theorem change_eq_ok {fault : Fault} {f : Disk → Option Disk} {u : Unit} {d d' : Disk}
    (h : change fault f d = (.ok u, d')) : f d = some d' := by
  unfold change at h
  cases hf : f d <;> rw [hf] at h <;> cases h
  rfl

theorem advance_eq_ok {fault : Fault} {f : Disk → Disk × Bool} {u : Unit} {d d' : Disk}
    (h : advance fault f d = (.ok u, d')) : f d = (d', true) := by
  unfold advance at h
  rcases hf : f d with ⟨_, _ | _⟩ <;> rw [hf] at h <;> cases h
  rfl

theorem require_eq_ok {fault : Fault} {find : Disk → Option α} {a : α} {d d' : Disk}
    (h : require fault find d = (.ok a, d')) : find d = some a ∧ d = d' := by
  unfold require at h
  cases hf : find d <;> rw [hf] at h <;> cases h
  exact ⟨rfl, rfl⟩

theorem inspect_eq_ok {look : Disk → α} {a : α} {d d' : Disk}
    (h : inspect look d = (.ok a, d')) : a = look d ∧ d = d' := by
  cases h
  exact ⟨rfl, rfl⟩

theorem building_eq_ok {ctx ctx' : Context} {build : Build α} {a : α} {d d' : Disk}
    (h : building ctx build d = (.ok (a, ctx'), d')) : build ctx = (.ok a, ctx') ∧ d = d' := by
  unfold building at h
  rcases hbuild : build ctx with ⟨_ | _, _⟩ <;> rw [hbuild] at h <;> cases h
  exact ⟨rfl, rfl⟩

end Job
end SchemaPackage
