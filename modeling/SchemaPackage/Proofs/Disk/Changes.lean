import Mathlib.Logic.Relation
import SchemaPackage.Proofs.Disk.Entries

/-!
Work as a chain of single changes. A change writes a file, makes the folders on a way, or removes a
folder. Whether a job succeeds or stops halfway, the disk that it leaves is reached by changes that
are within its scope, so what every such change keeps is kept by the job.
-/
namespace SchemaPackage

open Outcome Text

namespace Disk

/-- What work may do to a disk: which contents it may write where, which folders it may make and
which it may remove. -/
structure Scope where
  writes : Path → Content → Prop
  makes : Path → Prop
  clears : Path → Prop
  wellFormed_of_writes : ∀ p c, writes p c → p.WellFormed
  wellFormed_of_makes : ∀ p, makes p → p.WellFormed

inductive Change (s : Scope) (d : Disk) : Disk → Prop
  | write {p : Path} {c : Content} {d' : Disk} (hp : s.writes p c)
      (h : d.write? p c = some d') : Change s d d'
  | make {p : Path} (hp : s.makes p) : Change s d (d.makeFolders p).1
  | clear {p : Path} (hp : s.clears p) : Change s d (d.removeFolder p).1

/-- Any number of changes, one after another. -/
abbrev Changes (s : Scope) : Disk → Disk → Prop := Relation.ReflTransGen (Change s)

variable {s : Scope} {d d' : Disk}

theorem Change.settings (h : Change s d d') : d'.home = d.home ∧ d'.closed = d.closed := by
  cases h with
  | write _ h => exact settings_write? h
  | make _ => exact settings_makeFolders _ d
  | clear _ => exact settings_removeFolder _ d

theorem Change.sound (h : Change s d d') (hd : d.Sound) : d'.Sound := by
  cases h with
  | write hp h =>
    exact (keeps_write? (P := fun _ => False) (s.wellFormed_of_writes _ _ hp) id h rfl hd).2.1
  | make hp =>
    exact (keeps_makeFolders (P := fun _ => False) (s.wellFormed_of_makes _ hp) d rfl hd).2.1
  | clear _ =>
    exact (keeps_removeFolder (P := fun _ => False) (fun _ => False.elim) d rfl hd).2.1

/-- What every change keeps is kept by all of them together. -/
theorem Changes.induction {I : Disk → Prop} (hstep : ∀ d d', Change s d d' → I d → I d')
    (h : Changes s d d') (hd : I d) : I d' := by
  induction h with
  | refl => exact hd
  | tail _ hlast ih => exact hstep _ _ hlast ih

theorem Changes.settings (h : Changes s d d') : d'.home = d.home ∧ d'.closed = d.closed :=
  h.induction (I := fun d₁ => d₁.home = d.home ∧ d₁.closed = d.closed)
    (fun _ _ hchange hd => ⟨hchange.settings.1.trans hd.1, hchange.settings.2.trans hd.2⟩)
    ⟨rfl, rfl⟩

theorem Changes.sound (h : Changes s d d') (hd : d.Sound) : d'.Sound :=
  h.induction (fun _ _ hchange => hchange.sound) hd

end Disk

namespace Job

open Disk

variable {α β : Type} {home : Location} {s : Scope} {d : Disk}

/-- The job only looks at the disk. -/
def Observes (job : Job α) : Prop := ∀ d, (job d).2 = d

theorem observes_pure (a : α) : Observes (pure a : Job α) := fun _ => rfl

theorem observes_throw (fault : Fault) : Observes (throw fault : Job α) := fun _ => rfl

theorem observes_lift (x : Except Fault α) : Observes (liftM x : Job α) := fun _ => rfl

theorem observes_inspect (look : Disk → α) : Observes (inspect look) := fun _ => rfl

theorem observes_require (fault : Fault) (find : Disk → Option α) :
    Observes (require fault find) := fun d => by rw [require_run]

theorem observes_building (ctx : Context) (build : Build α) : Observes (building ctx build) := by
  intro d
  unfold building
  rcases build ctx with ⟨_ | _, _⟩ <;> rfl

theorem observes_bind {x : Job α} {f : α → Job β} (hx : Observes x) (hf : ∀ a, Observes (f a)) :
    Observes (x >>= f) := by
  intro d
  have hfirst := hx d
  rw [bind_run]
  rcases hrun : x d with ⟨_ | a, d'⟩
  · rwa [hrun] at hfirst
  · rw [hrun] at hfirst
    exact (hf a d').trans hfirst

theorem observes_descriptionNames (folder : Path) : Observes (descriptionNames folder) :=
  fun d => by rw [Disk.descriptionNames_eq]

/-- Whatever comes of the job, it stays within its scope. -/
def Takes (home : Location) (s : Scope) (job : Job α) : Prop :=
  ∀ d, d.home = home → d.Sound → Changes s d (job d).2

theorem Observes.takes {job : Job α} (h : Observes job) : Takes home s job := by
  intro d _ _
  rw [h d]

theorem changes_bind {x : Job α} {f : α → Job β} (hx : Changes s d (x d).2)
    (hf : ∀ a d', x d = (.ok a, d') → Changes s d' (f a d').2) :
    Changes s d ((x >>= f) d).2 := by
  rw [bind_run]
  rcases hrun : x d with ⟨_ | a, d'⟩
  · rwa [hrun] at hx
  · rw [hrun] at hx
    exact hx.trans (hf a d' hrun)

/-- The second job may depend on what the first has found, which was on a sound disk. -/
theorem takes_bind {x : Job α} {f : α → Job β} (hx : Takes home s x)
    (hf : ∀ a, (∃ d : Disk, d.Sound ∧ (x d).1 = .ok a) → Takes home s (f a)) :
    Takes home s (x >>= f) := by
  intro d hhome hd
  refine changes_bind (hx d hhome hd) fun a d' hrun => ?_
  have hfirst := hx d hhome hd
  rw [hrun] at hfirst
  exact hf a ⟨d, hd, by rw [hrun]⟩ d' (hfirst.settings.1.trans hhome) (hfirst.sound hd)

theorem takes_forM {l : List α} {f : α → Job Unit} (h : ∀ a ∈ l, Takes home s (f a)) :
    Takes home s (l.forM f) := by
  induction l with
  | nil => exact (observes_pure ()).takes
  | cons a rest ih =>
    change Takes home s (f a >>= fun _ => rest.forM f)
    exact takes_bind (h a List.mem_cons_self) fun _ _ =>
      ih fun b hb => h b (List.mem_cons_of_mem _ hb)

theorem takes_optional {job : α → Job Unit} {a? : Option α}
    (h : ∀ a ∈ a?, Takes home s (job a)) : Takes home s (a?.forM job) := by
  cases a? with
  | none => exact (observes_pure ()).takes
  | some a => exact h a rfl

theorem takes_change {f : Disk → Option Disk} (fault : Fault)
    (h : ∀ d d', d.home = home → d.Sound → f d = some d' → Changes s d d') :
    Takes home s (change fault f) := by
  intro d hhome hd
  unfold change
  cases hf : f d with
  | none => exact .refl
  | some d' => exact h d d' hhome hd hf

theorem takes_advance {f : Disk → Disk × Bool} (fault : Fault)
    (h : ∀ d, d.home = home → d.Sound → Changes s d (f d).1) :
    Takes home s (advance fault f) := by
  intro d hhome hd
  have hchanges := h d hhome hd
  unfold advance
  rcases hf : f d with ⟨d', _ | _⟩ <;> rw [hf] at hchanges <;> exact hchanges

theorem takes_write {p : Path} {c : Content} (fault : Fault) (hp : s.writes p c) :
    Takes home s (change fault (Disk.write? p c)) :=
  takes_change fault fun _ _ _ _ h => .single (.write hp h)

/-- A copy writes its target twice. -/
theorem takes_copy {q : Path} (fault : Fault) (p : Path) (hq : ∀ c, s.writes q c) :
    Takes home s (change fault (Disk.copy? p q)) := by
  refine takes_change fault fun d d' _ _ h => ?_
  obtain ⟨emptied, c, hempty, _, hwrite⟩ := copy?_eq_some h
  exact (Relation.ReflTransGen.single (.write (hq _) hempty)).tail (.write (hq _) hwrite)

theorem takes_append {p : Path} (fault : Fault) (text : Text) (hp : ∀ c, s.writes p c) :
    Takes home s (change fault (Disk.append? p text)) :=
  takes_change fault fun _ _ _ _ h => .single (.write (hp _) h)

theorem takes_makeFolders {p : Path} (fault : Fault) (hp : s.makes p) :
    Takes home s (advance fault (Disk.makeFolders p)) :=
  takes_advance fault fun _ _ _ => .single (.make hp)

theorem takes_removeFolder {p : Path} (fault : Fault) (hp : s.clears p) :
    Takes home s (advance fault (Disk.removeFolder p)) :=
  takes_advance fault fun _ _ _ => .single (.clear hp)

end Job
end SchemaPackage
