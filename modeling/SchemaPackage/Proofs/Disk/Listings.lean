import Mathlib.Tactic.SplitIfs
import SchemaPackage.Job
import SchemaPackage.Proofs.Disk.Files
import SchemaPackage.Proofs.Outcome

/-!
Listings of folders. The names in a listing are those of the files directly in the folder, each
once and in the order of their bytes, so a listing depends on nothing but which files there are.
-/
namespace SchemaPackage

namespace Text

/-- The bytes of a text, which names are sorted by. -/
def byteList (t : Text) : List UInt8 := t.utf8.data.toList

theorem byteList_eq (t : Text) : t.byteList = t.flatMap String.utf8EncodeChar := by
  rw [byteList, utf8, String.toUTF8, String.toByteArray_ofList, List.utf8Encode,
    List.toList_data_toByteArray]

/-- Of two numbers of four digits to the base 64, the first digit that differs decides. -/
theorem digits_lt {v w : Nat} (h : v < w) :
    v / 262144 < w / 262144 ∨ v / 262144 = w / 262144 ∧
      (v / 4096 % 64 < w / 4096 % 64 ∨ v / 4096 % 64 = w / 4096 % 64 ∧
        (v / 64 % 64 < w / 64 % 64 ∨ v / 64 % 64 = w / 64 % 64 ∧ v % 64 < w % 64)) := by
  rcases Nat.lt_or_eq_of_le (Nat.div_le_div_right (c := 262144) (Nat.le_of_lt h)) with h₁ | h₁
  · exact Or.inl h₁
  refine Or.inr ⟨h₁, ?_⟩
  rcases Nat.lt_or_eq_of_le (Nat.div_le_div_right (c := 4096) (Nat.le_of_lt h)) with h₂ | h₂
  · omega
  refine Or.inr ⟨by rw [h₂], ?_⟩
  rcases Nat.lt_or_eq_of_le (Nat.div_le_div_right (c := 64) (Nat.le_of_lt h)) with h₃ | h₃
  · omega
  · exact Or.inr ⟨by rw [h₃], by omega⟩

/-- The bytes of a smaller character come first, whatever follows them. -/
theorem utf8EncodeChar_append_lt {c d : Char} (h : c < d) (s t : List UInt8) :
    String.utf8EncodeChar c ++ s < String.utf8EncodeChar d ++ t := by
  have hlt : c.val.toNat < d.val.toNat := h
  have hd : d.val.toNat < 0x110000 := by
    rcases d.valid with h | h
    · exact Nat.lt_trans h (by decide)
    · exact h.2
  have hdigits := digits_lt hlt
  unfold String.utf8EncodeChar
  generalize c.val.toNat = v at *
  generalize d.val.toNat = w at *
  have hlater (n k : Nat) (hk : k ≤ 192) : (n % 64 + k) % 2 ^ 8 = n % 64 + k := by omega
  have hv : (v / 262144 % 8 + 240) % 2 ^ 8 = v / 262144 + 240 := by omega
  have hw : (w / 262144 % 8 + 240) % 2 ^ 8 = w / 262144 + 240 := by omega
  dsimp only
  split_ifs <;>
    simp only [List.cons_append, List.nil_append, List.cons_lt_cons_iff,
      UInt8.lt_iff_toNat_lt, ← UInt8.toNat_inj, UInt8.toNat_ofNat', hlater, hv, hw,
      Nat.reduceLeDiff] <;>
    omega

theorem byteList_lt {s t : Text} (h : compare s t = .lt) : s.byteList < t.byteList := by
  rw [byteList_eq, byteList_eq]
  induction s generalizing t with
  | nil =>
    cases t with
    | nil => cases h
    | cons d t =>
      obtain ⟨first, rest, hfirst⟩ :=
        List.exists_cons_of_ne_nil (String.utf8EncodeChar_ne_nil (c := d))
      rw [List.flatMap_cons, hfirst]
      exact List.nil_lt_cons _ _
  | cons c s ih =>
    cases t with
    | nil => cases h
    | cons d t =>
      rw [List.compare_eq_compareLex, List.compareLex_cons_cons, Ordering.then_eq_lt] at h
      rw [List.flatMap_cons, List.flatMap_cons]
      rcases h with h | ⟨h, hrest⟩
      · exact utf8EncodeChar_append_lt (compareOfLessAndEq_eq_lt.mp h) _ _
      · rw [Std.LawfulEqCmp.eq_of_compare h]
        exact List.append_left_lt (ih hrest)

theorem after?_eq_some {α : Type} [DecidableEq α] {front t rest : List α} :
    after? front t = some rest ↔ t = front ++ rest := by
  induction front generalizing t with
  | nil => simp [after?]
  | cons f front ih =>
    cases t with
    | nil => simp [after?]
    | cons c t =>
      by_cases hc : f = c
      · rw [after?, if_pos hc, ih, hc, List.cons_append, List.cons.injEq]
        simp
      · rw [after?, if_neg hc, List.cons_append, List.cons.injEq]
        simp [Ne.symm hc]

end Text

namespace Disk

open Outcome

variable {d d' : Disk} {l : Location} {name : Text}

/-- The name that an entry has in the listing of a location, if it is a file directly there. -/
def listed? (l : Location) (e : Location × Entry) : Option Text :=
  match Text.after? l e.1, e.2 with
  | some [name], .file _ => some name
  | _, _ => none

theorem listed?_eq_some {e : Location × Entry} :
    listed? l e = some name ↔ e.1 = l ++ [name] ∧ ∃ c, e.2 = .file c := by
  obtain ⟨location, entry⟩ := e
  rw [← Text.after?_eq_some]
  unfold listed?
  cases Text.after? l location with
  | none => simp
  | some rest => rcases rest with _ | ⟨first, _ | ⟨next, more⟩⟩ <;> cases entry <;> simp

theorem filesAt_eq (d : Disk) (l : Location) :
    d.filesAt l = d.entries.toList.filterMap (listed? l) := by
  rw [filesAt, below, List.filterMap_filterMap]
  congr 1
  funext ⟨location, entry⟩
  unfold listed?
  cases Text.after? l location with
  | none => rfl
  | some rest => rcases rest with _ | ⟨first, _ | ⟨next, more⟩⟩ <;> cases entry <;> rfl

theorem mem_filesAt : name ∈ d.filesAt l ↔ ∃ c, d.fileAt? (l ++ [name]) = some c := by
  have hne : l ++ [name] ≠ [] := List.append_ne_nil_of_right_ne_nil l (List.cons_ne_nil name [])
  simp only [filesAt_eq, List.mem_filterMap, listed?_eq_some, fileAt?_eq_some,
    entryAt?_of_ne_nil hne, ← Std.ExtTreeMap.mem_toList_iff_getElem?_eq_some]
  constructor
  · rintro ⟨⟨_, _⟩, hmem, rfl, c, rfl⟩
    exact ⟨c, hmem⟩
  · rintro ⟨c, hmem⟩
    exact ⟨_, hmem, rfl, c, rfl⟩

theorem compare_append_singleton (l : Location) (s t : Text) :
    compare (l ++ [s]) (l ++ [t]) = compare s t := by
  induction l with
  | nil =>
    rw [List.nil_append, List.nil_append, List.compare_eq_compareLex, List.compareLex_cons_cons,
      List.compareLex_nil_nil, Ordering.then_eq]
  | cons a l ih =>
    rw [List.cons_append, List.cons_append, List.compare_eq_compareLex, List.compareLex_cons_cons,
      Std.ReflOrd.compare_self, Ordering.eq_then]
    exact ih

/-- The files of a listing come in the order of the bytes of their names. -/
theorem pairwise_filesAt (d : Disk) (l : Location) :
    (d.filesAt l).Pairwise fun s t => s.byteList < t.byteList := by
  rw [filesAt_eq, List.pairwise_filterMap]
  refine Std.ExtTreeMap.ordered_keys_toList.imp fun {e e'} hlt s hs t ht => ?_
  rw [(listed?_eq_some.mp hs).1, (listed?_eq_some.mp ht).1, compare_append_singleton] at hlt
  exact Text.byteList_lt hlt

theorem nodup_of_pairwise_byteList {l : List Text}
    (hl : l.Pairwise fun s t => s.byteList < t.byteList) : l.Nodup := by
  refine List.Pairwise.imp (fun {s t} hlt heq => ?_) hl
  rw [heq] at hlt
  exact List.lt_irrefl _ hlt

/-- Names in the order of their bytes are determined by which there are. -/
theorem eq_of_pairwise_byteList {l l' : List Text}
    (hl : l.Pairwise fun s t => s.byteList < t.byteList)
    (hl' : l'.Pairwise fun s t => s.byteList < t.byteList) (h : ∀ t, t ∈ l ↔ t ∈ l') : l = l' := by
  have hnodup := nodup_of_pairwise_byteList hl
  have hnodup' := nodup_of_pairwise_byteList hl'
  exact List.Perm.eq_of_pairwise (fun s t _ _ hst hts => absurd hts (List.lt_asymm hst)) hl hl'
    ((List.perm_ext_iff_of_nodup hnodup hnodup').mpr h)

theorem locate?_congr (hhome : d'.home = d.home) (hfolders : ∀ l, d'.isFolderAt l = d.isFolderAt l)
    (p : Path) : d'.locate? p = d.locate? p := by
  have hfollow (here : Location) (pieces : List Text) :
      d'.follow? here pieces = d.follow? here pieces := by
    induction pieces generalizing here with
    | nil => rfl
    | cons piece rest ih => simp only [follow?, step?, hfolders, ih]
  simp only [locate?, start, hhome, hfollow]

/-- The files that are seen in a folder. A folder that is missing shows none. -/
def seen (d : Disk) (folder : Path) : List Text := (d.fileNames? folder).getD []

/-- The description files that are seen in a folder. -/
def descriptions (d : Disk) (folder : Path) : List Text :=
  ((d.fileNames? folder).getD []).filter Job.isDescription

theorem isFolder_eq (d : Disk) (folder : Path) :
    d.isFolder folder = (d.fileNames? folder).isSome := by
  unfold isFolder entry? fileNames?
  cases d.locate? folder with
  | none => rfl
  | some l =>
    change d.isFolderAt l = (if d.isFolderAt l = true then some _ else none).isSome
    cases d.isFolderAt l <;> rfl

theorem descriptionNames_eq (d : Disk) (folder : Path) :
    Job.descriptionNames folder d = (.ok (d.descriptions folder), d) := by
  have hlook : Job.descriptionNames folder d =
      (if d.isFolder folder then (do
        return (← Job.fileNames folder).filter Job.isDescription) else pure [] : Job _) d := rfl
  rw [hlook, isFolder_eq, descriptions]
  cases hnames : d.fileNames? folder with
  | none => rfl
  | some names =>
    rw [Option.isSome_some, if_pos rfl, bind_run, Job.fileNames, Job.require, hnames]
    rfl

theorem fileNames?_eq_some {folder : Path} {names : List Text}
    (h : d.fileNames? folder = some names) :
    ∃ l, d.locate? folder = some l ∧ d.isFolderAt l = true ∧
      names = (d.filesAt l).filter fun name => (folder.join name).isUsable := by
  unfold fileNames? at h
  split at h
  · rename_i l hlocate
    split at h
    · exact ⟨l, hlocate, ‹_›, (Option.some.inj h).symm⟩
    · cases h
  · cases h

theorem mem_seen {folder : Path} : name ∈ d.seen folder ↔
    (folder.join name).isUsable = true ∧ d.isFolder folder = true ∧
      ∃ c, d.fileAt? (folder.place d.home ++ [name]) = some c := by
  rw [seen, isFolder_eq]
  cases hnames : d.fileNames? folder with
  | none => simp
  | some names =>
    obtain ⟨l, hlocate, _, rfl⟩ := fileNames?_eq_some hnames
    rw [Option.getD_some, List.mem_filter, mem_filesAt, locate?_eq_some hlocate, and_comm]
    simp only [Option.isSome_some, true_and]

theorem pairwise_seen (d : Disk) (folder : Path) :
    (d.seen folder).Pairwise fun s t => s.byteList < t.byteList := by
  rw [seen]
  cases hnames : d.fileNames? folder with
  | none => exact List.Pairwise.nil
  | some names =>
    obtain ⟨l, _, _, rfl⟩ := fileNames?_eq_some hnames
    exact (pairwise_filesAt d l).filter _

theorem nodup_seen (d : Disk) (folder : Path) : (d.seen folder).Nodup :=
  nodup_of_pairwise_byteList (pairwise_seen d folder)

theorem mem_descriptions {folder : Path} : name ∈ d.descriptions folder ↔
    Job.isDescription name = true ∧ (folder.join name).isUsable = true ∧
      d.isFolder folder = true ∧ ∃ c, d.fileAt? (folder.place d.home ++ [name]) = some c := by
  rw [descriptions, List.mem_filter, ← seen, mem_seen, and_comm]

theorem pairwise_descriptions (d : Disk) (folder : Path) :
    (d.descriptions folder).Pairwise fun s t => s.byteList < t.byteList :=
  (pairwise_seen d folder).filter _

/-- A listing of descriptions stays the same while folders and descriptions do. -/
theorem descriptions_congr (hhome : d'.home = d.home)
    (hfolders : ∀ l, d'.isFolderAt l = d.isFolderAt l)
    (hfiles : ∀ l name, Job.isDescription name = true →
      d'.fileAt? (l ++ [name]) = d.fileAt? (l ++ [name])) (folder : Path) :
    d'.descriptions folder = d.descriptions folder := by
  refine eq_of_pairwise_byteList (pairwise_descriptions d' folder) (pairwise_descriptions d folder)
    fun name => ?_
  rw [mem_descriptions, mem_descriptions]
  refine and_congr_right fun hname => ?_
  have hfolder : d'.isFolder folder = d.isFolder folder := by
    rw [isFolder, entry?, locate?_congr hhome hfolders, isFolder, entry?]
    cases d.locate? folder with
    | none => rfl
    | some l => exact hfolders l
  rw [hfolder, hhome, hfiles _ name hname]

/-- The names of the description files in a folder, each once and in the order of their bytes. -/
structure Lists (d : Disk) (folder : Path) (names : List Text) : Prop where
  ordered : names.Pairwise fun s t => s.byteList < t.byteList
  mem_iff : ∀ name, name ∈ names ↔
    Job.isDescription name = true ∧ (folder.join name).isUsable = true ∧
      d.isFolder folder = true ∧ ∃ c, d.fileAt? (folder.place d.home ++ [name]) = some c

theorem lists_descriptions (d : Disk) (folder : Path) : d.Lists folder (d.descriptions folder) :=
  ⟨pairwise_descriptions d folder, fun _ => mem_descriptions⟩

end Disk
end SchemaPackage
