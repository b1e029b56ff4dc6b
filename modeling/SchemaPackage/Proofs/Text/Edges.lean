import Mathlib.Data.List.TakeWhile
import SchemaPackage.Proofs.Text.Upper
import SchemaPackage.Text.Blank

/-!
The ends of texts. Trimming gives a text with no white space at its ends, and leaves such a text as
it is. No character is raised to white space, so a trimmed text stays trimmed when it is raised.
-/
namespace SchemaPackage.Text

/-- There is no white space at either end. -/
structure IsTrimmed (t : Text) : Prop where
  head : ∀ c ∈ t.head?, isBlank c = false
  last : ∀ c ∈ t.getLast?, isBlank c = false

theorem isTrimmed_iff_all {t : Text} :
    IsTrimmed t ↔
      (t.head?.all fun c => !isBlank c) = true ∧ (t.getLast?.all fun c => !isBlank c) = true := by
  simp only [Option.all_eq_true, Bool.not_eq_true']
  exact ⟨fun h => ⟨h.head, h.last⟩, fun ⟨head, last⟩ => ⟨head, last⟩⟩

instance (t : Text) : Decidable (IsTrimmed t) := decidable_of_iff _ isTrimmed_iff_all.symm

theorem IsTrimmed.reverse {t : Text} (h : IsTrimmed t) : IsTrimmed t.reverse := by
  constructor
  · rw [List.head?_reverse]
    exact h.last
  · rw [List.getLast?_reverse]
    exact h.head

section Ends

variable {p : Char → Bool} {s t : Text}

theorem dropWhile_of_head (h : ∀ c ∈ t.head?, p c = false) : t.dropWhile p = t := by
  cases t with
  | nil => rfl
  | cons c rest => rw [List.dropWhile_cons_of_neg (by simp [h c rfl])]

theorem dropWhile_append_cons (hs : ∀ c ∈ s, p c = true) {c : Char} (hc : p c = false) (t : Text) :
    (s ++ c :: t).dropWhile p = c :: t := by
  rw [List.dropWhile_append_of_pos hs, List.dropWhile_cons_of_neg (by simp [hc])]

theorem takeWhile_append_cons (hs : ∀ c ∈ s, p c = true) {c : Char} (hc : p c = false) (t : Text) :
    (s ++ c :: t).takeWhile p = s := by
  rw [List.takeWhile_append_of_pos hs, List.takeWhile_cons_of_neg (by simp [hc]), List.append_nil]

theorem head?_dropWhile (p : Char → Bool) (t : Text) :
    ∀ c ∈ (t.dropWhile p).head?, p c = false := by
  intro c hc
  have h := List.head?_dropWhile_not p t
  rw [Option.mem_def.mp hc] at h
  exact h

/-- What is dropped at the end leaves the first character, if it leaves any. -/
theorem head?_trimEnds (p : Char → Bool) (t : Text) : ∀ c ∈ (trimEnds p t).head?, p c = false := by
  intro c hc
  apply head?_dropWhile p t c
  obtain ⟨back, hback⟩ : trimEnds p t <+: t.dropWhile p := by
    rw [← List.reverse_suffix, trimEnds, List.reverse_reverse]
    exact List.dropWhile_suffix p
  rw [← hback, List.head?_append, Option.mem_def.mp hc]
  rfl

theorem getLast?_trimEnds (p : Char → Bool) (t : Text) :
    ∀ c ∈ (trimEnds p t).getLast?, p c = false := by
  have hend := head?_dropWhile p (t.dropWhile p).reverse
  rw [trimEnds, List.getLast?_reverse]
  exact hend

theorem trimEnds_of_ends (hhead : ∀ c ∈ t.head?, p c = false)
    (hlast : ∀ c ∈ t.getLast?, p c = false) : trimEnds p t = t := by
  have hback : ∀ c ∈ t.reverse.head?, p c = false := by
    rw [List.head?_reverse]
    exact hlast
  rw [trimEnds, dropWhile_of_head hhead, dropWhile_of_head hback, List.reverse_reverse]

/-- Nothing is dropped exactly if neither end is in the class. -/
theorem trimEnds_eq_self_iff :
    trimEnds p t = t ↔ (∀ c ∈ t.head?, p c = false) ∧ ∀ c ∈ t.getLast?, p c = false := by
  constructor
  · intro h
    have hhead := head?_trimEnds p t
    have hlast := getLast?_trimEnds p t
    rw [h] at hhead hlast
    exact ⟨hhead, hlast⟩
  · intro h
    exact trimEnds_of_ends h.1 h.2

theorem trimEnds_enclosed {c : Char} (hc : p c = true) (t : Text) :
    trimEnds p (c :: (t ++ [c])) = trimEnds p t := by
  unfold trimEnds
  rw [List.dropWhile_cons_of_pos hc, List.dropWhile_append]
  split
  next hnone =>
    rw [List.isEmpty_iff.mp hnone, List.dropWhile_cons_of_pos hc]
    rfl
  next =>
    rw [List.reverse_append, List.reverse_singleton, List.singleton_append,
      List.dropWhile_cons_of_pos hc]

end Ends

theorem isTrimmed_trim (t : Text) : IsTrimmed (trim t) :=
  ⟨head?_trimEnds isBlank t, getLast?_trimEnds isBlank t⟩

theorem IsTrimmed.trim_eq {t : Text} (h : IsTrimmed t) : trim t = t :=
  trimEnds_of_ends h.head h.last

theorem isBlank_toUpper_ascii :
    ((List.range 128).all fun n => !isBlank (Char.ofNat n).toUpper
      || (Char.ofNat n).toUpper == Char.ofNat n) = true := by
  decide +kernel

theorem isBlank_upperRuns :
    (upperRuns.all fun r => blankRanges.all fun b =>
      Nat.blt (r.map r.last) b.1 || Nat.blt b.2 r.target) = true := by
  decide +kernel

theorem isBlank_upperSequences :
    (upperSequences.all fun entry =>
      !entry.2.isEmpty && entry.2.all fun code => !isBlank (Char.ofNat code)) = true := by
  decide +kernel

theorem isBlank_map {r : CaseRun} {n : Nat} (hr : r ∈ upperRuns) (hn : r.covers n = true) :
    isBlank (Char.ofNat (r.map n)) = false := by
  rcases toNat_ofNat_or (r.map n) with hcode | hstand
  · rw [isBlank, Ranges.includes, List.any_eq_false]
    intro b hb
    have hapart := List.all_eq_true.mp (List.all_eq_true.mp isBlank_upperRuns r hr) b hb
    simp only [CaseRun.covers, Bool.and_eq_true, Nat.ble_eq] at hn
    rw [Bool.or_eq_true, Nat.blt_eq, Nat.blt_eq, CaseRun.map] at hapart
    rw [Bool.and_eq_true, Nat.ble_eq, Nat.ble_eq, hcode, CaseRun.map]
    omega
  · rw [hstand]
    decide

/-- Only white space is raised to white space, and then to itself. -/
theorem eq_of_isBlank_of_mem_upperChar {c d : Char} (h : d ∈ upperChar c)
    (hd : isBlank d = true) : d = c := by
  rcases upperChar_cases c with
    ⟨hascii, hc⟩ | ⟨_, ⟨r, hr, hcovers, hc⟩ | ⟨codes, hentry, hc⟩ | hc⟩
  · rw [hc, List.mem_singleton] at h
    have hall := List.all_eq_true.mp isBlank_toUpper_ascii c.toNat (List.mem_range.mpr hascii)
    rw [Char.ofNat_toNat, ← h, hd, Bool.not_true, Bool.false_or, beq_iff_eq] at hall
    exact hall
  · rw [hc, List.mem_singleton] at h
    rw [h, isBlank_map hr hcovers] at hd
    cases hd
  · rw [hc] at h
    obtain ⟨code, hcode, rfl⟩ := List.mem_map.mp h
    have hall := List.all_eq_true.mp isBlank_upperSequences _ hentry
    rw [Bool.and_eq_true] at hall
    have hblank := List.all_eq_true.mp hall.2 code hcode
    rw [hd] at hblank
    cases hblank
  · rw [hc] at h
    exact List.mem_singleton.mp h

theorem upperChar_ne_nil (c : Char) : upperChar c ≠ [] := by
  rcases upperChar_cases c with ⟨_, hc⟩ | ⟨_, ⟨r, _, _, hc⟩ | ⟨codes, hentry, hc⟩ | hc⟩
  · exact hc ▸ List.cons_ne_nil _ _
  · exact hc ▸ List.cons_ne_nil _ _
  · have hall := List.all_eq_true.mp isBlank_upperSequences _ hentry
    rw [hc]
    intro hnil
    rw [List.map_eq_nil_iff.mp hnil] at hall
    cases hall
  · exact hc ▸ List.cons_ne_nil _ _

theorem isBlank_of_mem_upperChar {c d : Char} (h : d ∈ upperChar c) (hc : isBlank c = false) :
    isBlank d = false := by
  by_contra hd
  rw [Bool.not_eq_false] at hd
  rw [← eq_of_isBlank_of_mem_upperChar h hd, hd] at hc
  cases hc

theorem IsTrimmed.upper {t : Text} (h : IsTrimmed t) : IsTrimmed (upper t) := by
  constructor
  · cases t with
    | nil => exact h.head
    | cons c rest =>
      obtain ⟨d, more, hd⟩ := List.exists_cons_of_ne_nil (upperChar_ne_nil c)
      intro e he
      rw [Text.upper, List.flatMap_cons, hd, List.cons_append, List.head?_cons] at he
      cases he
      exact isBlank_of_mem_upperChar (hd ▸ List.mem_cons_self) (h.head c rfl)
  · rcases List.eq_nil_or_concat t with rfl | ⟨front, c, rfl⟩
    · exact h.last
    · rw [List.concat_eq_append] at h ⊢
      rcases List.eq_nil_or_concat (upperChar c) with hnil | ⟨more, d, hd⟩
      · exact absurd hnil (upperChar_ne_nil c)
      · rw [List.concat_eq_append] at hd
        have hc : Text.upper [c] = more ++ [d] := by
          rw [Text.upper, List.flatMap_singleton, hd]
        intro e he
        rw [upper_append, hc, ← List.append_assoc, List.getLast?_concat] at he
        cases he
        exact isBlank_of_mem_upperChar (hd ▸ List.mem_concat_self) (h.last c List.getLast?_concat)

end SchemaPackage.Text
