import SchemaPackage.Text.Case

/-!
Upper case is reached at once: no character of a raised text can be raised further. For ASCII this
is a rule of arithmetic, and beyond it a property of the case tables, where no run or sequence
leads to a character that another one starts from.
-/
namespace SchemaPackage.Text

/-- Characters that are their own upper case. -/
def IsRaised (c : Char) : Prop := upperChar c = [c]

instance (c : Char) : Decidable (IsRaised c) := inferInstanceAs (Decidable (_ = _))

/-- What `r` maps to is not covered by `s`: the ranges lie apart, or both take every other
character and are out of step. -/
def CaseRun.apart (r s : CaseRun) : Bool :=
  Nat.blt s.last r.target || Nat.blt (r.map r.last) s.first
    || (s.step == 2 && (r.step == 2 || r.first == r.last) && r.target % 2 != s.first % 2)

theorem CaseRun.covers_map_of_apart {r s : CaseRun} {n : Nat} (hn : r.covers n = true)
    (h : r.apart s = true) : s.covers (r.map n) = false := by
  simp only [covers, Bool.and_eq_true, Nat.ble_eq, beq_iff_eq] at hn
  obtain ⟨⟨hfirst, hlast⟩, hstep⟩ := hn
  rw [Bool.eq_false_iff]
  intro hs
  simp only [covers, map, Bool.and_eq_true, Nat.ble_eq, beq_iff_eq] at hs
  obtain ⟨⟨hsfirst, hslast⟩, hsstep⟩ := hs
  simp only [apart, map, Bool.or_eq_true, Bool.and_eq_true, Nat.blt_eq, beq_iff_eq,
    bne_iff_ne] at h
  rcases h with (h | h) | ⟨⟨hstwo, hrtwo | hrone⟩, hparity⟩
  · omega
  · omega
  · rw [hstwo] at hsstep
    rw [hrtwo] at hstep
    omega
  · rw [hstwo] at hsstep
    omega

/-- A sequence starts from a character that `r` does not map to. -/
def CaseRun.misses (r : CaseRun) (n : Nat) : Bool :=
  Nat.blt n r.target || Nat.blt (r.map r.last) n

theorem CaseRun.map_ne_of_misses {r : CaseRun} {n m : Nat} (hn : r.covers n = true)
    (h : r.misses m = true) : (r.map n != m) = true := by
  simp only [covers, Bool.and_eq_true, Nat.ble_eq] at hn
  simp only [misses, map, Bool.or_eq_true, Nat.blt_eq] at h
  rw [bne_iff_ne, map]
  omega

theorem upperRuns_apart : (upperRuns.all fun r => upperRuns.all r.apart) = true := by
  decide +kernel

theorem upperRuns_misses :
    (upperRuns.all fun r => upperSequences.all fun entry => r.misses entry.1) = true := by
  decide +kernel

theorem isRaised_toUpper_ascii :
    ((List.range 128).all fun n => decide (IsRaised (Char.ofNat n).toUpper)) = true := by
  decide +kernel

/-- Two runs lead to ASCII: those of the dotless i and of the long s. -/
theorem isRaised_target_ascii :
    (upperRuns.all fun r => Nat.ble 128 r.target
      || r.first == r.last && decide (IsRaised (Char.ofNat r.target))) = true := by
  decide +kernel

theorem isRaised_sequences :
    (upperSequences.all fun entry =>
      entry.2.all fun code => decide (IsRaised (Char.ofNat code))) = true := by
  decide +kernel

theorem isRaised_of_uncovered {c : Char} (hbeyond : 128 ≤ c.toNat)
    (hruns : ∀ r ∈ upperRuns, r.covers c.toNat = false)
    (hsequences : upperSequences.lookup c.toNat = none) : IsRaised c := by
  have hfind : upperRuns.find? (·.covers c.toNat) = none := by
    rw [List.find?_eq_none]
    intro r hr
    rw [hruns r hr]
    exact Bool.false_ne_true
  rw [IsRaised, upperChar, if_neg (Nat.not_lt.mpr hbeyond), hfind, hsequences]

/-- A number that is not the code of a character counts as 0. -/
theorem toNat_ofNat_or (n : Nat) : (Char.ofNat n).toNat = n ∨ Char.ofNat n = Char.ofNat 0 := by
  by_cases hvalid : n.isValidChar
  · left
    rw [Char.ofNat, dif_pos hvalid]
    rfl
  · right
    rw [Char.ofNat, dif_neg hvalid]
    rfl

theorem isRaised_map {r : CaseRun} {n : Nat} (hr : r ∈ upperRuns) (hn : r.covers n = true) :
    IsRaised (Char.ofNat (r.map n)) := by
  have hascii := List.all_eq_true.mp isRaised_target_ascii r hr
  rw [Bool.or_eq_true, Bool.and_eq_true, Nat.ble_eq, beq_iff_eq, decide_eq_true_eq] at hascii
  rcases hascii with hbeyond | ⟨hone, hraised⟩
  · rcases toNat_ofNat_or (r.map n) with hcode | hstand
    · apply isRaised_of_uncovered
      · rw [hcode, CaseRun.map]
        omega
      · intro s hs
        have hapart := List.all_eq_true.mp (List.all_eq_true.mp upperRuns_apart r hr) s hs
        rw [hcode]
        exact CaseRun.covers_map_of_apart hn hapart
      · rw [hcode, List.lookup_eq_none_iff]
        intro entry hentry
        have hmisses := List.all_eq_true.mp (List.all_eq_true.mp upperRuns_misses r hr) entry hentry
        exact CaseRun.map_ne_of_misses hn hmisses
    · rw [hstand]
      decide
  · have htarget : r.map n = r.target := by
      simp only [CaseRun.covers, Bool.and_eq_true, Nat.ble_eq] at hn
      rw [CaseRun.map]
      omega
    rwa [htarget]

/-- The ways in which a character is raised. -/
theorem upperChar_cases (c : Char) :
    c.toNat < 128 ∧ upperChar c = [c.toUpper] ∨
      ¬ c.toNat < 128 ∧
        ((∃ r ∈ upperRuns, r.covers c.toNat = true ∧
            upperChar c = [Char.ofNat (r.map c.toNat)]) ∨
          (∃ codes, (c.toNat, codes) ∈ upperSequences ∧ upperChar c = codes.map Char.ofNat) ∨
          upperChar c = [c]) := by
  by_cases hascii : c.toNat < 128
  · exact Or.inl ⟨hascii, by rw [upperChar, if_pos hascii]⟩
  · refine Or.inr ⟨hascii, ?_⟩
    rw [upperChar, if_neg hascii]
    cases hrun : upperRuns.find? (·.covers c.toNat) with
    | some r =>
      have hcovers := List.find?_some (p := fun s : CaseRun => s.covers c.toNat) hrun
      exact Or.inl ⟨r, List.mem_of_find?_eq_some hrun, hcovers, rfl⟩
    | none =>
      right
      cases hsequence : upperSequences.lookup c.toNat with
      | some codes =>
        obtain ⟨before, after, hsplit, _⟩ := List.lookup_eq_some_iff.mp hsequence
        refine Or.inl ⟨codes, ?_, rfl⟩
        rw [hsplit]
        exact List.mem_append_right _ List.mem_cons_self
      | none => exact Or.inr rfl

/-- Raising a character gives characters that are raised already. -/
theorem isRaised_of_mem_upperChar {c d : Char} (h : d ∈ upperChar c) : IsRaised d := by
  rcases upperChar_cases c with
    ⟨hascii, hc⟩ | ⟨_, ⟨r, hr, hcovers, hc⟩ | ⟨codes, hentry, hc⟩ | hc⟩
  · rw [hc, List.mem_singleton] at h
    have hall := List.all_eq_true.mp isRaised_toUpper_ascii c.toNat (List.mem_range.mpr hascii)
    rw [decide_eq_true_eq, Char.ofNat_toNat] at hall
    rwa [h]
  · rw [hc, List.mem_singleton] at h
    rw [h]
    exact isRaised_map hr hcovers
  · rw [hc] at h
    obtain ⟨code, hcode, rfl⟩ := List.mem_map.mp h
    have hall := List.all_eq_true.mp isRaised_sequences _ hentry
    exact of_decide_eq_true (List.all_eq_true.mp hall code hcode)
  · rw [hc, List.mem_singleton] at h
    rwa [h]

theorem upper_append (s t : Text) : upper (s ++ t) = upper s ++ upper t := List.flatMap_append

theorem upper_of_forall_isRaised {t : Text} (h : ∀ c ∈ t, IsRaised c) : upper t = t := by
  induction t with
  | nil => rfl
  | cons c rest ih =>
    have hc : upperChar c = [c] := h c List.mem_cons_self
    have hrest : upper rest = rest := ih fun d hd => h d (List.mem_cons_of_mem _ hd)
    rw [upper, List.flatMap_cons, hc, ← upper, hrest, List.singleton_append]

/-- A second raising changes nothing. -/
theorem upper_upper (t : Text) : upper (upper t) = upper t := by
  apply upper_of_forall_isRaised
  intro d hd
  obtain ⟨c, _, hc⟩ := List.mem_flatMap.mp hd
  exact isRaised_of_mem_upperChar hc

end SchemaPackage.Text
