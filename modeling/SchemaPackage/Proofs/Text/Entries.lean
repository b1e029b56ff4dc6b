import Mathlib.Data.List.Infix
import Mathlib.Data.List.TakeWhile
import SchemaPackage.Proofs.Disk.Places
import SchemaPackage.Proofs.Text.Upper
import SchemaPackage.Text.Blank

/-!
Lists of names in one text, with a comma between any two. What is looked for in such a text stands
in one of its entries as soon as it has no comma and no white space of its own: it cannot lie across
entries, and nothing of it is lost when the entries are trimmed. Raising a text makes no commas.
-/
namespace SchemaPackage.Text

theorem after?_isSome_iff {α : Type} [DecidableEq α] {front t : List α} :
    (after? front t).isSome = true ↔ front <+: t := by
  induction front generalizing t with
  | nil => simp [after?]
  | cons f front ih =>
    cases t with
    | nil => simp [after?]
    | cons c rest =>
      rw [List.cons_prefix_cons, after?]
      by_cases hc : f = c
      · rw [if_pos hc, ih]
        simp [hc]
      · simp [hc]

theorem occursIn_iff {part t : Text} : occursIn part t = true ↔ part <:+: t := by
  induction t with
  | nil => simp [occursIn]
  | cons c rest ih =>
    rw [occursIn, Bool.or_eq_true, beginsWith, after?_isSome_iff, ih, List.infix_cons_iff]

theorem endsWith_iff {back t : Text} : endsWith back t = true ↔ back <:+ t := by
  rw [endsWith, beginsWith, after?_isSome_iff, List.reverse_prefix]

theorem joined_append {sep : Text} {a b : List Text} (ha : a ≠ []) (hb : b ≠ []) :
    joined sep (a ++ b) = joined sep a ++ sep ++ joined sep b := by
  match a with
  | [t] =>
    obtain ⟨u, rest, rfl⟩ := List.exists_cons_of_ne_nil hb
    rfl
  | t :: u :: rest =>
    have ih : joined sep (u :: rest ++ b) = joined sep (u :: rest) ++ sep ++ joined sep b :=
      joined_append (List.cons_ne_nil u rest) hb
    have hsides (more : List Text) : joined sep (t :: u :: more) =
        t ++ (sep ++ joined sep (u :: more)) := List.append_assoc _ _ _
    rw [List.cons_append, List.cons_append, hsides, ← List.cons_append, ih, hsides]
    simp only [List.append_assoc]

section Separated

variable {sep : Char} {part s t : Text}

theorem prefix_append_cons_iff (hpart : sep ∉ part) : part <+: s ++ sep :: t ↔ part <+: s := by
  induction s generalizing part with
  | nil =>
    cases part with
    | nil => simp
    | cons c part =>
      have hc : c ≠ sep := by
        rintro rfl
        exact hpart List.mem_cons_self
      simp [hc]
  | cons d rest ih =>
    cases part with
    | nil => simp
    | cons c part =>
      have hrest : sep ∉ part := fun h => hpart (List.mem_cons_of_mem _ h)
      rw [List.cons_append, List.cons_prefix_cons, List.cons_prefix_cons, ih hrest]

/-- What has no separator lies on one side of each. -/
theorem infix_append_cons_iff (hpart : sep ∉ part) :
    part <:+: s ++ sep :: t ↔ part <:+: s ∨ part <:+: t := by
  induction s with
  | nil =>
    have hfront : part <+: [] ++ sep :: t ↔ part <+: [] := prefix_append_cons_iff hpart
    rw [List.nil_append] at hfront
    rw [List.nil_append, List.infix_cons_iff, hfront, List.prefix_nil, List.infix_nil]
  | cons c rest ih =>
    have hfront : part <+: (c :: rest) ++ sep :: t ↔ part <+: c :: rest :=
      prefix_append_cons_iff hpart
    rw [List.cons_append] at hfront
    rw [List.cons_append, List.infix_cons_iff, hfront, ih, List.infix_cons_iff, or_assoc]

theorem infix_joined_iff (hpart : sep ∉ part) {names : List Text} (hnames : names ≠ []) :
    part <:+: joined [sep] names ↔ ∃ name ∈ names, part <:+: name := by
  match names with
  | [name] => simp [joined]
  | name :: next :: rest =>
    have ih := infix_joined_iff hpart (List.cons_ne_nil next rest)
    have hsides : joined [sep] (name :: next :: rest) =
        name ++ sep :: joined [sep] (next :: rest) := List.append_assoc _ _ _
    rw [hsides, infix_append_cons_iff hpart, ih]
    simp

theorem joined_cons_head (c : Char) (piece : Text) (more : List Text) :
    joined [sep] ((c :: piece) :: more) = c :: joined [sep] (piece :: more) := by
  cases more with
  | nil => rfl
  | cons next more => rfl

theorem joined_split (sep : Char) (t : Text) : joined [sep] (split sep t) = t := by
  induction t with
  | nil => rfl
  | cons c rest ih =>
    obtain ⟨piece, more, hsplit⟩ := List.exists_cons_of_ne_nil (split_ne_nil sep rest)
    by_cases hc : c = sep
    · have hsides : joined [sep] ([] :: piece :: more) = sep :: joined [sep] (piece :: more) := rfl
      rw [split, if_pos hc, hsplit, hsides, ← hsplit, ih, hc]
    · rw [split_cons_of_ne hc hsplit, joined_cons_head, ← hsplit, ih]

/-- Characters that it does not have may be put in front of a text and behind it. -/
theorem infix_append_iff_of_disjoint (hs : ∀ c ∈ s, c ∉ part) :
    part <:+: s ++ t ↔ part <:+: t := by
  induction s with
  | nil => rfl
  | cons c rest ih =>
    have hrest := ih fun d hd => hs d (List.mem_cons_of_mem _ hd)
    have hsides : part <:+: [] ++ c :: (rest ++ t) ↔ part <:+: [] ∨ part <:+: rest ++ t :=
      infix_append_cons_iff (hs c List.mem_cons_self)
    rw [List.cons_append, ← List.nil_append (c :: (rest ++ t)), hsides, hrest, List.infix_nil]
    constructor
    · rintro (rfl | h)
      · exact List.nil_infix
      · exact h
    · exact Or.inr

theorem infix_append_iff_of_disjoint_right (ht : ∀ c ∈ t, c ∉ part) :
    part <:+: s ++ t ↔ part <:+: s := by
  rw [← List.reverse_infix, List.reverse_append, infix_append_iff_of_disjoint, List.reverse_infix]
  intro c hc
  rw [List.mem_reverse] at hc ⊢
  exact ht c hc

end Separated

theorem upper_joined {sep : Char} (hsep : IsRaised sep) (names : List Text) :
    upper (joined [sep] names) = joined [sep] (names.map upper) := by
  match names with
  | [] => rfl
  | [name] => rfl
  | name :: next :: rest =>
    have ih := upper_joined hsep (next :: rest)
    have hraised : upper [sep] = [sep] := by
      rw [upper, List.flatMap_singleton]
      exact hsep
    have hsides : joined [sep] (name :: next :: rest) =
        name ++ [sep] ++ joined [sep] (next :: rest) := rfl
    rw [hsides, upper_append, upper_append, hraised, ih]
    rfl

/-- White space has no letters to raise. -/
theorem isRaised_blankRanges :
    (blankRanges.all fun r => (List.range' r.1 (r.2 + 1 - r.1)).all fun n =>
      decide (IsRaised (Char.ofNat n))) = true := by
  decide +kernel

theorem isRaised_of_isBlank {c : Char} (h : isBlank c = true) : IsRaised c := by
  obtain ⟨r, hr, hc⟩ := List.any_eq_true.mp h
  rw [Bool.and_eq_true, Nat.ble_eq, Nat.ble_eq] at hc
  have hcode : c.toNat ∈ List.range' r.1 (r.2 + 1 - r.1) := by
    rw [List.mem_range'_1]
    omega
  have hall := List.all_eq_true.mp (List.all_eq_true.mp isRaised_blankRanges r hr) c.toNat hcode
  rwa [decide_eq_true_eq, Char.ofNat_toNat] at hall

/-- Trimming takes away nothing but white space. -/
theorem exists_trim (t : Text) : ∃ front back, t = front ++ trim t ++ back ∧
    (∀ c ∈ front, isBlank c = true) ∧ ∀ c ∈ back, isBlank c = true := by
  refine ⟨t.takeWhile isBlank, ((t.dropWhile isBlank).reverse.takeWhile isBlank).reverse,
    ?_, ?_, ?_⟩
  · rw [trim, trimEnds, List.append_assoc, ← List.reverse_append, List.takeWhile_append_dropWhile,
      List.reverse_reverse, List.takeWhile_append_dropWhile]
  · exact fun c hc => List.mem_takeWhile_imp hc
  · exact fun c hc => List.mem_takeWhile_imp (List.mem_reverse.mp hc)

/-- What has no white space of its own is not lost by trimming. -/
theorem infix_upper_trim_iff {part : Text} (hpart : ∀ c ∈ part, isBlank c = false) (t : Text) :
    part <:+: upper (trim t) ↔ part <:+: upper t := by
  obtain ⟨front, back, ht, hfront, hback⟩ := exists_trim t
  have hraised : ∀ {blanks : Text}, (∀ c ∈ blanks, isBlank c = true) → upper blanks = blanks :=
    fun h => upper_of_forall_isRaised fun c hc => isRaised_of_isBlank (h c hc)
  have hdisjoint : ∀ {blanks : Text}, (∀ c ∈ blanks, isBlank c = true) →
      ∀ c ∈ blanks, c ∉ part := by
    intro blanks h c hc hmem
    have hblank := h c hc
    rw [hpart c hmem] at hblank
    cases hblank
  have hupper : upper t = front ++ upper (trim t) ++ back := by
    conv_lhs => rw [ht]
    rw [upper_append, upper_append, hraised hfront, hraised hback]
  rw [hupper, infix_append_iff_of_disjoint_right (hdisjoint hback),
    infix_append_iff_of_disjoint (hdisjoint hfront)]

/-- The names in a list, without the white space around them. -/
def entries (t : Text) : List Text := (split ',' t).map trim

/-- In whatever case a text is written, a part of it that has neither commas nor white space stands
in one of its entries. -/
theorem infix_upper_iff_exists_mem_entries {part : Text} (hcomma : ',' ∉ part)
    (hblank : ∀ c ∈ part, isBlank c = false) (t : Text) :
    part <:+: upper t ↔ ∃ entry ∈ entries t, part <:+: upper entry := by
  have hraised : IsRaised ',' := by decide
  have hne : (split ',' t).map upper ≠ [] := by
    rw [Ne, List.map_eq_nil_iff]
    exact split_ne_nil ',' t
  have hpieces : part <:+: upper t ↔ ∃ piece ∈ split ',' t, part <:+: upper piece := by
    rw [← joined_split ',' t, upper_joined hraised, infix_joined_iff hcomma hne, joined_split]
    simp
  rw [hpieces]
  constructor
  · rintro ⟨piece, hpiece, hpart⟩
    exact ⟨trim piece, List.mem_map_of_mem hpiece, (infix_upper_trim_iff hblank piece).mpr hpart⟩
  · rintro ⟨entry, hentry, hpart⟩
    obtain ⟨piece, hpiece, rfl⟩ := List.mem_map.mp hentry
    exact ⟨piece, hpiece, (infix_upper_trim_iff hblank piece).mp hpart⟩

end SchemaPackage.Text
