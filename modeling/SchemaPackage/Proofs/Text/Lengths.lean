import SchemaPackage.Proofs.Text.Upper

/-!
The lengths of texts in UTF-8, and what raising does to them. A character may take more bytes once
it is raised, but no more than three times as many.
-/
namespace SchemaPackage.Text

theorem byteLength_append (s t : Text) :
    (s ++ t).byteLength = s.byteLength + t.byteLength := by
  rw [byteLength, String.ofList_append, String.utf8ByteSize_append]
  rfl

theorem byteLength_cons (c : Char) (t : Text) :
    byteLength (c :: t) = c.utf8Size + t.byteLength := by
  rw [byteLength, String.ofList_cons, String.utf8ByteSize_append, String.utf8ByteSize_singleton]
  rfl

theorem byteLength_singleton (c : Char) : byteLength [c] = c.utf8Size := byteLength_cons c []

theorem byteLength_le_of_suffix {s t : Text} (h : s <:+ t) : s.byteLength ≤ t.byteLength := by
  obtain ⟨front, rfl⟩ := h
  rw [byteLength_append]
  omega

theorem length_le_byteLength (t : Text) : t.length ≤ t.byteLength := by
  induction t with
  | nil => simp
  | cons c rest ih =>
    have hpos := c.utf8Size_pos
    rw [byteLength_cons, List.length_cons]
    omega

/-- The upper case of the character takes more bytes than the character. -/
def Grows (c : Char) : Prop := c.utf8Size < (upperChar c).byteLength

instance (c : Char) : Decidable (Grows c) := inferInstanceAs (Decidable (_ < _))

theorem byteLength_toUpper_ascii :
    ((List.range 128).all fun n =>
      decide (Char.utf8Size (Char.ofNat n).toUpper = (Char.ofNat n).utf8Size)) = true := by
  decide +kernel

theorem byteLength_upperSequences :
    (upperSequences.all fun entry => Nat.ble (byteLength (entry.2.map Char.ofNat))
      (3 * (Char.ofNat entry.1).utf8Size)) = true := by
  decide +kernel

/-- Beyond ASCII a character has two bytes at least, and none has more than four. -/
theorem utf8Size_le_of_beyond {c : Char} (h : ¬ c.toNat < 128) (d : Char) :
    d.utf8Size ≤ 3 * c.utf8Size := by
  have hone : c.utf8Size ≠ 1 := by
    intro h1
    rw [Char.utf8Size_eq_one_iff, UInt32.le_iff_toNat_le] at h1
    exact h (Nat.lt_succ_of_le h1)
  have hpos := c.utf8Size_pos
  have hfour := d.utf8Size_le_four
  omega

theorem byteLength_upperChar_le (c : Char) : (upperChar c).byteLength ≤ 3 * c.utf8Size := by
  rcases upperChar_cases c with
    ⟨hascii, hc⟩ | ⟨hascii, ⟨r, _, _, hc⟩ | ⟨codes, hentry, hc⟩ | hc⟩
  · have hall := List.all_eq_true.mp byteLength_toUpper_ascii c.toNat (List.mem_range.mpr hascii)
    rw [decide_eq_true_eq, Char.ofNat_toNat] at hall
    rw [hc, byteLength_singleton, hall]
    omega
  · rw [hc, byteLength_singleton]
    exact utf8Size_le_of_beyond hascii _
  · have hall := List.all_eq_true.mp byteLength_upperSequences _ hentry
    rw [Nat.ble_eq, Char.ofNat_toNat] at hall
    rw [hc]
    exact hall
  · rw [hc, byteLength_singleton]
    exact utf8Size_le_of_beyond hascii c

theorem upper_cons (c : Char) (t : Text) : upper (c :: t) = upperChar c ++ upper t :=
  List.flatMap_cons

theorem byteLength_upper_le (t : Text) : (upper t).byteLength ≤ 3 * t.byteLength := by
  induction t with
  | nil => exact Nat.zero_le _
  | cons c rest ih =>
    have hc := byteLength_upperChar_le c
    rw [upper_cons, byteLength_append, byteLength_cons]
    omega

/-- A text grows only by characters that do. -/
theorem byteLength_upper_le_of_forall {t : Text} (h : ∀ c ∈ t, ¬ Grows c) :
    (upper t).byteLength ≤ t.byteLength := by
  induction t with
  | nil => exact Nat.le_refl _
  | cons c rest ih =>
    have hc : (upperChar c).byteLength ≤ c.utf8Size := Nat.not_lt.mp (h c List.mem_cons_self)
    have hrest := ih fun d hd => h d (List.mem_cons_of_mem _ hd)
    rw [upper_cons, byteLength_append, byteLength_cons]
    omega

/-- The bound is reached: two bytes become six. -/
example : byteLength [Char.ofNat 0x390] = 2 ∧ (upper [Char.ofNat 0x390]).byteLength = 6 := by
  decide +kernel

end SchemaPackage.Text
