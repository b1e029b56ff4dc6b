import SchemaPackage.Index
import SchemaPackage.Proofs.Table.Operations

/-!
The names made up for indexes. A made-up name tells whether the index is a primary key, and which
table it is for; the name of another index tells its number as well. Since the names of tables are
kept in capitals, storing a made-up name loses nothing of that.
-/
namespace SchemaPackage

open Outcome

namespace Text

theorem isDigit_of_mem_decimal {n : Nat} {c : Char} (h : c ∈ decimal n) : c.isDigit = true :=
  Nat.isDigit_of_mem_toDigits (by decide) (by decide) h

theorem isRaised_of_isDigit {c : Char} (h : c.isDigit = true) : IsRaised c := by
  have hdigits : ((List.range 58).all fun n =>
      decide ((Char.ofNat n).isDigit = true → IsRaised (Char.ofNat n))) = true := by
    rfl
  have hcode : c.toNat < 58 := by
    simp only [Char.isDigit, Bool.and_eq_true, decide_eq_true_eq, UInt32.le_iff_toNat_le] at h
    exact Nat.lt_succ_of_le h.2
  have hc := of_decide_eq_true (List.all_eq_true.mp hdigits c.toNat (List.mem_range.mpr hcode))
  rw [Char.ofNat_toNat] at hc
  exact hc h

theorem upper_decimal (n : Nat) : upper (decimal n) = decimal n :=
  upper_of_forall_isRaised fun _ hc => isRaised_of_isDigit (isDigit_of_mem_decimal hc)

theorem decimal_injective : Function.Injective decimal := by
  intro m n h
  calc m = Nat.ofDigitChars 10 (decimal m) 0 := Nat.ofDigitChars_ten_toDigits.symm
    _ = Nat.ofDigitChars 10 (decimal n) 0 := by rw [h]
    _ = n := Nat.ofDigitChars_ten_toDigits

/-- A number ends where something else begins. -/
theorem takeWhile_decimal_append {c : Char} (hc : c.isDigit = false) (n : Nat) (t : Text) :
    (decimal n ++ c :: t).takeWhile Char.isDigit = decimal n := by
  rw [List.takeWhile_append_of_pos fun d hd => isDigit_of_mem_decimal hd,
    List.takeWhile_cons_of_neg (by rw [hc]; exact Bool.false_ne_true), List.append_nil]

theorem decimal_append_inj {c : Char} (hc : c.isDigit = false) {m n : Nat} {s t : Text}
    (h : decimal m ++ c :: s = decimal n ++ c :: t) : m = n ∧ s = t := by
  have hdigits : decimal m = decimal n := by
    rw [← takeWhile_decimal_append hc m s, h, takeWhile_decimal_append hc]
  rw [hdigits] at h
  exact ⟨decimal_injective hdigits, (List.cons.inj (List.append_cancel_left h)).2⟩

end Text

namespace Index

theorem madeUpName_primary (table : Text) (n : Nat) :
    madeUpName .primary table n = 'P' :: 'K' :: '_' :: table := rfl

theorem madeUpName_of_ne_primary {kind : IndexKind} (hkind : kind ≠ .primary) (table : Text)
    (n : Nat) : madeUpName kind table n = 'I' :: (Text.decimal n ++ '_' :: table) := by
  have happend : ∀ digits : Text,
      (("I" : Text) ++ digits) ++ "_" ++ table = 'I' :: (digits ++ '_' :: table) := by
    intro digits
    rw [List.append_assoc]
    rfl
  cases kind with
  | primary => exact absurd rfl hkind
  | unique => exact happend _
  | nonUnique => exact happend _

theorem madeUpName_ne_nil (kind : IndexKind) (table : Text) (n : Nat) :
    madeUpName kind table n ≠ [] := by
  by_cases hkind : kind = .primary
  · rw [hkind, madeUpName_primary]
    exact List.cons_ne_nil _ _
  · rw [madeUpName_of_ne_primary hkind]
    exact List.cons_ne_nil _ _

/-- Raising a made-up name only raises the name of the table in it. -/
theorem upper_madeUpName (kind : IndexKind) (table : Text) (n : Nat) :
    Text.upper (madeUpName kind table n) = madeUpName kind (Text.upper table) n := by
  by_cases hkind : kind = .primary
  · have hfront : Text.upper "PK_" = "PK_" := by rfl
    rw [hkind]
    exact (Text.upper_append "PK_" table).trans (by rw [hfront]; rfl)
  · have hletter : Text.upper ['I'] = ['I'] := by rfl
    have hline : Text.upper ['_'] = ['_'] := by rfl
    rw [madeUpName_of_ne_primary hkind, madeUpName_of_ne_primary hkind,
      ← List.singleton_append, ← List.singleton_append (l := table), Text.upper_append,
      Text.upper_append, Text.upper_append, hletter, hline, Text.upper_decimal]
    rfl

/-- Made-up names are the same only for the same table, and then for primary keys, or for two
other indexes of the same number. -/
theorem madeUpName_eq_iff {k l : IndexKind} {s t : Text} {m n : Nat} :
    madeUpName k s m = madeUpName l t n ↔
      s = t ∧ (k = .primary ∧ l = .primary ∨ k ≠ .primary ∧ l ≠ .primary ∧ m = n) := by
  by_cases hk : k = .primary
  · by_cases hl : l = .primary
    · rw [hk, hl, madeUpName_primary, madeUpName_primary]
      simp
    · rw [hk, madeUpName_primary, madeUpName_of_ne_primary hl]
      simp [hl]
  · by_cases hl : l = .primary
    · rw [hl, madeUpName_primary, madeUpName_of_ne_primary hk]
      simp [hk]
    · rw [madeUpName_of_ne_primary hk, madeUpName_of_ne_primary hl]
      constructor
      · intro h
        obtain ⟨hnumber, htable⟩ := Text.decimal_append_inj rfl (List.cons.inj h).2
        exact ⟨htable, Or.inr ⟨hk, hl, hnumber⟩⟩
      · rintro ⟨rfl, ⟨hprimary, _⟩ | ⟨_, _, rfl⟩⟩
        · exact absurd hprimary hk
        · rfl

/-- What is stored is the name that the table has in capitals gives. -/
theorem name_of_autoName {i j : Index} {table : Text} {n : Nat}
    (h : i.autoName table n = .ok j) :
    j.name = some (madeUpName i.kind (Text.upper table) n) := by
  obtain ⟨name, hname, rfl⟩ := except_map_eq_ok_iff.mp h
  obtain ⟨_, _, rfl⟩ := normalizeName_eq_ok_iff.mp hname
  show some (Text.upper (madeUpName i.kind table n)) = _
  rw [upper_madeUpName]

/-- Two indexes that are named this way are named alike only on the same table, and then as
primary keys, or as two other indexes of the same number. -/
theorem eq_names_of_autoName_iff {i j i' j' : Index} {s t : Text} {m n : Nat}
    (hs : Text.upper s = s) (ht : Text.upper t = t) (hi : i.autoName s m = .ok i')
    (hj : j.autoName t n = .ok j') :
    ∃ a b, i'.name = some a ∧ j'.name = some b ∧
      (a = b ↔ s = t ∧ (i.kind = .primary ∧ j.kind = .primary ∨
        i.kind ≠ .primary ∧ j.kind ≠ .primary ∧ m = n)) := by
  have ha := name_of_autoName hi
  have hb := name_of_autoName hj
  rw [hs] at ha
  rw [ht] at hb
  exact ⟨_, _, ha, hb, madeUpName_eq_iff⟩

theorem eq_names_of_autoName_digits :
    ({} : Index).autoName "1_A" 1 = .ok { name := some "I1_1_A" } ∧
      ({ kind := .unique } : Index).autoName "A" 11 =
        .ok { kind := .unique, name := some "I11_A" } ∧
      ∃ a b : Text, some ("I1_1_A" : Text) = some a ∧ some ("I11_A" : Text) = some b ∧
        (a = b ↔ ("1_A" : Text) = "A" ∧
          (IndexKind.nonUnique = .primary ∧ IndexKind.unique = .primary ∨
            IndexKind.nonUnique ≠ .primary ∧ IndexKind.unique ≠ .primary ∧ 1 = 11)) := by
  have hfirst : ({} : Index).autoName "1_A" 1 = .ok { name := some "I1_1_A" } := by rfl
  have hsecond : ({ kind := .unique } : Index).autoName "A" 11 =
      .ok { kind := .unique, name := some "I11_A" } := by rfl
  have hupper : Text.upper "1_A" = "1_A" := by rfl
  exact ⟨hfirst, hsecond, eq_names_of_autoName_iff hupper rfl hfirst hsecond⟩

end Index

end SchemaPackage
