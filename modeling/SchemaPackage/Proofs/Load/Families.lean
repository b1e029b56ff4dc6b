import Mathlib.Data.List.Forall2
import Mathlib.Data.List.Nodup
import SchemaPackage.LoadClause
import SchemaPackage.Proofs.Disk.Listings
import SchemaPackage.Proofs.Text.Edges

/-!
The families of data types, told apart by how a type is written. A type of a family is one of the
family's names with what may follow it. No name of one family begins a name of another, so a text is
a type of one family at most, and the tests for the families give the same answer in any order.
-/
namespace SchemaPackage

open Text

namespace Text

theorem digitZeros_apart_blankRanges :
    (digitZeros.all fun z => blankRanges.all fun b => Nat.blt (z + 9) b.1 || Nat.blt b.2 z) =
      true := by
  decide +kernel

theorem isBlank_eq_false_of_isDecimalDigit {c : Char} (h : isDecimalDigit c = true) :
    isBlank c = false := by
  obtain ⟨z, hz, hc⟩ := List.any_eq_true.mp h
  rw [isBlank, Ranges.includes, List.any_eq_false]
  intro b hb
  have hapart := List.all_eq_true.mp (List.all_eq_true.mp digitZeros_apart_blankRanges z hz) b hb
  simp only [Bool.and_eq_true, Bool.or_eq_true, Nat.ble_eq, Nat.blt_eq] at hc hapart ⊢
  omega

end Text

namespace TypeFamily

variable {t size : Text} {family other : TypeFamily}

/-- White space, or nothing. -/
def IsGap (t : Text) : Prop := ∀ c ∈ t, isBlank c = true

instance : Decidable (IsGap t) := decidable_of_iff (t.all isBlank = true) List.all_eq_true

theorem exists_gap (t : Text) : ∃ gap, IsGap gap ∧ t = gap ++ t.dropWhile isBlank :=
  ⟨t.takeWhile isBlank, fun _ hc => List.mem_takeWhile_imp hc,
    List.takeWhile_append_dropWhile.symm⟩

/-- The text begins with a size in parentheses, with white space anywhere around its parts. -/
inductive BeginsWithSize (size : Text) : Text → Prop
  | intro {gap lead trail : Text} (hgap : IsGap gap) (hlead : IsGap lead) (htrail : IsGap trail)
    (hne : size ≠ []) (hdigits : ∀ c ∈ size, isDecimalDigit c = true) (rest : Text) :
    BeginsWithSize size (gap ++ '(' :: (lead ++ (size ++ (trail ++ ')' :: rest))))

theorem beginsWithSize_of_size? (h : size? t = some size) : BeginsWithSize size t := by
  unfold size? at h
  split at h
  next inner hopen =>
    dsimp only at h
    split at h
    next d digits rest hsize hclose =>
      cases h
      obtain ⟨gap, hgap, ht⟩ := exists_gap t
      obtain ⟨lead, hlead, hinner⟩ := exists_gap inner
      obtain ⟨trail, htrail, hafter⟩ :=
        exists_gap ((inner.dropWhile isBlank).dropWhile isDecimalDigit)
      have hdigits : ∀ c ∈ d :: digits, isDecimalDigit c = true := by
        rw [← hsize]
        exact fun c hc => List.mem_takeWhile_imp hc
      have hsplit : inner.dropWhile isBlank = d :: digits ++ (trail ++ ')' :: rest) := by
        rw [← hclose, ← hafter, ← hsize, List.takeWhile_append_dropWhile]
      rw [ht, hopen, hinner, hsplit]
      exact .intro hgap hlead htrail (List.cons_ne_nil d digits) hdigits rest
    next => cases h
  next => cases h

theorem size?_of_beginsWithSize (h : BeginsWithSize size t) : size? t = some size := by
  obtain @⟨gap, lead, trail, hgap, hlead, htrail, hne, hdigits, rest⟩ := h
  obtain ⟨d, digits, rfl⟩ := List.exists_cons_of_ne_nil hne
  have hdigit : isBlank d = false :=
    isBlank_eq_false_of_isDecimalDigit (hdigits d List.mem_cons_self)
  -- the digits end at the white space behind them, or else at the closing parenthesis
  obtain ⟨c, more, hmore, hc⟩ : ∃ c more, trail ++ ')' :: rest = c :: more ∧
      isDecimalDigit c = false := by
    cases trail with
    | nil => exact ⟨')', rest, rfl, by decide⟩
    | cons c trail =>
      refine ⟨c, trail ++ ')' :: rest, rfl, ?_⟩
      by_contra hc
      rw [Bool.not_eq_false] at hc
      have hblank := htrail c List.mem_cons_self
      rw [isBlank_eq_false_of_isDecimalDigit hc] at hblank
      cases hblank
  have hopen : isBlank '(' = false := by decide
  have hclose : isBlank ')' = false := by decide
  have hinner : (lead ++ (d :: digits ++ (trail ++ ')' :: rest))).dropWhile isBlank =
      d :: digits ++ c :: more := by
    rw [← hmore]
    exact dropWhile_append_cons hlead hdigit _
  have hend : (c :: more).dropWhile isBlank = ')' :: rest := by
    rw [← hmore]
    exact dropWhile_append_cons htrail hclose rest
  simp only [size?, dropWhile_append_cons hgap hopen, hinner, takeWhile_append_cons hdigits hc,
    dropWhile_append_cons hdigits hc, hend]

theorem size?_eq_some_iff : size? t = some size ↔ BeginsWithSize size t :=
  ⟨beginsWithSize_of_size?, size?_of_beginsWithSize⟩

/-- The names of the data types of a family. -/
def names : TypeFamily → List Text
  | sized _ => ["CHAR", "VARCHAR", "VARCHAR2", "NVARCHAR", "NVARCHAR2"]
  | number => ["NUMBER", "INTEGER", "DECIMAL", "FLOAT"]
  | date => ["DATE"]
  | timestamp => ["TIMESTAMP"]
  | large => ["CLOB", "LONG", "XMLTYPE"]
  | rowAddress => ["ROWID", "UROWID"]
  | binary => ["RAW"]

/-- What may follow the name: the size, anything, or nothing. -/
def Allows : TypeFamily → Text → Prop
  | sized size, rest => BeginsWithSize size rest
  | binary, rest => ∃ size, BeginsWithSize size rest
  | number, _ => True
  | timestamp, _ => True
  | date, rest => rest = []
  | large, rest => rest = []
  | rowAddress, rest => rest = []

/-- The text writes a data type of the family. -/
def Covers (family : TypeFamily) (t : Text) : Prop :=
  ∃ name ∈ family.names, ∃ rest, t = name ++ rest ∧ family.Allows rest

/-- The family, whatever the size. -/
def unsized : TypeFamily → TypeFamily
  | sized _ => sized []
  | family => family

def all : List TypeFamily := [sized [], number, date, timestamp, large, rowAddress, binary]

theorem unsized_mem_all (family : TypeFamily) : family.unsized ∈ all := by
  cases family <;> simp [unsized, all]

theorem names_unsized (family : TypeFamily) : family.unsized.names = family.names := by
  cases family <;> rfl

/-- One name begins another in the same family only, and there by a final 2. -/
theorem names_apart : ∀ f ∈ all, ∀ g ∈ all, ∀ name ∈ f.names, ∀ longer ∈ g.names,
    name <+: longer → f = g ∧ (name = longer ∨ f = sized [] ∧ longer = name ++ "2") := by
  decide

/-- What follows a name cannot begin like a longer name. -/
theorem not_beginsWithSize_two : ¬ BeginsWithSize size ('2' :: t) := by
  intro h
  have hsize := size?_of_beginsWithSize h
  cases hsize

theorem Covers.unique_of_begins {name longer rest more : Text} (hname : name ∈ family.names)
    (hlonger : longer ∈ other.names) (hbegins : name <+: longer)
    (heq : name ++ rest = longer ++ more) (hrest : family.Allows rest) (hmore : other.Allows more) :
    family = other := by
  obtain ⟨hsame, hnames⟩ := names_apart _ family.unsized_mem_all _ other.unsized_mem_all name
    (family.names_unsized ▸ hname) longer (other.names_unsized ▸ hlonger) hbegins
  rcases hnames with rfl | ⟨hsized, rfl⟩
  · obtain rfl := List.append_cancel_left heq
    cases family with
    | sized size =>
      cases other with
      | sized size' =>
        have hsize := size?_of_beginsWithSize hrest
        rw [size?_of_beginsWithSize hmore] at hsize
        rw [Option.some.inj hsize]
      | _ => cases hsame
    | _ =>
      cases other with
      | sized size => cases hsame
      | _ => exact hsame
  · rw [List.append_assoc] at heq
    obtain rfl := List.append_cancel_left heq
    cases family with
    | sized size => exact absurd hrest not_beginsWithSize_two
    | _ => cases hsized

/-- A text is a type of one family at most. -/
theorem Covers.unique (hfamily : family.Covers t) (hother : other.Covers t) : family = other := by
  obtain ⟨name, hname, rest, rfl, hrest⟩ := hfamily
  obtain ⟨name', hname', rest', heq, hrest'⟩ := hother
  rcases List.prefix_or_prefix_of_prefix (List.prefix_append name rest)
    (heq ▸ List.prefix_append name' rest') with hbegins | hbegins
  · exact unique_of_begins hname hname' hbegins heq hrest hrest'
  · exact (unique_of_begins hname' hname hbegins heq.symm hrest' hrest).symm

/-- The test finds the family where a text writes a type of it, and nothing anywhere else. -/
def IsTestFor (test : Text → Option TypeFamily) (family : TypeFamily) : Prop :=
  ∀ t found, test t = some found ↔ found.unsized = family ∧ found.Covers t

theorem sizeAfter?_eq_some_iff {name : Text} :
    sizeAfter? t name = some size ↔ ∃ rest, t = name ++ rest ∧ BeginsWithSize size rest := by
  simp only [sizeAfter?, Option.bind_eq_some_iff, after?_eq_some, size?_eq_some_iff]

theorem isTestFor_sized? : IsTestFor sized? (sized []) := by
  have hcovers : ∀ {t size}, sizedNames.findSome? (sizeAfter? t) = some size →
      (sized size).Covers t := by
    intro t size h
    obtain ⟨name, hname, hsize⟩ := List.exists_of_findSome?_eq_some h
    exact ⟨name, hname, sizeAfter?_eq_some_iff.mp hsize⟩
  intro t found
  rw [sized?, Option.map_eq_some_iff]
  constructor
  · rintro ⟨size, hsize, rfl⟩
    exact ⟨rfl, hcovers hsize⟩
  · rintro ⟨hsized, hfound⟩
    cases found with
    | sized size =>
      obtain ⟨name, hname, hrest⟩ := id hfound
      have hsome : (sizedNames.findSome? (sizeAfter? t)).isSome = true := by
        rw [List.findSome?_isSome_iff]
        exact ⟨name, hname, by rw [sizeAfter?_eq_some_iff.mpr hrest]; rfl⟩
      obtain ⟨size', hsize'⟩ := Option.isSome_iff_exists.mp hsome
      exact ⟨size', hsize', (hcovers hsize').unique hfound⟩
    | _ => cases hsized

theorem unsized_eq_iff (hfamily : ∀ size, family ≠ sized size) :
    other.unsized = family ↔ other = family := by
  cases other with
  | sized size => exact ⟨fun h => absurd h.symm (hfamily []), fun h => absurd h.symm (hfamily size)⟩
  | _ => exact Iff.rfl

/-- A test for a family without sizes needs to look for its types only. -/
theorem isTestFor_of_iff {test : Text → Option TypeFamily} (hfamily : ∀ size, family ≠ sized size)
    (h : ∀ t found, test t = some found ↔ family.Covers t ∧ found = family) :
    IsTestFor test family := by
  intro t found
  rw [h, unsized_eq_iff hfamily]
  constructor
  · rintro ⟨hcovers, rfl⟩
    exact ⟨rfl, hcovers⟩
  · rintro ⟨rfl, hcovers⟩
    exact ⟨hcovers, rfl⟩

theorem ite_some_eq_some_iff {condition : Prop} [Decidable condition] {found : TypeFamily} :
    (if condition then some family else none) = some found ↔ condition ∧ found = family := by
  split
  next h => simp [h, eq_comm]
  next h => simp [h]

theorem beginsWith_iff_exists {name : Text} :
    beginsWith name t = true ↔ ∃ rest, t = name ++ rest := by
  rw [beginsWith, Option.isSome_iff_exists]
  simp only [after?_eq_some]

theorem isTestFor_number? : IsTestFor number? number := by
  refine isTestFor_of_iff (fun _ h => nomatch h) fun t found => ?_
  rw [number?, ite_some_eq_some_iff, List.any_eq_true]
  simp only [beginsWith_iff_exists, Covers, Allows, and_true]
  rfl

theorem isTestFor_date? : IsTestFor date? date := by
  refine isTestFor_of_iff (fun _ h => nomatch h) fun t found => ?_
  rw [date?, ite_some_eq_some_iff, beq_iff_eq]
  simp [Covers, Allows, names]

theorem isTestFor_timestamp? : IsTestFor timestamp? timestamp := by
  refine isTestFor_of_iff (fun _ h => nomatch h) fun t found => ?_
  rw [timestamp?, ite_some_eq_some_iff, beginsWith_iff_exists]
  simp [Covers, Allows, names]

theorem isTestFor_large? : IsTestFor large? large := by
  refine isTestFor_of_iff (fun _ h => nomatch h) fun t found => ?_
  rw [large?, ite_some_eq_some_iff, List.contains_iff_mem]
  simp [Covers, Allows, names, largeNames]

theorem isTestFor_rowAddress? : IsTestFor rowAddress? rowAddress := by
  refine isTestFor_of_iff (fun _ h => nomatch h) fun t found => ?_
  rw [rowAddress?, ite_some_eq_some_iff, List.contains_iff_mem]
  simp [Covers, Allows, names, rowAddressNames]

theorem isTestFor_binary? : IsTestFor binary? binary := by
  refine isTestFor_of_iff (fun _ h => nomatch h) fun t found => ?_
  simp only [binary?, Option.map_eq_some_iff, sizeAfter?_eq_some_iff]
  constructor
  · rintro ⟨size, ⟨rest, rfl, hsize⟩, rfl⟩
    exact ⟨⟨"RAW", List.mem_singleton_self _, rest, rfl, size, hsize⟩, rfl⟩
  · rintro ⟨⟨name, hname, rest, rfl, size, hsize⟩, rfl⟩
    obtain rfl := List.mem_singleton.mp hname
    exact ⟨size, ⟨rest, rfl, hsize⟩, rfl⟩

/-- There is a test for each family. -/
theorem isTestFor_tests : List.Forall₂ IsTestFor tests all :=
  .cons isTestFor_sized? <| .cons isTestFor_number? <| .cons isTestFor_date? <|
    .cons isTestFor_timestamp? <| .cons isTestFor_large? <| .cons isTestFor_rowAddress? <|
      .cons isTestFor_binary? .nil

section Findings

variable {l : List (Text → Option TypeFamily)} {families : List TypeFamily}

/-- Different tests find different families. -/
theorem map_unsized_sublist (h : List.Forall₂ IsTestFor l families) (t : Text) :
    ((l.filterMap (· t)).map unsized).Sublist families := by
  induction h with
  | nil => exact List.Sublist.refl []
  | @cons test family _ _ htest _ ih =>
    cases hfound : test t with
    | none =>
      simp only [List.filterMap_cons, hfound]
      exact ih.cons family
    | some found =>
      simp only [List.filterMap_cons, hfound, List.map_cons]
      rw [((htest t found).mp hfound).1]
      exact ih.cons_cons family

theorem mem_filterMap_iff (h : List.Forall₂ IsTestFor l families) :
    family ∈ l.filterMap (· t) ↔ family.unsized ∈ families ∧ family.Covers t := by
  induction h with
  | nil => simp
  | @cons test g _ _ htest _ ih =>
    rw [List.mem_filterMap] at ih ⊢
    rw [List.exists_mem_cons_iff, ih, htest, List.mem_cons, or_and_right]

end Findings

/-- One test at most finds something, and it does where a text is a type of some family. -/
theorem filterMap_tests_cases (t : Text) :
    tests.filterMap (· t) = [] ∧ (∀ family : TypeFamily, ¬ family.Covers t) ∨
      ∃ family : TypeFamily, tests.filterMap (· t) = [family] ∧ family.Covers t := by
  have hmem : ∀ family : TypeFamily, family ∈ tests.filterMap (· t) ↔ family.Covers t := by
    intro family
    rw [mem_filterMap_iff isTestFor_tests]
    exact and_iff_right family.unsized_mem_all
  have hnodup : (tests.filterMap (· t)).Nodup :=
    ((show all.Nodup by decide).sublist (map_unsized_sublist isTestFor_tests t)).of_map
  generalize tests.filterMap (· t) = found at hmem hnodup ⊢
  match found with
  | [] => exact Or.inl ⟨rfl, fun family hfamily => List.not_mem_nil ((hmem family).mpr hfamily)⟩
  | [family] => exact Or.inr ⟨family, rfl, (hmem family).mp (List.mem_singleton_self family)⟩
  | family :: other :: more =>
    have hsame := ((hmem family).mp List.mem_cons_self).unique
      ((hmem other).mp (List.mem_cons_of_mem _ List.mem_cons_self))
    rw [hsame, List.nodup_cons] at hnodup
    exact absurd List.mem_cons_self hnodup.1

theorem countP_tests_le_one (t : Text) : tests.countP (fun test => (test t).isSome) ≤ 1 := by
  rw [← List.length_filterMap_eq_countP]
  rcases filterMap_tests_cases t with ⟨hnone, _⟩ | ⟨family, hone, _⟩
  · rw [hnone]
    exact Nat.zero_le 1
  · rw [hone]
    exact Nat.le_refl 1

/-- The tests may be made in any order. -/
theorem findSome?_eq_of_perm {others : List (Text → Option TypeFamily)} (h : others.Perm tests)
    (t : Text) : others.findSome? (· t) = tests.findSome? (· t) := by
  have hperm := h.filterMap (· t)
  rw [← List.head?_filterMap, ← List.head?_filterMap]
  rcases filterMap_tests_cases t with ⟨hnone, _⟩ | ⟨family, hone, _⟩
  · rw [hnone] at hperm ⊢
    rw [hperm.eq_nil]
  · rw [hone] at hperm ⊢
    rw [hperm.eq_singleton]

theorem ofType?_eq_some_iff {dataType : Text} :
    ofType? dataType = some family ↔ family.Covers (trim dataType) := by
  rw [ofType?, ← List.head?_filterMap]
  rcases filterMap_tests_cases (trim dataType) with ⟨hnone, hcovers⟩ | ⟨found, hone, hcovers⟩
  · rw [hnone]
    simp [hcovers family]
  · rw [hone, List.head?_cons, Option.some.injEq]
    constructor
    · rintro rfl
      exact hcovers
    · exact hcovers.unique

end TypeFamily

/-- The clause for a column follows from the family that its type is written as, blanks around it
aside. Of the seven tests one succeeds at most, so that they give the same clause in any order. There
is a clause exactly if the type is one of some family, and it is the clause of that family, which is
the only one. -/
theorem loadClause?_eq_some_iff (column dataType : Text) :
    TypeFamily.tests.countP (fun test => (test (trim dataType)).isSome) ≤ 1 ∧
      (∀ others : List (Text → Option TypeFamily), others.Perm TypeFamily.tests →
        (others.findSome? (· (trim dataType))).map (·.clause column) =
          loadClause? column dataType) ∧
      (∀ clause, loadClause? column dataType = some clause ↔
        ∃ family : TypeFamily, family.Covers (trim dataType) ∧ clause = family.clause column) ∧
      ∀ family other : TypeFamily, family.Covers (trim dataType) → other.Covers (trim dataType) →
        family = other := by
  refine ⟨TypeFamily.countP_tests_le_one _, fun others hothers => ?_, fun clause => ?_,
    fun _ _ hfamily hother => hfamily.unique hother⟩
  · rw [TypeFamily.findSome?_eq_of_perm hothers]
    rfl
  · rw [loadClause?, Option.map_eq_some_iff]
    simp only [TypeFamily.ofType?_eq_some_iff, eq_comm (a := clause)]

example : loadClause? "CODE" " NVARCHAR2 ( 20 ) " = some ",CODE CHAR(20) \"TO_CHAR(:CODE)\"" := by
  decide

example : loadClause? "CODE" "NVARCHAR" = none := by decide

end SchemaPackage
