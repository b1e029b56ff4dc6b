import SchemaPackage.Proofs.Disk.Listings

/-!
Literals of statements. In a statement a text stands between single quotes, and its own single
quotes are doubled. A reader goes on to the first single quote that is not followed by another one,
so it gets the text back whatever comes behind the literal, other than one more single quote.
-/
namespace SchemaPackage.Text

/-- The text with each single quote written twice. -/
def doubled : Text → Text
  | [] => []
  | c :: rest => if c = '\'' then c :: c :: doubled rest else c :: doubled rest

/-- The literal that denotes a text. -/
def literal (t : Text) : Text := '\'' :: (doubled t ++ ['\''])

theorem length_doubled (t : Text) : (doubled t).length = t.length + t.count '\'' := by
  induction t with
  | nil => simp [doubled]
  | cons c rest ih =>
    by_cases hc : c = '\''
    · simp [doubled, hc, ih]
      omega
    · simp [doubled, hc, ih]
      omega

theorem doubled_eq_self_iff {t : Text} : doubled t = t ↔ '\'' ∉ t := by
  constructor
  · intro h
    have hlength := length_doubled t
    rw [h] at hlength
    apply List.count_eq_zero.mp
    omega
  · intro h
    induction t with
    | nil => simp [doubled]
    | cons c rest ih =>
      simp only [List.mem_cons, not_or] at h
      simp [doubled, Ne.symm h.1, ih h.2]

/-- Doubling leaves the characters at both ends. -/
theorem head?_doubled (t : Text) : (doubled t).head? = t.head? := by
  cases t with
  | nil => simp [doubled]
  | cons c rest => by_cases hc : c = '\'' <;> simp [doubled, hc]

theorem getLast?_doubled (t : Text) : (doubled t).getLast? = t.getLast? := by
  induction t with
  | nil => simp [doubled]
  | cons c rest ih => by_cases hc : c = '\'' <;> simp [doubled, hc, List.getLast?_cons, ih]

/-- The text up to the quote that closes it, and what is left. -/
def literalBody? : Text → Option (Text × Text)
  | [] => none
  | '\'' :: '\'' :: rest => (literalBody? rest).map fun (x, left) => ('\'' :: x, left)
  | '\'' :: rest => some ([], rest)
  | c :: rest => (literalBody? rest).map fun (x, left) => (c :: x, left)

/-- The text that a literal denotes, and what is left behind it. -/
def literal? : Text → Option (Text × Text)
  | '\'' :: rest => literalBody? rest
  | _ => none

theorem literalBody?_doubled {rest : Text} (hrest : rest.head? ≠ some '\'') (x : Text) :
    literalBody? (doubled x ++ '\'' :: rest) = some (x, rest) := by
  induction x with
  | nil =>
    show literalBody? ('\'' :: rest) = some ([], rest)
    cases rest with
    | nil => simp [literalBody?]
    | cons c rest =>
      have hc : c ≠ '\'' := by simpa using hrest
      rw [literalBody?.eq_3]
      simp [hc]
  | cons c x ih =>
    by_cases hc : c = '\''
    · simp [doubled, hc, literalBody?, ih]
    · rw [doubled, if_neg hc, List.cons_append, literalBody?.eq_4]
      · simp [ih]
      · simp [hc]
      · simp [hc]

theorem eq_of_literalBody? {s x rest : Text} (h : literalBody? s = some (x, rest)) :
    s = doubled x ++ '\'' :: rest ∧ rest.head? ≠ some '\'' := by
  fun_induction literalBody? s generalizing x with
  | case1 => cases h
  | case2 left ih =>
    obtain ⟨⟨y, left⟩, hread, hpair⟩ := Option.map_eq_some_iff.mp h
    cases hpair
    obtain ⟨rfl, hrest⟩ := ih hread
    exact ⟨by simp [doubled], hrest⟩
  | case3 left hnext =>
    cases h
    refine ⟨by simp [doubled], fun hhead => ?_⟩
    obtain ⟨more, rfl⟩ := List.head?_eq_some_iff.mp hhead
    exact hnext more rfl
  | case4 c left hnext hquote ih =>
    obtain ⟨⟨y, left⟩, hread, hpair⟩ := Option.map_eq_some_iff.mp h
    cases hpair
    obtain ⟨rfl, hrest⟩ := ih hread
    have hc : c ≠ '\'' := fun hc => hquote hc
    exact ⟨by simp [doubled, hc], hrest⟩

/-- A literal is read as the text that it denotes, and nothing else is read. -/
theorem literal?_eq_some_iff {s x rest : Text} :
    literal? s = some (x, rest) ↔ s = literal x ++ rest ∧ rest.head? ≠ some '\'' := by
  have hshape : literal x ++ rest = '\'' :: (doubled x ++ '\'' :: rest) := by simp [literal]
  rw [hshape]
  constructor
  · intro h
    unfold literal? at h
    split at h
    · obtain ⟨rfl, hrest⟩ := eq_of_literalBody? h
      exact ⟨rfl, hrest⟩
    · cases h
  · rintro ⟨rfl, hrest⟩
    exact literalBody?_doubled hrest x

end SchemaPackage.Text
