import SchemaPackage.Text
import SchemaPackage.Text.CaseContext
import SchemaPackage.Text.CaseTable

/-!
Upper and lower case of whole texts. A character may turn into several, so a text can grow;
only the capital sigma looks at its neighbours, since it has another form at the end of a word.
-/
namespace SchemaPackage.Text

def upperChar (c : Char) : Text :=
  if c.toNat < 128 then [c.toUpper]
  else match upperRuns.find? (·.covers c.toNat) with
    | some run => [Char.ofNat (run.map c.toNat)]
    | none => match upperSequences.lookup c.toNat with
      | some codes => codes.map Char.ofNat
      | none => [c]

def upper (t : Text) : Text := t.flatMap upperChar

/-- The lower-case form that does not depend on the neighbours. -/
def lowerChar (c : Char) : Text :=
  if c.toNat < 128 then [c.toLower]
  else if c = 'İ' then ['i', '\u0307']
  else match lowerRuns.find? (·.covers c.toNat) with
    | some run => [Char.ofNat (run.map c.toNat)]
    | none => [c]

/-- Once ignorable marks are passed over, a letter with case comes next. -/
def meetsCased (t : Text) : Bool :=
  match t.dropWhile isCaseIgnorable with
  | c :: _ => isCased c
  | [] => false

/-- The sigma at the end of a word follows a letter and precedes none. -/
def lowerSigma (before after : Text) : Char :=
  if meetsCased before && !meetsCased after then 'ς' else 'σ'

/-- Lower-cases a text whose earlier part, nearest character first, is `before`. -/
def lowerFrom (before : Text) : Text → Text
  | [] => []
  | c :: after =>
    (if c = 'Σ' then [lowerSigma before after] else lowerChar c) ++ lowerFrom (c :: before) after

def lower (t : Text) : Text := lowerFrom [] t

/-- Equality up to the case of ASCII letters. -/
def sameUpToCase (s t : Text) : Bool := s.map Char.toLower == t.map Char.toLower

end SchemaPackage.Text
