/-!
Texts are lists of characters, so a rule about texts is a rule about lists. Literals are written
as strings and become texts where one is expected.
-/
namespace SchemaPackage

abbrev Text := List Char

instance : Coe String Text := ⟨String.toList⟩

namespace Text

/-- The length of a text in UTF-8. -/
def byteLength (t : Text) : Nat := (String.ofList t).utf8ByteSize

/-- What follows `front` in a sequence that begins with it. -/
def after? {α : Type} [DecidableEq α] : List α → List α → Option (List α)
  | [], rest => some rest
  | f :: front, c :: rest => if f = c then after? front rest else none
  | _ :: _, [] => none

def beginsWith (front t : Text) : Bool := (after? front t).isSome

def endsWith (ending t : Text) : Bool := beginsWith ending.reverse t.reverse

/-- The text occurs somewhere in the longer one. -/
def occursIn (part : Text) : Text → Bool
  | [] => part.isEmpty
  | c :: rest => beginsWith part (c :: rest) || occursIn part rest

/-- The pieces between the occurrences of a character: one more than there are of them. -/
def split (sep : Char) : Text → List Text
  | [] => [[]]
  | c :: rest =>
    if c = sep then [] :: split sep rest
    else match split sep rest with
      | [] => [[c]]
      | piece :: more => (c :: piece) :: more

/-- The texts on end, with `sep` between them. -/
def joined (sep : Text) : List Text → Text
  | [] => []
  | [t] => t
  | t :: rest => t ++ sep ++ joined sep rest

/-- The text, unless the condition fails. -/
def onlyIf (condition : Bool) (t : Text) : Text := if condition then t else []

end Text

end SchemaPackage
