import SchemaPackage.Markup.Chars
import SchemaPackage.Text

/-!
The value behind written text: references are replaced by the characters that they stand for,
and line ends are settled. A character that a reference stands for is never taken as a line
end.
-/
namespace SchemaPackage.Markup

inductive Piece
  | plain (c : Char)
  | referenced (c : Char)

namespace Piece

def hexValue? (c : Char) : Option Nat :=
  if '0' ≤ c ∧ c ≤ '9' then some (c.toNat - 48)
  else if 'a' ≤ c ∧ c ≤ 'f' then some (c.toNat - 87)
  else if 'A' ≤ c ∧ c ≤ 'F' then some (c.toNat - 55)
  else none

/-- Reads on from a number whose leading digits give `value`; every digit is below the base. -/
def codeFrom (base value : Nat) : Text → Option Nat
  | [] => some value
  | c :: rest =>
    match hexValue? c with
    | some d => if d < base then codeFrom base (base * value + d) rest else none
    | none => none

/-- The character of a code; a code that belongs to no character gives the replacement
character. -/
def ofCode? (n : Nat) : Option Char :=
  if UInt32.size ≤ n then none
  else
    let c := if h : n.isValidChar then Char.ofNatAux n h else '\uFFFD'
    if isLegal c then some c else none

def entities : List (Text × Char) :=
  [("quot", '"'), ("amp", '&'), ("apos", '\''), ("lt", '<'), ("gt", '>')]

/-- The character that a reference stands for, given what is between its ends. -/
def ofReference? : Text → Option Char
  | '#' :: 'x' :: d :: digits => (codeFrom 16 0 (d :: digits)).bind ofCode?
  | '#' :: d :: digits => (codeFrom 10 0 (d :: digits)).bind ofCode?
  | name => entities.lookup name

/-- A reference without its ampersand, and the text that follows it. -/
def segment? (t : Text) : Option (List Piece) :=
  match t.dropWhile (· != ';') with
  | ';' :: rest =>
    (ofReference? (t.takeWhile (· != ';'))).map fun c => referenced c :: rest.map plain
  | _ => none

def segments? : List Text → Option (List Piece)
  | [] => some []
  | t :: rest =>
    match segment? t with
    | some pieces => (segments? rest).map (pieces ++ ·)
    | none => none

def all? (t : Text) : Option (List Piece) :=
  match Text.split '&' t with
  | [] => some []
  | first :: more => (segments? more).map (first.map plain ++ ·)

def startsLine : List Piece → Bool
  | plain '\n' :: _ => true
  | _ => false

/-- In an attribute, every line end and every other white space counts as one space. -/
def attributeValue : List Piece → Text
  | [] => []
  | referenced c :: rest => c :: attributeValue rest
  | plain c :: rest =>
    if c = '\r' && startsLine rest then attributeValue rest
    else (if isSpace c then ' ' else c) :: attributeValue rest

/-- Adds a character to a text whose latest character comes first. A carriage return waits for
what follows and then counts as a line end, together with a newline behind it. -/
def push (latest : Text) (c : Char) (isLast : Bool) : Text :=
  let settled := if isLast && c == '\r' then '\n' else c
  match latest with
  | '\r' :: earlier => if c = '\n' then '\n' :: earlier else settled :: '\n' :: earlier
  | _ => settled :: latest

/-- The character right after a reference is taken as it is. -/
def contentFrom (latest : Text) (verbatim : Bool) : List Piece → Text
  | [] => latest.reverse
  | referenced c :: rest => contentFrom (c :: latest) true rest
  | plain c :: rest =>
    if verbatim then contentFrom (c :: latest) false rest
    else contentFrom (push latest c rest.isEmpty) false rest

def content (pieces : List Piece) : Text := contentFrom [] false pieces

end Piece

/-- The value of an attribute as it is written. -/
def attributeText? (written : Text) : Option Text :=
  (Piece.all? written).map Piece.attributeValue

def contentText? (written : Text) : Option Text :=
  (Piece.all? written).map Piece.content

/-- A literal section holds no references. -/
def literalText (written : Text) : Text := Piece.content (written.map Piece.plain)

end SchemaPackage.Markup
