import SchemaPackage.Markup.Chars
import SchemaPackage.Text

/-!
The tokens of a marked-up text: tags, stretches of text, literal sections, and the comments and
instructions that stand aside. A text is the sequence of its tokens, so reading one means
telling what begins at its first character and where that ends.
-/
namespace SchemaPackage.Markup

open Text (after? beginsWith occursIn)

/-- A name with the qualifier in front of its colon, which is empty when there is none. -/
structure QName where
  qualifier : Text
  base : Text
deriving DecidableEq

/-- An attribute as it is written, references unresolved. -/
structure RawAttribute where
  name : QName
  value : Text

inductive Token
  | opening (name : QName) (attributes : List RawAttribute) (selfClosed : Bool)
  | closing (name : QName)
  | text (content : Text)
  | literal (content : Text)
  | aside

namespace Token

/-- What stands before the first occurrence of `stop`, and what follows it. -/
def upTo (stop : Text) : Text → Option (Text × Text)
  | [] => none
  | c :: rest =>
    match after? stop (c :: rest) with
    | some more => some ([], more)
    | none =>
      if isLegal c then (upTo stop rest).map fun r => (c :: r.1, r.2) else none

def skipSpaces (t : Text) : Text := t.dropWhile isSpace

def startsWell : Text → Bool
  | [] => false
  | c :: _ => isNameStart c

def isInQName (c : Char) : Bool := isNameChar c || c == ':'

def qname? (t : Text) : Option (QName × Text) :=
  let rest := t.dropWhile isInQName
  match Text.split ':' (t.takeWhile isInQName) with
  | [base] => if startsWell base then some (⟨[], base⟩, rest) else none
  | [qualifier, base] =>
    if (qualifier.isEmpty || startsWell qualifier) && startsWell base then
      some (⟨qualifier, base⟩, rest)
    else none
  | _ => none

/-- A value up to its closing quote. It holds no opening angle bracket. -/
def quoted? (quote : Char) : Text → Option (Text × Text)
  | [] => none
  | c :: rest =>
    if c = quote then some ([], rest)
    else if c = '<' || !isLegal c then none
    else (quoted? quote rest).map fun r => (c :: r.1, r.2)

def attributeValue? (t : Text) : Option (Text × Text) :=
  match skipSpaces t with
  | '=' :: rest =>
    match skipSpaces rest with
    | '"' :: value => quoted? '"' value
    | '\'' :: value => quoted? '\'' value
    | _ => none
  | _ => none

def attribute? (t : Text) : Option (RawAttribute × Text) := do
  let (name, rest) ← qname? t
  let (value, rest) ← attributeValue? rest
  return (⟨name, value⟩, rest)

def startsWithSpace : Text → Bool
  | [] => false
  | c :: _ => isSpace c

/-- The attributes of a tag, whether the tag closes itself, and what follows it. White space
stands before each attribute. -/
def tagRest? : Nat → Text → Option (List RawAttribute × Bool × Text)
  | 0, _ => none
  | fuel + 1, t =>
    match skipSpaces t with
    | '/' :: '>' :: rest => some ([], true, rest)
    | '>' :: rest => some ([], false, rest)
    | inner =>
      if startsWithSpace t then do
        let (first, rest) ← attribute? inner
        let (more, selfClosed, rest) ← tagRest? fuel rest
        return (first :: more, selfClosed, rest)
      else none

def openingTag? (t : Text) : Option (Token × Text) := do
  let (name, rest) ← qname? t
  let (attributes, selfClosed, rest) ← tagRest? rest.length rest
  return (.opening name attributes selfClosed, rest)

def closingTag? (t : Text) : Option (Token × Text) := do
  let (name, rest) ← qname? t
  match skipSpaces rest with
  | '>' :: rest => return (.closing name, rest)
  | _ => none

/-- A comment holds no two dashes in a row and does not end in one. -/
def comment? (t : Text) : Option (Token × Text) := do
  let (content, rest) ← upTo "-->" t
  if occursIn "--" content || content.getLast? = some '-' then none
  else return (.aside, rest)

/-- An instruction starts with a name; the name may hold colons anywhere. -/
def instruction? : Text → Option (Token × Text)
  | c :: rest =>
    if isNameStart c || c == ':' then
      (upTo "?>" (rest.dropWhile isInQName)).map fun r => (.aside, r.2)
    else none
  | [] => none

def literal? (t : Text) : Option (Token × Text) :=
  (upTo "]]>" t).map fun r => (.literal r.1, r.2)

/-- Text lasts until the next tag, and never holds the end of a literal section. -/
def text? (t : Text) : Option (Token × Text) :=
  let content := t.takeWhile (· != '<')
  if content.all isLegal && !occursIn "]]>" content then
    some (.text content, t.dropWhile (· != '<'))
  else none

/-- What an opening angle bracket begins, the most particular form first. The declaration of a
document is no instruction. -/
def bracketed? (t : Text) : Option (Token × Text) :=
  match after? "!--" t with
  | some rest => comment? rest
  | none =>
    match after? "![CDATA[" t with
    | some rest => literal? rest
    | none =>
      match t with
      | '?' :: rest => if beginsWith "xml " rest then none else instruction? rest
      | '/' :: rest => closingTag? rest
      | _ => openingTag? t

/-- The token at the start of a text, and what follows it. -/
def next? : Text → Option (Token × Text)
  | [] => none
  | '<' :: rest => bracketed? rest
  | t => text? t

/-- All tokens of a text, each of which takes up at least one character. -/
def scanFrom : Nat → Text → Option (List Token)
  | _, [] => some []
  | 0, _ => none
  | fuel + 1, t =>
    match next? t with
    | some (token, rest) => (scanFrom fuel rest).map (token :: ·)
    | none => none

def scan (t : Text) : Option (List Token) := scanFrom t.length t

end Token

end SchemaPackage.Markup
