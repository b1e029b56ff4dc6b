import SchemaPackage.Markup.Element
import SchemaPackage.Markup.Reference
import SchemaPackage.Markup.Token

/-!
Documents: an optional declaration and one element, with nothing but comments, instructions and
white space around it. Every qualifier has to be declared in its element or further out, every
tag closed by its own name, and no attribute given twice. Document types are not accepted.
-/
namespace SchemaPackage.Markup

open Text (after? beginsWith)

/-- The namespace of each qualifier, innermost declaration first. The empty qualifier stands
for elements without one. -/
abbrev Scope := List (Text × Text)

def xmlSpace : Text := "http://www.w3.org/XML/1998/namespace"

def declarationSpace : Text := "http://www.w3.org/2000/xmlns/"

namespace Scope

/-- Adds what `xmlns:name` declares. The qualifier `xml` can only be declared to be what it is
anyway, and nothing else can be declared to be that. -/
def declare? (own : Scope) (name space : Text) : Option Scope :=
  if space = declarationSpace then none
  else if name == "xml" then if space = xmlSpace then some own else none
  else if space = xmlSpace || (own.lookup name).isSome then none
  else some (own ++ [(name, space)])

/-- Adds what `xmlns` declares for elements without a qualifier. -/
def declareDefault? (own : Scope) (space : Text) : Option Scope :=
  if space = xmlSpace || space = declarationSpace then none
  else some (own ++ [([], space)])

/-- An element may go without a namespace only if it has no qualifier. -/
def admits (scope : Scope) (qualifier : Text) : Bool :=
  qualifier.isEmpty || (scope.lookup qualifier).isSome

/-- The namespace of an attribute; an attribute without a qualifier has none. -/
def attributeSpace? (scope : Scope) (qualifier : Text) : Option (Option Text) :=
  if qualifier.isEmpty then some none
  else if qualifier == "xml" then some (some xmlSpace)
  else (scope.lookup qualifier).map some

end Scope

/-- An attribute with its value read. -/
abbrev ReadAttribute := QName × Text

def readAttributes : List RawAttribute → Option (List ReadAttribute)
  | [] => some []
  | a :: rest =>
    match attributeText? a.value with
    | some value => (readAttributes rest).map ((a.name, value) :: ·)
    | none => none

def declares (name : QName) : Bool := name.qualifier == "xmlns" || name.base == "xmlns"

/-- The declarations among the attributes of a tag. -/
def declarations? (own : Scope) : List ReadAttribute → Option Scope
  | [] => some own
  | (name, value) :: rest =>
    if name.qualifier == "xmlns" then
      (own.declare? name.base value).bind fun own => declarations? own rest
    else if name.base == "xmlns" then
      (own.declareDefault? value).bind fun own => declarations? own rest
    else declarations? own rest

/-- The attributes of a tag in their namespaces, none of them twice. -/
def resolve? (scope : Scope) (earlier : List Attribute) :
    List ReadAttribute → Option (List Attribute)
  | [] => some earlier
  | (name, value) :: rest =>
    if declares name then resolve? scope earlier rest
    else
      match scope.attributeSpace? name.qualifier with
      | none => none
      | some space =>
        if earlier.any fun a => a.space == space && a.name == name.base then none
        else resolve? scope (earlier ++ [⟨space, name.base, value⟩]) rest

/-- An element whose end has not been read yet, its latest child first. -/
structure Frame where
  name : QName
  scope : Scope
  attributes : List Attribute
  latest : List Node

def Frame.node (f : Frame) : Node := .element f.name.base f.attributes f.latest.reverse

def Frame.add (child : Node) (f : Frame) : Frame := { f with latest := child :: f.latest }

/-- Text joins the text right before it. -/
def Frame.addText (content : Text) (f : Frame) : Frame :=
  match f.latest with
  | .text before :: earlier => { f with latest := .text (before ++ content) :: earlier }
  | _ => f.add (.text content)

/-- How far a document is read: the open elements, innermost first, and the outermost element
once it is closed. -/
structure Progress where
  frames : List Frame := []
  root : Option Node := none

namespace Progress

/-- Hands a finished element to the one around it. -/
def finish (node : Node) (p : Progress) : Progress :=
  match p.frames with
  | [] => { p with root := some node }
  | f :: outer => { p with frames := f.add node :: outer }

def scope (p : Progress) : Scope :=
  match p.frames with
  | [] => []
  | f :: _ => f.scope

def frame? (name : QName) (attributes : List RawAttribute) (p : Progress) : Option Frame := do
  let attributes ← readAttributes attributes
  let own ← declarations? [] attributes
  let scope := own ++ p.scope
  if name.qualifier == "xmlns" || !scope.admits name.qualifier then none
  else
    let attributes ← resolve? scope [] attributes
    return { name, scope, attributes, latest := [] }

/-- No second element may follow the outermost one. -/
def start? (name : QName) (attributes : List RawAttribute) (selfClosed : Bool) (p : Progress) :
    Option Progress :=
  if p.frames.isEmpty && p.root.isSome then none
  else (p.frame? name attributes).map fun f =>
    if selfClosed then p.finish f.node else { p with frames := f :: p.frames }

def stop? (name : QName) (p : Progress) : Option Progress :=
  match p.frames with
  | f :: outer =>
    if f.name = name then some ({ p with frames := outer }.finish f.node) else none
  | [] => none

/-- Outside the outermost element, text can only be white space. -/
def text? (written : Text) (p : Progress) : Option Progress :=
  match p.frames with
  | [] => if written.all isSpace then some p else none
  | f :: outer =>
    (contentText? written).map fun content => { p with frames := f.addText content :: outer }

def literal? (written : Text) (p : Progress) : Option Progress :=
  match p.frames with
  | [] => none
  | f :: outer => some { p with frames := f.addText (literalText written) :: outer }

def aside (p : Progress) : Progress :=
  match p.frames with
  | [] => p
  | f :: outer => { p with frames := f.add .aside :: outer }

def step? (p : Progress) : Token → Option Progress
  | .opening name attributes selfClosed => p.start? name attributes selfClosed
  | .closing name => p.stop? name
  | .text written => p.text? written
  | .literal written => p.literal? written
  | .aside => some p.aside

def run? (p : Progress) : List Token → Option Progress
  | [] => some p
  | token :: rest => (p.step? token).bind fun p => p.run? rest

end Progress

/-- The white space that parts the items of a declaration; its end needs none. -/
def gap? (t : Text) : Option Text :=
  if Token.startsWithSpace t || beginsWith "?>" t then some (Token.skipSpaces t) else none

/-- An item of a declaration, if it is there, and the gap behind it. -/
def item? (name t : Text) : Option Text :=
  if beginsWith name t then (Token.attribute? t).bind fun r => gap? r.2 else some t

/-- What follows the declaration, given what follows its opening. -/
def afterDeclaration? (t : Text) : Option Text := do
  let t := Token.skipSpaces t
  if !beginsWith "version" t then none
  else
    let t ← item? "version" t
    let t ← item? "encoding" t
    let t ← if beginsWith "standalone" t then (Token.attribute? t).map (·.2) else some t
    after? "?>" (Token.skipSpaces t)

/-- The text without a byte order mark and a declaration. -/
def body? (t : Text) : Option Text :=
  let t := match t with
    | '\uFEFF' :: rest => rest
    | _ => t
  match after? "<?xml " t with
  | some rest => afterDeclaration? rest
  | none => some t

/-- The outermost element of a well-formed document. -/
def document? (t : Text) : Option Element := do
  let body ← body? t
  let tokens ← Token.scan body
  let p ← ({} : Progress).run? tokens
  if p.frames.isEmpty then p.root.bind Node.element? else none

end SchemaPackage.Markup
