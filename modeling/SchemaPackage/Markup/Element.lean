import SchemaPackage.Text

/-!
Elements: what is left of a document once tags, names and references are read. Comments and
instructions are kept without their content, because text behind one is not the element's own.
-/
namespace SchemaPackage.Markup

structure Attribute where
  space : Option Text
  name : Text
  value : Text
deriving DecidableEq

inductive Node
  | element (tag : Text) (attributes : List Attribute) (children : List Node)
  | text (content : Text)
  | aside

structure Element where
  tag : Text
  attributes : List Attribute
  children : List Node

def Node.element? : Node → Option Element
  | element tag attributes children => some ⟨tag, attributes, children⟩
  | _ => none

namespace Element

def elements (e : Element) : List Element := e.children.filterMap Node.element?

/-- The child elements of one name. -/
def named (tag : Text) (e : Element) : List Element := e.elements.filter (·.tag == tag)

/-- The text that an element starts with. -/
def text? (e : Element) : Option Text :=
  match e.children with
  | .text content :: _ => some content
  | _ => none

/-- Names and values of the attributes, whatever their namespaces. -/
def attributeValues (e : Element) : List (Text × Text) :=
  e.attributes.map fun a => (a.name, a.value)

/-- The value of the attribute of that name outside all namespaces. -/
def attribute? (name : Text) (e : Element) : Option Text :=
  (e.attributes.find? fun a => a.space.isNone && a.name == name).map (·.value)

end Element

end SchemaPackage.Markup
