import SchemaPackage.Markup.Document
import SchemaPackage.ProgramUnit
import SchemaPackage.Table

/-!
Descriptions of tables and program units. A table names its columns and indexes in child
elements; a program unit is described by an element named for its kind. Any other document
describes neither, which is no fault.
-/
namespace SchemaPackage.Description

open Markup

/-- The elements two levels down, through every group of that name. -/
def members (group tag : Text) (e : Element) : List Element :=
  (e.named group).flatMap (·.named tag)

/-- The text of the first element of documentation. -/
def documentation? (e : Element) : Option Text :=
  (e.named "documentation").head?.bind Element.text?

/-- A column's attributes, and behind them its child elements, which work like attributes. -/
def columnAttributes (e : Element) : Attributes :=
  e.attributeValues ++ e.elements.map fun child => (child.tag, child.text?.getD [])

def addColumns (t : Table) : List Element → Build Table
  | [] => return t
  | e :: rest => do
    let column ← Column.createFrom (columnAttributes e)
    addColumns (t.addColumn column) rest

/-- The columns of an index, in one text. -/
def indexColumns (e : Element) : Text :=
  Text.joined ","
    (((members "columns" "column" e).filterMap (·.attribute? "name")).map Text.upper)

def addIndexElement (t : Table) (e : Element) : Except Fault Table :=
  let columns := indexColumns e
  if columns.isEmpty then .ok t
  else do
    let index ← Index.ofAttributes e.attributeValues
    let index ← index.setColumns columns
    t.addIndex index

/-- Indexes over expressions list no columns and are left out. -/
def addIndexes (t : Table) : List Element → Except Fault Table
  | [] => .ok t
  | e :: rest =>
    match addIndexElement t e with
    | .ok t => addIndexes t rest
    | .error fault => .error fault

def withDocumentation (t : Table) (e : Element) : Table :=
  match documentation? e with
  | some documentation => { t with documentation }
  | none => t

def describesTable (e : Element) : Bool := Text.sameUpToCase e.tag "table"

/-- The table that an element describes. -/
def tableOf (tracked : Bool) (e : Element) : Build Table := do
  let t ← Table.createFrom e.attributeValues tracked
  let t ← addColumns (withDocumentation t e) (members "columns" "column" e)
  (addIndexes t (members "indexes" "index" e) : Except Fault Table)

def tableOf? (tracked : Bool) (e : Element) : Build (Option Table) :=
  if describesTable e then some <$> tableOf tracked e else return none

/-- The table that a document describes; `path` says where the text is from. -/
def parseTable (path : Path) (text : Text) (tracked : Bool) : Build (Option Table) :=
  match document? text with
  | some root => tableOf? tracked root
  | none => throw (Fault.malformed path)

def unitOf (e : Element) : Except Fault ProgramUnit := do
  let unit ← ProgramUnit.ofAttributes e.tag e.attributeValues
  match documentation? e with
  | some documentation => return { unit with documentation }
  | none => return unit

def unitOf? (e : Element) : Except Fault (Option ProgramUnit) :=
  match UnitKind.parse? e.tag with
  | some _ => (unitOf e).map some
  | none => .ok none

/-- The program unit that a document describes; `path` says where the text is from. -/
def parseUnit (path : Path) (text : Text) : Except Fault (Option ProgramUnit) :=
  match document? text with
  | some root => unitOf? root
  | none => .error (.malformed path)

end SchemaPackage.Description
