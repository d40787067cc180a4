/-
# Fixtures

A fixture declares a page: plain markup, and an app of elements and components. A node of it is text,
a component, a portal that renders its children elsewhere, or an element.

In JSON a text is a string and the others are closed records, told apart by what they require; the
first of component, portal and element that fits is taken.

Key definitions: `ComponentKind`, `FixtureNode`, `Fixture`, `FixtureNode.ofJson?`, `Fixture.ofJson?`.
-/
import PageQuery.Page.Handle
import PageQuery.Page.Rect

namespace PageQuery

inductive ComponentKind where
  | classComponent
  | function
  | memo
  | forwardRef
  | fragment
  deriving DecidableEq, Repr

inductive FixtureNode where
  | text (text : String)
  | component (name : String) (kind : ComponentKind) (displayName? : Option String) (props : Json)
      (children : List FixtureNode)
  | portal (target : String) (children : List FixtureNode)
  | element (tag : String) (attributes : List (String × String)) (text? : Option String)
      (rect? : Option Rect) (children : List FixtureNode)
  deriving Repr

structure Fixture where
  /-- Nodes outside the graph of components. -/
  markup : List FixtureNode
  app : List FixtureNode
  deriving Repr

namespace ComponentKind

def toInstanceKind : ComponentKind → InstanceKind
  | .classComponent => .classComponent
  | .function => .function
  | .memo => .memo
  | .forwardRef => .forwardRef
  | .fragment => .fragment

def all : List ComponentKind := [.classComponent, .function, .memo, .forwardRef, .fragment]

def ofName? (name : String) : Option ComponentKind :=
  all.find? fun kind => kind.toInstanceKind.name == name

/-- A kind is written as its name, or as an object of that name alone with null in it. -/
def ofJson? : Json → Option ComponentKind
  | .string name => ofName? name
  | .object [(name, .null)] => ofName? name
  | _ => none

end ComponentKind

namespace FixtureNode

/-- The names of a component's parts, in declared order. -/
def componentParts : List String := ["component", "kind", "display_name", "props", "children"]

def portalParts : List String := ["portal", "children"]

def elementParts : List String := ["tag", "attrs", "text", "rect", "children"]

/-- Attributes, ascending by name. -/
def attributesOf? : Json → Option (List (String × String))
  | .object fields =>
    (fields.mapM fun (field : String × Json) =>
      field.2.string?.map fun s => (field.1, s)).map Fields.ofList
  | _ => none

/-- A component, given what its part at each place reads as a list of children. -/
def componentOf? (v : Json) (childrenAt : Nat → Option (List FixtureNode)) : Option FixtureNode := do
  match ← v.parts? true componentParts with
  | [name, kind, displayName, props, _] =>
    let name ← Json.required Json.string? name
    let kind ← Json.withDefault .classComponent ComponentKind.ofJson? kind
    let displayName? ← Json.optional Json.string? displayName
    let children ← childrenAt 4
    return .component name kind displayName? ((props.getD .null).canonical) children
  | _ => none

def portalOf? (v : Json) (childrenAt : Nat → Option (List FixtureNode)) : Option FixtureNode := do
  match ← v.parts? true portalParts with
  | [target, _] =>
    let target ← Json.required Json.string? target
    let children ← childrenAt 1
    return .portal target children
  | _ => none

def elementOf? (v : Json) (childrenAt : Nat → Option (List FixtureNode)) : Option FixtureNode := do
  match ← v.parts? true elementParts with
  | [tag, attributes, leading, rect, _] =>
    let tag ← Json.required Json.string? tag
    let attributes ← Json.withDefault [] attributesOf? attributes
    let text? ← Json.optional Json.string? leading
    let rect? ← Json.optional Rect.ofJson? rect
    let children ← childrenAt 4
    return .element tag attributes text? rect? children
  | _ => none

/-- A record as the first form that fits. -/
def recordOf? (v : Json) (childrenAt : Nat → Option (List FixtureNode)) : Option FixtureNode :=
  (componentOf? v childrenAt).or ((portalOf? v childrenAt).or (elementOf? v childrenAt))

mutual

/-- The node that a value stands for. -/
def ofJson? : Json → Option FixtureNode
  | .string s => some (.text s)
  | .object fields =>
    let children := childrenIn? fields
    recordOf? (.object fields) fun _ => children
  | .array items =>
    let readings := childrenAmong items
    recordOf? (.array items) fun place => (readings[place]?).getD (some [])
  | _ => none

/-- The nodes that a list stands for. -/
def ofItems? : List Json → Option (List FixtureNode)
  | [] => some []
  | v :: rest =>
    match ofJson? v, ofItems? rest with
    | some node, some nodes => some (node :: nodes)
    | _, _ => none

/-- The children that a value stands for. -/
def childrenOf? : Json → Option (List FixtureNode)
  | .array items => ofItems? items
  | _ => none

/-- The children in the first field of that name; none are written without one. -/
def childrenIn? : List (String × Json) → Option (List FixtureNode)
  | [] => some []
  | (k, v) :: rest => if k = "children" then childrenOf? v else childrenIn? rest

/-- Each value read as children. -/
def childrenAmong : List Json → List (Option (List FixtureNode))
  | [] => []
  | v :: rest => childrenOf? v :: childrenAmong rest

end

end FixtureNode

namespace Fixture

/-- The fixture that a value stands for. -/
def ofJson? (v : Json) : Option Fixture := do
  match ← v.parts? false ["markup", "app"] with
  | [markup, app] =>
    let markup ← Json.withDefault [] FixtureNode.childrenOf? markup
    let app ← Json.withDefault [] FixtureNode.childrenOf? app
    return ⟨markup, app⟩
  | _ => none

end Fixture

end PageQuery
