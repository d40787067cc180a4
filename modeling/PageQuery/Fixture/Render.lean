/-
# Rendering a fixture

Rendering makes the tree of elements and the graph of instances side by side. The document has a head
and a body; the body holds the markup and then the mount, a `div` with the id `root`, where the app
is rendered. An element of the app gets a host instance; a component gets an instance and leaves its
children where it stands; a portal gets an instance and leaves its children for later. When the app
is done, the portals follow in the order in which they were met, each adding its children at the end
of its target: the body, or the first element made that has the target for its id.

Key definitions: `FixtureError`, `RenderedInstance`, `Rendering`, `Fixture.render`.
-/
import PageQuery.Fixture.Node
import PageQuery.Fixture.Tree

namespace PageQuery

/-- Why a fixture is no page. -/
inductive FixtureError where
  | unknownPortalTarget (target : String)
  | componentOutsideApp (component : String)
  | invalidTag (tag : String)
  /-- The markup of the page reads as another tree; the node is the first that differs. -/
  | reparented (tag : String) (node? : Option Nat)
  deriving DecidableEq, Repr

def FixtureError.message : FixtureError → String
  | .unknownPortalTarget target => "Unknown portal target '" ++ target ++ "'"
  | .componentOutsideApp component =>
    "Component '" ++ component ++ "' must be rendered inside \x60app\x60"
  | .invalidTag tag => "Invalid tag name '" ++ tag ++ "'"
  | .reparented tag node? =>
    let node := match node? with
      | none => "None"
      | some n => "Some(" ++ toString n ++ ")"
    "<" ++ tag ++ "> does not survive HTML parsing in place (node " ++ node ++ ")"

/-- What stands behind an instance while elements are known by their serials. -/
inductive RenderedBacking where
  | element (serial : Nat)
  | object (key : Nat)
  deriving DecidableEq, Repr

structure RenderedInstance where
  parent? : Option InstanceId
  kind : InstanceKind
  name? : Option String
  props : Json
  backing? : Option RenderedBacking
  deriving Repr

/-- A portal whose children are still to be rendered. -/
structure PendingPortal where
  target : String
  children : List FixtureNode
  owner : InstanceId
  deriving Repr

/-- What rendering has made so far, besides the elements. -/
structure RenderState where
  /-- The number of elements made. -/
  serial : Nat
  /-- The ids of elements with their serials, in the order they were made. -/
  ids : List (String × Nat)
  instances : List RenderedInstance
  /-- The number of objects made. -/
  objects : Nat
  /-- Portals in the order they were met. -/
  pending : List PendingPortal

/-- A rendered page. -/
structure Rendering where
  document : ElementTree
  instances : List RenderedInstance

/-- A step of rendering. -/
abbrev Render (α : Type) := StateT RenderState (Except FixtureError) α

namespace Render

/-- A letter and then letters, digits and hyphens, all of ASCII. -/
def isTagName : List Char → Bool
  | [] => false
  | c :: rest => c.isAlpha && rest.all fun d => d.isAlphanum || d == '-'

/-- Letters of ASCII in lower case. -/
def lowerTag (tag : String) : String := String.ofList (tag.toList.map Char.toLower)

/-- The serial of a new element with these attributes. -/
def newSerial (attributes : List (String × String)) : Render Nat := fun s =>
  let ids := match Fields.find? "id" attributes with
    | some id => s.ids ++ [(id, s.serial)]
    | none => s.ids
  .ok (s.serial, { s with serial := s.serial + 1, ids })

/-- A new instance. -/
def newInstance (i : RenderedInstance) : Render InstanceId := fun s =>
  .ok (⟨s.instances.length⟩, { s with instances := s.instances ++ [i] })

/-- A new object. -/
def newObject : Render Nat := fun s => .ok (s.objects + 1, { s with objects := s.objects + 1 })

/-- Leaves a portal's children for later. -/
def postpone (portal : PendingPortal) : Render Unit := fun s =>
  .ok ((), { s with pending := s.pending ++ [portal] })

/-- The first portal still to be rendered, if there is one. -/
def nextPending : Render (Option PendingPortal) := fun s =>
  match s.pending with
  | [] => .ok (none, s)
  | portal :: rest => .ok (some portal, { s with pending := rest })

/-- Refuses what is no tag name. -/
def checkTag (tag : String) : Render Unit :=
  if isTagName tag.toList then pure () else throw (.invalidTag tag)

/-- The declared text of an element, before its children. -/
def leadingText (text? : Option String) : List ElementTree := text?.toList.map .text

mutual

/-- What a node renders to outside the app. -/
def markupNode : FixtureNode → Render (List ElementTree)
  | .text s => pure [.text s]
  | .element tag attributes text? rect? children => do
    checkTag tag
    let serial ← newSerial attributes
    let content ← markupNodes children
    return [.element ⟨serial, lowerTag tag, attributes, rect?, none⟩ (leadingText text? ++ content)]
  | .component name _ _ _ _ => throw (.componentOutsideApp name)
  | .portal target _ => throw (.componentOutsideApp ("portal to " ++ target))

def markupNodes : List FixtureNode → Render (List ElementTree)
  | [] => pure []
  | node :: rest => do
    let trees ← markupNode node
    let more ← markupNodes rest
    return trees ++ more

end

/-- The name by which a component is found. A fragment has none. -/
def componentName? (name : String) (kind : ComponentKind) (displayName? : Option String) :
    Option String :=
  match kind with
  | .fragment => none
  | _ => some (displayName?.getD name)

/-- The object behind a component, if its kind has one. -/
def componentBacking? (kind : ComponentKind) : Render (Option RenderedBacking) :=
  match kind with
  | .classComponent => do
    let key ← newObject
    return some (.object key)
  | _ => pure none

/-- Props that are null are no props. -/
def propsOrNone : Json → Json
  | .null => .object []
  | v => v

mutual

/-- What a node renders to where it stands, below an instance. -/
def appNode (owner : InstanceId) : FixtureNode → Render (List ElementTree)
  | .text s => pure [.text s]
  | .element tag attributes text? rect? children => do
    checkTag tag
    let serial ← newSerial attributes
    let host ← newInstance ⟨some owner, .host, some tag, .null, some (.element serial)⟩
    let content ← appNodes host children
    return [.element ⟨serial, lowerTag tag, attributes, rect?, some host⟩
      (leadingText text? ++ content)]
  | .component name kind displayName? props children => do
    let backing? ← componentBacking? kind
    let i ← newInstance ⟨some owner, kind.toInstanceKind, componentName? name kind displayName?,
      propsOrNone props, backing?⟩
    appNodes i children
  | .portal target children => do
    let i ← newInstance ⟨some owner, .portal, none, .null, none⟩
    postpone ⟨target, children, i⟩
    return []

def appNodes (owner : InstanceId) : List FixtureNode → Render (List ElementTree)
  | [] => pure []
  | node :: rest => do
    let trees ← appNode owner node
    let more ← appNodes owner rest
    return trees ++ more

end

/-- The serial of the element that a portal adds to. -/
def targetOf (body : Nat) (target : String) : Render Nat := fun s =>
  if target = "body" then .ok (body, s)
  else match Fields.find? target s.ids with
    | some serial => .ok (serial, s)
    | none => .error (.unknownPortalTarget target)

/-- Renders what portals left for later into a document, at most so many portals. -/
def portals (body : Nat) : Nat → ElementTree → Render ElementTree
  | 0, document => pure document
  | count + 1, document => do
    match ← nextPending with
    | none => return document
    | some portal =>
      let serial ← targetOf body portal.target
      let trees ← appNodes portal.owner portal.children
      portals body count (document.appendTo serial trees)

/-- An element that is no fixture's node. -/
def frame (serial : Nat) (tag : String) (attributes : List (String × String))
    (content : List ElementTree) : ElementTree :=
  .element ⟨serial, tag, attributes, none, none⟩ content

end Render

namespace FixtureNode

mutual

/-- The number of portals in a node. -/
def portalCount : FixtureNode → Nat
  | .text _ => 0
  | .component _ _ _ _ children => portalCountAll children
  | .portal _ children => 1 + portalCountAll children
  | .element _ _ _ _ children => portalCountAll children

def portalCountAll : List FixtureNode → Nat
  | [] => 0
  | node :: rest => portalCount node + portalCountAll rest

end

end FixtureNode

namespace Fixture

open Render in
/-- Renders a fixture's document. -/
def renderDocument (f : Fixture) : Render ElementTree := do
  let html ← newSerial []
  let head ← newSerial []
  let body ← newSerial []
  let markup ← markupNodes f.markup
  let mountAttributes := [("id", "root")]
  let mount ← newSerial mountAttributes
  let key ← newObject
  let root ← newInstance ⟨none, .root, none, .null, some (.object key)⟩
  let app ← appNodes root f.app
  let document := frame html "html" []
    [frame head "head" [] [], frame body "body" [] (markup ++ [frame mount "div" mountAttributes app])]
  portals body (FixtureNode.portalCountAll f.app) document

/-- Renders a fixture. -/
def render (f : Fixture) : Except FixtureError Rendering :=
  match f.renderDocument ⟨0, [], [], 0, []⟩ with
  | .ok (document, s) => .ok ⟨document, s.instances⟩
  | .error e => .error e

end Fixture

end PageQuery
