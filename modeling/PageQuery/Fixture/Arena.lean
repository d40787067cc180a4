/-
# Rendering into an arena

Elements and instances are kept in two lists in the order in which they are made and refer to each other
by their places. An element that is made, or a text, is put at the end of what its parent holds; a portal
keeps its children for later. For each instance there is also a row of the instances made below it, by
which instances next to each other are linked in the end.

Then the elements are put into document order. A walk from the first one lists them, with a stack of
those still to be visited. Where an element comes to stand is written into a table, by which the elements
are moved and all that refers to them is rewritten: parents, content, and what stands behind instances.

Key definitions: `HostNode`, `InstanceRecord`, `Arena`, `Arena.appNode`, `Arena.linked`, `Arena.walk`,
`Arena.newPlaces`, `Arena.moved`, `Arena.finish`, `Fixture.arena`.
-/
import PageQuery.Fixture.Render

namespace PageQuery

/-- What stands in an element: a text, or an element that something stands for. -/
inductive ContentItem (α : Type) where
  | text (text : String)
  | element (a : α)
  deriving DecidableEq, Repr

namespace ContentItem

variable {α β : Type}

def map (f : α → β) : ContentItem α → ContentItem β
  | .text s => .text s
  | .element a => .element (f a)

def element? : ContentItem α → Option α
  | .text _ => none
  | .element a => some a

end ContentItem

/-- An element in an arena. It refers to its parent and its children by their places. -/
structure HostNode where
  tag : String
  attributes : List (String × String)
  content : List (ContentItem NodeId)
  parent? : Option NodeId
  rect? : Option Rect
  host? : Option InstanceId
  deriving DecidableEq, Repr

namespace HostNode

variable (node : HostNode)

/-- The elements right in an element, in order. -/
def children : List NodeId := node.content.filterMap (·.element?)

/-- With more content at the end. -/
def holding (more : List (ContentItem NodeId)) : HostNode := { node with content := node.content ++ more }

def hosted (host : InstanceId) : HostNode := { node with host? := some host }

/-- With other places of elements. -/
def relocated (place : NodeId → NodeId) : HostNode :=
  { node with
    parent? := node.parent?.map place
    content := node.content.map (·.map place) }

end HostNode

/-- An instance with its links. -/
structure InstanceRecord where
  parent? : Option InstanceId
  next? : Option InstanceId
  kind : InstanceKind
  name? : Option String
  props : Json
  backing? : Option Backing
  deriving Repr

namespace InstanceRecord

variable (i : InstanceRecord)

def linked (next : InstanceId) : InstanceRecord := { i with next? := some next }

/-- With other places of elements. -/
def relocated (place : NodeId → NodeId) : InstanceRecord :=
  { i with
    backing? := i.backing?.map fun
      | .node n => .node (place n)
      | .object key => .object key }

end InstanceRecord

/-- What has been made so far. -/
structure Arena where
  nodes : List HostNode
  instances : List InstanceRecord
  /-- For each instance, those made below it. -/
  rows : List (List InstanceId)
  /-- The number of objects made. -/
  objects : Nat
  /-- Portals in the order they were met. -/
  pending : List PendingPortal

/-- A rendered page, its nodes in document order. -/
structure Rendered where
  nodes : List HostNode
  instances : List InstanceRecord
  deriving Repr

/-- A step of rendering into an arena. -/
abbrev Arranging (α : Type) := StateT Arena (Except FixtureError) α

namespace Arena

/-! ### Making elements and instances -/

/-- Changes the element at a place. -/
def alter (n : NodeId) (change : HostNode → HostNode) : Arranging Unit := fun a =>
  .ok ((), { a with nodes := a.nodes.modify n.index change })

/-- Puts a text at the end of an element. -/
def putText (parent : NodeId) (s : String) : Arranging Unit := alter parent (·.holding [.text s])

/-- A new element, at the end of its parent if it has one. -/
def newElement (parent? : Option NodeId) (tag : String) (attributes : List (String × String))
    (rect? : Option Rect) : Arranging NodeId := fun a =>
  if Render.isTagName tag.toList then
    let n : NodeId := ⟨a.nodes.length⟩
    let nodes := a.nodes ++ [⟨Render.lowerTag tag, attributes, [], parent?, rect?, none⟩]
    let nodes := match parent? with
      | some parent => nodes.modify parent.index (·.holding [.element n])
      | none => nodes
    .ok (n, { a with nodes })
  else .error (.invalidTag tag)

/-- A new instance, at the end of its parent's row if it has one, with an empty row of its own. -/
def newInstance (parent? : Option InstanceId) (kind : InstanceKind) (name? : Option String) (props : Json)
    (backing? : Option Backing) : Arranging InstanceId := fun a =>
  let i : InstanceId := ⟨a.instances.length⟩
  let rows := a.rows ++ [[]]
  let rows := match parent? with
    | some parent => rows.modify parent.index (· ++ [i])
    | none => rows
  .ok (i, { a with instances := a.instances ++ [⟨parent?, none, kind, name?, props, backing?⟩], rows })

def newObject : Arranging Nat := fun a => .ok (a.objects + 1, { a with objects := a.objects + 1 })

def postpone (portal : PendingPortal) : Arranging Unit := fun a =>
  .ok ((), { a with pending := a.pending ++ [portal] })

def nextPending : Arranging (Option PendingPortal) := fun a =>
  match a.pending with
  | [] => .ok (none, a)
  | portal :: rest => .ok (some portal, { a with pending := rest })

/-! ### Nodes of a fixture -/

/-- The declared text of an element, before its children. -/
def putLeading (n : NodeId) (text? : Option String) : Arranging Unit :=
  match text? with
  | some s => putText n s
  | none => pure ()

mutual

/-- Renders a node outside the app into its parent. -/
def markupNode (parent : NodeId) : FixtureNode → Arranging Unit
  | .text s => putText parent s
  | .element tag attributes text? rect? children => do
    let n ← newElement (some parent) tag attributes rect?
    putLeading n text?
    markupNodes n children
  | .component name _ _ _ _ => throw (.componentOutsideApp name)
  | .portal target _ => throw (.componentOutsideApp ("portal to " ++ target))

def markupNodes (parent : NodeId) : List FixtureNode → Arranging Unit
  | [] => pure ()
  | node :: rest => do
    markupNode parent node
    markupNodes parent rest

end

/-- The object behind a component, if its kind has one. -/
def componentBacking? (kind : ComponentKind) : Arranging (Option Backing) :=
  match kind with
  | .classComponent => do
    let key ← newObject
    return some (.object key)
  | _ => pure none

mutual

/-- Renders a node of the app into its parent, below an instance. -/
def appNode (parent : NodeId) (owner : InstanceId) : FixtureNode → Arranging Unit
  | .text s => putText parent s
  | .element tag attributes text? rect? children => do
    let n ← newElement (some parent) tag attributes rect?
    let host ← newInstance (some owner) .host (some tag) .null (some (.node n))
    alter n (·.hosted host)
    putLeading n text?
    appNodes n host children
  | .component name kind displayName? props children => do
    let backing? ← componentBacking? kind
    let i ← newInstance (some owner) kind.toInstanceKind (Render.componentName? name kind displayName?)
      (Render.propsOrNone props) backing?
    appNodes parent i children
  | .portal target children => do
    let i ← newInstance (some owner) .portal none .null none
    postpone ⟨target, children, i⟩

def appNodes (parent : NodeId) (owner : InstanceId) : List FixtureNode → Arranging Unit
  | [] => pure ()
  | node :: rest => do
    appNode parent owner node
    appNodes parent owner rest

end

/-- Renders the app into its mount, behind all else in the body. The instance at the top has an object behind
it. -/
def mountApp (body : NodeId) (app : List FixtureNode) : Arranging Unit := do
  let mount ← newElement (some body) "div" [("id", "root")] none
  let key ← newObject
  let root ← newInstance none .root none .null (some (.object key))
  appNodes mount root app

/-- The element that a portal adds to: the body, or the first one made with the target for its id. -/
def targetOf (body : NodeId) (target : String) : Arranging NodeId := fun a =>
  if target = "body" then .ok (body, a)
  else match a.nodes.findIdx? fun node => Fields.find? "id" node.attributes == some target with
    | some n => .ok (⟨n⟩, a)
    | none => .error (.unknownPortalTarget target)

/-- Renders what portals left for later, at most so many portals. -/
def portals (body : NodeId) : Nat → Arranging Unit
  | 0 => pure ()
  | count + 1 => do
    match ← nextPending with
    | none => pure ()
    | some portal =>
      let target ← targetOf body portal.target
      appNodes target portal.owner portal.children
      portals body count

/-! ### Links between siblings -/

/-- Links each instance of a row to the next one. -/
def linkRow (instances : List InstanceRecord) (row : List InstanceId) : List InstanceRecord :=
  (row.zip row.tail).foldl (fun instances pair => instances.modify pair.1.index (·.linked pair.2)) instances

/-- The instances with links along the rows. -/
def linked (instances : List InstanceRecord) (rows : List (List InstanceId)) : List InstanceRecord :=
  rows.foldl linkRow instances

/-! ### Document order -/

/-- The children of the element at a place. -/
def childrenAt (nodes : List HostNode) (n : NodeId) : List NodeId :=
  (nodes[n.index]?).elim [] HostNode.children

/-- Puts elements on a stack one after another, so that the last of them is on top. -/
def pushAll (stack : List NodeId) (elements : List NodeId) : List NodeId :=
  elements.foldl (fun stack n => n :: stack) stack

/-- The elements in the order in which they are taken from a stack, at most so many of them. An element
that is taken leaves its children on the stack, the first one on top. -/
def walk (nodes : List HostNode) : Nat → List NodeId → List NodeId
  | 0, _ => []
  | _ + 1, [] => []
  | count + 1, n :: stack => n :: walk nodes count (pushAll stack (childrenAt nodes n).reverse)

/-- For each element, its place in an order. -/
def newPlaces (count : Nat) (order : List NodeId) : List NodeId :=
  order.zipIdx.foldl (fun places entry => places.set entry.1.index ⟨entry.2⟩)
    (List.replicate count ⟨0⟩)

/-- What a table of places has for an element. -/
def placeIn (places : List NodeId) (n : NodeId) : NodeId := (places[n.index]?).getD ⟨0⟩

/-- The elements in an order, each taken out of its slot and told the new places. -/
def moved (places : List NodeId) : List NodeId → List (Option HostNode) → List HostNode
  | [], _ => []
  | n :: order, slots =>
    match slots[n.index]?.join with
    | some node => node.relocated (placeIn places) :: moved places order (slots.set n.index none)
    | none => moved places order slots

/-- The elements in document order, and the instances with what stands behind them there. -/
def inDocumentOrder (nodes : List HostNode) (instances : List InstanceRecord) : Rendered :=
  let order := walk nodes nodes.length [⟨0⟩]
  let places := newPlaces nodes.length order
  ⟨moved places order (nodes.map some), instances.map (·.relocated (placeIn places))⟩

/-- The page, when all has been made. -/
def finish (a : Arena) : Rendered := inDocumentOrder a.nodes (linked a.instances a.rows)

/-- An arena in which nothing has been made. -/
def empty : Arena := ⟨[], [], [], 0, []⟩

end Arena

namespace Fixture

open Arena in
/-- Renders a fixture into an arena. -/
def arrange (f : Fixture) : Arranging Unit := do
  let html ← newElement none "html" [] none
  let _head ← newElement (some html) "head" [] none
  let body ← newElement (some html) "body" [] none
  markupNodes body f.markup
  mountApp body f.app
  portals body (FixtureNode.portalCountAll f.app)

/-- The nodes and instances of a fixture. -/
def rendered (f : Fixture) : Except FixtureError Rendered :=
  match f.arrange .empty with
  | .ok ((), a) => .ok a.finish
  | .error e => .error e

end Fixture

end PageQuery
