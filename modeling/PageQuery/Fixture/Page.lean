/-
# Pages of fixtures

A rendered fixture is a page. Its nodes are the elements in document order. It is searched in the tree
that its markup reads as, which must agree with what was rendered.

Key definitions: `FixturePage`, `FixturePage.load`, `Fixture.load`.
-/
import PageQuery.Markup.Agreement
import PageQuery.Page.Basic
import PageQuery.Style.Matching

namespace PageQuery

/-- A page of a fixture with its markup. -/
structure FixturePage where
  elements : Array PlacedElement
  instances : Array RenderedInstance
  markup : String
  document : StyleDocument

namespace RenderedInstance

/-- The next instance with the parent of the one at a place. -/
def nextSibling? (instances : Array RenderedInstance) (place : Nat) : Option Nat :=
  match instances[place]? with
  | none => none
  | some i =>
    match i.parent? with
    | none => none
    | some parent =>
      ((List.range instances.size).drop (place + 1)).find? fun later =>
        (instances[later]?).any fun j => j.parent? == some parent

end RenderedInstance

namespace FixturePage

/-- The page of a rendering. -/
def ofRendering (r : Rendering) : Except FixtureError FixturePage :=
  let elements := r.document.placed none 0
  let markup := Markup.document r.document
  let trees := Markup.read markup
  match Markup.disagreement? elements trees with
  | some e => .error e
  | none => .ok
    { elements := elements.toArray
      instances := r.instances.toArray
      markup := String.ofList markup
      document := ⟨(MarkupTree.styleElementsAll none 0 trees).toArray⟩ }

variable (p : FixturePage)

def element? (n : NodeId) : Option PlacedElement := p.elements[n.index]?

def instance? (i : InstanceId) : Option RenderedInstance := p.instances[i.index]?

def attribute? (n : NodeId) (name : String) : Option String :=
  (p.element? n).bind fun e => Fields.find? name e.head.attributes

/-- The first node with the id. -/
def nodeById? (id : String) : Option NodeId :=
  (p.elements.findIdx? fun e => Fields.find? "id" e.head.attributes == some id).map NodeId.mk

/-- The place in document order of the element made with a serial. -/
def placeOf (serial : Nat) : Nat :=
  (p.elements.findIdx? fun e => e.head.serial == serial).getD 0

def backingOf : RenderedBacking → Backing
  | .element serial => .node ⟨p.placeOf serial⟩
  | .object key => .object key

/-- Searches below a scope; only the root may select itself. -/
def search (parents : Links NodeId) (scope : NodeId) (selector : String) :
    Except SearchError (List NodeId) :=
  if p.elements.size ≤ scope.index then .error (.unknownNode scope)
  else match Style.read? selector.toList with
    | none => .error (.invalidSelector selector)
    | some selectors =>
      .ok (((p.document.select selectors).map NodeId.mk).filter fun n =>
        (n ≠ scope || scope = ⟨0⟩) && (parents.upward n).contains scope)

/-- What queries see of the page. -/
def toPage : Page :=
  let parents := Links.ofNodeTable (p.elements.map (·.parent?))
  { root := ⟨0⟩
    nodes := (List.range p.elements.size).map NodeId.mk
    parents
    tag? := fun n => (p.element? n).map (·.head.tag)
    text := fun n =>
      ((p.element? n).map fun e => String.join (ElementTree.textsAll e.content)).getD ""
    rect := fun n =>
      ((p.element? n).map fun e => (ElementTree.element e.head e.content).bounds).getD Rect.zero
    search := p.search parents
    host? := fun n => (p.element? n).bind (·.head.host?)
    owners := Links.ofInstanceTable (p.instances.map fun i => i.parent?.map (·.index))
    siblings := Links.ofInstanceTable
      ((List.range p.instances.size).map (RenderedInstance.nextSibling? p.instances)).toArray
    kind := fun i => ((p.instance? i).map (·.kind)).getD .fragment
    name? := fun i => (p.instance? i).bind (·.name?)
    props := fun i => ((p.instance? i).map (·.props)).getD .null
    backing? := fun i => ((p.instance? i).bind (·.backing?)).map p.backingOf }

end FixturePage

/-- The page of a fixture. -/
def Fixture.load (f : Fixture) : Except FixtureError FixturePage :=
  match f.render with
  | .error e => .error e
  | .ok r => FixturePage.ofRendering r

end PageQuery
