/-
# Pages

A page is a document and a graph of component instances. The document has nodes in document order,
each with a parent unless it is a root, a tag, its text and its place on the screen, and it can be
searched. The graph has instances, each with a parent, a next sibling, a kind, a name, props and
perhaps something durable behind it. A node may have a host, the instance that renders it.

Parent and sibling links form finite chains. Handles that belong to nothing have no links.

Key definitions: `Page`, `SearchError`, `Page.isWithin`.
-/
import PageQuery.Page.Links
import PageQuery.Page.Rect

namespace PageQuery

/-- Why a search of the document fails. -/
inductive SearchError where
  | invalidSelector (selector : String)
  | unknownNode (node : NodeId)
  deriving DecidableEq, Repr

def SearchError.message : SearchError → String
  | .invalidSelector selector => "Invalid structural selector '" ++ selector ++ "': css"
  | .unknownNode node => "Unknown node: " ++ toString node.index

structure Page where
  root : NodeId
  /-- Every node, in document order. -/
  nodes : List NodeId
  parents : Links NodeId
  tag? : NodeId → Option String
  /-- The text of a node and all below it. -/
  text : NodeId → String
  rect : NodeId → Rect
  /-- The nodes below a node that match a structural selector, in document order. -/
  search : NodeId → String → Except SearchError (List NodeId)
  /-- The instance that renders a node. -/
  host? : NodeId → Option InstanceId
  owners : Links InstanceId
  siblings : Links InstanceId
  kind : InstanceId → InstanceKind
  name? : InstanceId → Option String
  props : InstanceId → Json
  backing? : InstanceId → Option Backing

namespace Page

def parent? (page : Page) (n : NodeId) : Option NodeId := page.parents.next n

def parentInstance? (page : Page) (i : InstanceId) : Option InstanceId := page.owners.next i

def nextSibling? (page : Page) (i : InstanceId) : Option InstanceId := page.siblings.next i

/-- Whether a node is another one or lies below it. -/
def isWithin (page : Page) (n ancestor : NodeId) : Bool :=
  (page.parents.upward n).contains ancestor

end Page

end PageQuery
