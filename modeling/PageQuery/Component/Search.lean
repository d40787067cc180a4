/-
# Components and the document

The instances between a node's host and the next host upward own the node. An element of a component
is a node that it owns; through portals these need not lie together. Components are found by climbing
from the host of each node in document order, so that those around come before those within, and each
counts once by its identity.

Searches number objects as they ask for identities, in the order in which they ask.

Key definitions: `Page.ownerChain`, `Page.ownerOf?`, `Page.elementsOf`, `Page.searchWithin`,
`Page.findDescendants`, `Page.findBelowNodes`.
-/
import PageQuery.Component.Identity
import PageQuery.Query.Error
import PageQuery.Matching.Condition
import PageQuery.Selector.Segment

namespace PageQuery

/-- A search that numbers objects and may fail. -/
abbrev Search (α : Type) := ExceptT QueryError (StateM Identities) α

/-- Where components are searched: everywhere, or strictly below some of these instances. -/
inductive Scope where
  | everywhere
  | below (instances : List InstanceId)
  deriving DecidableEq, Repr

namespace Page

/-! ### Owners -/

/-- The instances that own a node, nearest first. -/
def ownerChain (page : Page) (n : NodeId) : List InstanceId :=
  match page.host? n with
  | none => []
  | some host => (page.owners.after host).takeWhile fun i => !(page.kind i).isHost

/-- Whether an instance is a component of the query's name whose props satisfy its predicate. -/
def isMatch (page : Page) (matcher : PropertyMatcher) (query : ComponentQuery) (i : InstanceId) :
    Bool :=
  !(page.kind i).isHost && page.name? i == some query.name &&
    matcher query.predicate (page.props i)

/-- The nearest owner of a node that the query matches; without a query, the nearest owner. -/
def ownerOf? (page : Page) (matcher : PropertyMatcher) (query? : Option ComponentQuery)
    (n : NodeId) : Option InstanceId :=
  (page.ownerChain n).find? fun i => query?.all fun query => page.isMatch matcher query i

/-! ### Elements -/

/-- Whether one of the owners has the identity, asked in order until one has. -/
def anyIdentified (page : Page) (accept : Identity → Bool) : List InstanceId →
    StateM Identities Bool
  | [] => pure false
  | i :: rest => do
    if accept (← page.identify i) then return true
    anyIdentified page accept rest

/-- The nodes of a list that an owner of the identity owns. -/
def ownedAmong (page : Page) (target : Identity) : List NodeId → StateM Identities (List NodeId)
  | [] => pure []
  | n :: rest => do
    let owned ← page.anyIdentified (· == target) (page.ownerChain n)
    let more ← ownedAmong page target rest
    return if owned then n :: more else more

/-- The nodes that an instance owns, in document order. -/
def elementsOf (page : Page) (i : InstanceId) : StateM Identities (List NodeId) := do
  let target ← page.identify i
  page.ownedAmong target page.nodes

/-- The elements of some instances, one instance after another. -/
def elementsOfEach (page : Page) : List InstanceId → StateM Identities (List NodeId)
  | [] => pure []
  | i :: rest => do
    let elements ← page.elementsOf i
    let more ← elementsOfEach page rest
    return elements ++ more

/-- The nodes that any of some instances owns, ascending. -/
def elementsOfAll (page : Page) (instances : List InstanceId) : StateM Identities (List NodeId) := do
  let elements ← page.elementsOfEach instances
  return NodeId.ascending elements

/-! ### Structural search -/

/-- The results of searches from each of some nodes. -/
def searchFromEach (page : Page) (selector : String) : List NodeId →
    Except SearchError (List NodeId)
  | [] => .ok []
  | n :: rest => do
    let hits ← page.search n selector
    let more ← searchFromEach page selector rest
    return hits ++ more

/-- The nodes that searches from the parents of some elements find in those elements. -/
def searchInElements (page : Page) (selector : String) (elements : List NodeId) :
    Except SearchError (List NodeId) :=
  let bases := NodeId.ascending (elements.map fun e => (page.parent? e).getD e)
  (page.searchFromEach selector bases).map fun hits =>
    hits.filter fun hit => elements.any (page.isWithin hit)

/-- Gives the value or fails for the search's reason. -/
def orSearchFailure {α : Type} (r : Except SearchError α) : Search α :=
  match r with
  | .ok a => pure a
  | .error e => throw (.search e)

def searchWithinEach (page : Page) (selector : String) : List InstanceId → Search (List NodeId)
  | [] => pure []
  | i :: rest => do
    let elements ← page.elementsOf i
    let found ← orSearchFailure (page.searchInElements selector elements)
    let more ← searchWithinEach page selector rest
    return found ++ more

/-- What a structural selector finds in the elements of some instances, ascending. -/
def searchWithin (page : Page) (instances : List InstanceId) (selector : String) :
    Search (List NodeId) := do
  let found ← page.searchWithinEach selector instances
  return NodeId.ascending found

/-! ### Component search -/

/-- The identities of some instances, asked in order. -/
def identifyEach (page : Page) : List InstanceId → StateM Identities (List Identity)
  | [] => pure []
  | i :: rest => do
    let identity ← page.identify i
    let more ← identifyEach page rest
    return identity :: more

/-- Whether one of the instances above has an identity of the scope. -/
def inScope (page : Page) (scope : Option (List Identity)) (above : List InstanceId) :
    StateM Identities Bool :=
  match scope with
  | none => pure true
  | some identities => page.anyIdentified identities.contains above

/-- Whether an instance, with those above it, is a result. Fails if it is one whose props cannot be
read. -/
def isResult (page : Page) (matcher : PropertyMatcher) (query : ComponentQuery)
    (scope : Option (List Identity)) (i : InstanceId) (above : List InstanceId) : Search Bool := do
  if !page.isMatch matcher query i then return false
  let within ← page.inScope scope above
  if !within then return false
  if !(page.kind i).isIntrospectable (page.backing? i) then
    throw (.unreadableComponent query.name (page.kind i))
  return true

/-- The results on a chain upward, outermost first, up to an identity that was seen before, and the
identities seen after it. -/
def climb (page : Page) (matcher : PropertyMatcher) (query : ComponentQuery)
    (scope : Option (List Identity)) : List InstanceId → List Identity →
    Search (List InstanceId × List Identity)
  | [], seen => pure ([], seen)
  | i :: above, seen => do
    let identity ← page.identify i
    if seen.contains identity then return ([], seen)
    let found ← page.isResult matcher query scope i above
    let (outer, seen) ← climb page matcher query scope above (identity :: seen)
    return (if found then outer ++ [i] else outer, seen)

/-- The host of a node and the instances above it. -/
def hostChain (page : Page) (n : NodeId) : List InstanceId :=
  match page.host? n with
  | none => []
  | some host => page.owners.upward host

/-- The results on the chains upward from some nodes. -/
def climbEach (page : Page) (matcher : PropertyMatcher) (query : ComponentQuery)
    (scope : Option (List Identity)) : List NodeId → List Identity → Search (List InstanceId)
  | [], _ => pure []
  | n :: rest, seen => do
    let (found, seen) ← page.climb matcher query scope (page.hostChain n) seen
    let more ← climbEach page matcher query scope rest seen
    return found ++ more

/-- The components that match a query in a scope, in document order, each identity once. -/
def findDescendants (page : Page) (matcher : PropertyMatcher) (scope : Scope)
    (query : ComponentQuery) : Search (List InstanceId) :=
  match scope with
  | .everywhere => page.climbEach matcher query none page.nodes []
  | .below [] => pure []
  | .below instances => do
    let identities ← page.identifyEach instances
    page.climbEach matcher query (some identities) page.nodes []

/-- Whether an instance owns a node strictly inside one of some nodes. -/
def rendersInside (page : Page) (outside : List NodeId) (i : InstanceId) :
    StateM Identities Bool := do
  let elements ← page.elementsOf i
  return elements.any fun e => outside.any fun o => e ≠ o && page.isWithin e o

/-- The candidates that have one of the identities or own a node strictly inside one of some
nodes. -/
def keepBelow (page : Page) (belowHosts : List Identity) (outside : List NodeId) :
    List InstanceId → StateM Identities (List InstanceId)
  | [] => pure []
  | i :: rest => do
    let identity ← page.identify i
    let kept ← if belowHosts.contains identity then pure true else page.rendersInside outside i
    let more ← keepBelow page belowHosts outside rest
    return if kept then i :: more else more

/-- The components that match a query below some nodes. Those below nodes with a host are found
below that host; those below others are the ones that own a node strictly inside. -/
def findBelowNodes (page : Page) (matcher : PropertyMatcher) (nodes : List NodeId)
    (query : ComponentQuery) : Search (List InstanceId) := do
  let hosts := nodes.filterMap page.host?
  let outside := nodes.filter fun n => (page.host? n).isNone
  let belowHosts ← page.findDescendants matcher (.below hosts) query
  if outside.isEmpty then return belowHosts
  let identities ← page.identifyEach belowHosts
  let candidates ← page.findDescendants matcher .everywhere query
  page.keepBelow identities outside candidates

end Page

end PageQuery
