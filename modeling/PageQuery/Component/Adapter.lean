/-
# Searches for components with a memory

Within a fetch, identities are asked for through one resolver, which remembers tokens, and it is tokens
that are compared. A search in a scope remembers besides, until it ends, of the instances that it has
climbed past whether one above them is of the scope. A later climb stops at the first that is remembered.

Key definitions: `Adapter.elementsOf`, `Adapter.searchWithin`, `Adapter.climbToScope`, `Adapter.inScope`,
`Adapter.findDescendants`, `Adapter.findBelowNodes`.
-/
import PageQuery.Component.Resolver
import PageQuery.Component.Search

namespace PageQuery

/-- A search that remembers tokens and may fail. -/
abbrev RecallingSearch (α : Type) := ExceptT QueryError (StateM Resolver) α

namespace Adapter

open Resolver

/-! ### Elements -/

/-- Whether the token of one of the owners is accepted, asked in order until one is. -/
def anyTold (page : Page) (accept : String → Bool) : List InstanceId → StateM Resolver Bool
  | [] => pure false
  | i :: rest => do
    if accept (← ofInstance page i) then return true
    anyTold page accept rest

def ownedAmong (page : Page) (target : String) : List NodeId → StateM Resolver (List NodeId)
  | [] => pure []
  | n :: rest => do
    let owned ← anyTold page (· == target) (page.ownerChain n)
    let more ← ownedAmong page target rest
    return if owned then n :: more else more

/-- The nodes that an instance owns, in document order. -/
def elementsOf (page : Page) (i : InstanceId) : StateM Resolver (List NodeId) := do
  let target ← ofInstance page i
  ownedAmong page target page.nodes

def elementsOfEach (page : Page) : List InstanceId → StateM Resolver (List NodeId)
  | [] => pure []
  | i :: rest => do
    let elements ← elementsOf page i
    let more ← elementsOfEach page rest
    return elements ++ more

/-- The nodes that any of some instances owns, ascending. -/
def elementsOfAll (page : Page) (instances : List InstanceId) : StateM Resolver (List NodeId) := do
  let elements ← elementsOfEach page instances
  return NodeId.ascending elements

/-! ### Structural search -/

/-- Gives the value or fails for the search's reason. -/
def orSearchFailure {α : Type} (r : Except SearchError α) : RecallingSearch α :=
  match r with
  | .ok a => pure a
  | .error e => throw (.search e)

def searchWithinEach (page : Page) (selector : String) : List InstanceId → RecallingSearch (List NodeId)
  | [] => pure []
  | i :: rest => do
    let elements ← elementsOf page i
    let found ← orSearchFailure (page.searchInElements selector elements)
    let more ← searchWithinEach page selector rest
    return found ++ more

/-- What a structural selector finds in the elements of some instances, ascending. -/
def searchWithin (page : Page) (instances : List InstanceId) (selector : String) :
    RecallingSearch (List NodeId) := do
  let found ← searchWithinEach page selector instances
  return NodeId.ascending found

/-! ### Component search -/

/-- The tokens of some instances, asked in order. -/
def tokensOf (page : Page) : List InstanceId → StateM Resolver (List String)
  | [] => pure []
  | i :: rest => do
    let token ← ofInstance page i
    let more ← tokensOf page rest
    return token :: more

/-- Of instances climbed past, whether one above them is of the scope. -/
abbrev ScopeMemo := List (InstanceId × Bool)

/-- Climbs from an instance, with those above it, until it is known whether one above is of the scope. The
instances climbed past come with the answer. -/
def climbToScope (page : Page) (scope : List String) (memo : ScopeMemo) :
    InstanceId → List InstanceId → StateM Resolver (Bool × List InstanceId)
  | cursor, above =>
    match memo.lookup cursor with
    | some known => pure (known, [])
    | none =>
      match above with
      | [] => pure (false, [cursor])
      | parent :: rest => do
        if scope.contains (← ofInstance page parent) then return (true, [cursor])
        let further ← climbToScope page scope memo parent rest
        return (further.1, cursor :: further.2)

/-- Whether one of the instances above is of the scope; the answer is remembered of all climbed past. -/
def inScope (page : Page) (scope : Option (List String)) (i : InstanceId) (memo : ScopeMemo) :
    StateM Resolver (Bool × ScopeMemo) :=
  match scope with
  | none => pure (true, memo)
  | some tokens => do
    let climbed ← climbToScope page tokens memo i (page.owners.after i)
    return (climbed.1, (climbed.2.map fun passed => (passed, climbed.1)) ++ memo)

/-- Whether an instance is a result. Fails if it is one whose props cannot be read. -/
def isResult (page : Page) (matcher : PropertyMatcher) (query : ComponentQuery)
    (scope : Option (List String)) (i : InstanceId) (memo : ScopeMemo) :
    RecallingSearch (Bool × ScopeMemo) := do
  if !page.isMatch matcher query i then return (false, memo)
  let within ← inScope page scope i memo
  if !within.1 then return (false, within.2)
  if !(page.kind i).isIntrospectable (page.backing? i) then
    throw (.unreadableComponent query.name (page.kind i))
  return (true, within.2)

/-- What the chains climbed so far have left: the tokens seen and what is remembered of the scope. -/
structure Climbed where
  seen : List String
  memo : ScopeMemo

/-- The results on a chain upward, outermost first, up to a token that was seen before. -/
def climb (page : Page) (matcher : PropertyMatcher) (query : ComponentQuery)
    (scope : Option (List String)) : List InstanceId → Climbed →
    RecallingSearch (List InstanceId × Climbed)
  | [], left => pure ([], left)
  | i :: above, left => do
    let token ← ofInstance page i
    if left.seen.contains token then return ([], left)
    let found ← isResult page matcher query scope i left.memo
    let outer ← climb page matcher query scope above ⟨token :: left.seen, found.2⟩
    return (if found.1 then outer.1 ++ [i] else outer.1, outer.2)

def climbEach (page : Page) (matcher : PropertyMatcher) (query : ComponentQuery)
    (scope : Option (List String)) : List NodeId → Climbed → RecallingSearch (List InstanceId)
  | [], _ => pure []
  | n :: rest, left => do
    let found ← climb page matcher query scope (page.hostChain n) left
    let more ← climbEach page matcher query scope rest found.2
    return found.1 ++ more

/-- The components that match a query in a scope, in document order, each token once. -/
def findDescendants (page : Page) (matcher : PropertyMatcher) (scope : Scope) (query : ComponentQuery) :
    RecallingSearch (List InstanceId) :=
  match scope with
  | .everywhere => climbEach page matcher query none page.nodes ⟨[], []⟩
  | .below [] => pure []
  | .below (i :: rest) => do
    let tokens ← tokensOf page (i :: rest)
    climbEach page matcher query (some tokens) page.nodes ⟨[], []⟩

/-- Whether an instance owns a node strictly inside one of some nodes. -/
def rendersInside (page : Page) (outside : List NodeId) (i : InstanceId) : StateM Resolver Bool := do
  let elements ← elementsOf page i
  return elements.any fun e => outside.any fun o => e ≠ o && page.isWithin e o

/-- The candidates that have one of the tokens or own a node strictly inside one of some nodes. -/
def keepBelow (page : Page) (belowHosts : List String) (outside : List NodeId) :
    List InstanceId → StateM Resolver (List InstanceId)
  | [] => pure []
  | i :: rest => do
    let token ← ofInstance page i
    let kept ← if belowHosts.contains token then pure true else rendersInside page outside i
    let more ← keepBelow page belowHosts outside rest
    return if kept then i :: more else more

/-- The components that match a query below some nodes. -/
def findBelowNodes (page : Page) (matcher : PropertyMatcher) (nodes : List NodeId)
    (query : ComponentQuery) : RecallingSearch (List InstanceId) := do
  let hosts := nodes.filterMap page.host?
  let outside := nodes.filter fun n => (page.host? n).isNone
  let belowHosts ← findDescendants page matcher (.below hosts) query
  if outside.isEmpty then return belowHosts
  let tokens ← tokensOf page belowHosts
  let candidates ← findDescendants page matcher .everywhere query
  keepBelow page tokens outside candidates

end Adapter

end PageQuery
