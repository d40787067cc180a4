/-
# Resolving identities with a memory

To find the identity of an instance one climbs to the nearest object above it and, on every level
on the way, walks along the siblings. A resolver is asked again and again and remembers what it came
to: the token of an instance and the place of every sibling that it walked past. A walk or a climb
stops at the first handle that is remembered.

A token is text: the number of an object, `null` for what is absent, and for an instance with
nothing behind it the token of its parent, a point and its place.

Key definitions: `Resolver`, `Resolver.ofNode`, `Resolver.ofInstance`, `Resolver.ofOptional`,
`Resolver.siblingIndex`, `IdentityRequest`, `Resolver.answers`.
-/
import PageQuery.Component.Identity

namespace PageQuery

/-- The objects that have numbers, and what was found so far by handle. -/
structure Resolver where
  identities : Identities
  tokens : List (InstanceId × String)
  /-- The number of sibling links to the end of the chain. -/
  places : List (InstanceId × Nat)
  deriving DecidableEq, Repr

namespace Resolver

/-- A resolver that was asked nothing. -/
def empty : Resolver := ⟨.empty, [], []⟩

/-- What is recalled, or else what is found, which is then remembered. -/
def recallOr {α : Type} (known : Resolver → Option α) (remember : α → Resolver → Resolver)
    (find : StateM Resolver α) : StateM Resolver α := fun r =>
  match known r with
  | some a => (a, r)
  | none =>
    let (a, r) := find r
    (a, remember a r)

/-- The place of an instance, remembered. -/
def placeOr (i : InstanceId) : StateM Resolver Nat → StateM Resolver Nat :=
  recallOr (·.places.lookup i) fun place r => { r with places := (i, place) :: r.places }

/-- The token of an instance, remembered. -/
def tokenOr (i : InstanceId) : StateM Resolver String → StateM Resolver String :=
  recallOr (·.tokens.lookup i) fun token r => { r with tokens := (i, token) :: r.tokens }

/-- The token of what is absent. -/
def ofAbsent : String := "null"

/-- The token of an object. -/
def ofObject (b : Backing) : StateM Resolver String := fun r =>
  let (n, identities) := r.identities.numberOf b
  (toString n, { r with identities })

def ofNode (n : NodeId) : StateM Resolver String := ofObject (.node n)

/-- The place of an instance, given the siblings after it: one more than that of the next. -/
def placeAlong : InstanceId → List InstanceId → StateM Resolver Nat
  | i, [] => placeOr i (pure 0)
  | i, j :: rest => placeOr i do
    let next ← placeAlong j rest
    return next + 1

/-- The number of sibling links from an instance to the end of its chain. -/
def siblingIndex (page : Page) (i : InstanceId) : StateM Resolver Nat :=
  placeAlong i (page.siblings.after i)

/-- The token of the first instance of a chain upward. -/
def tokenAlong (page : Page) : List InstanceId → StateM Resolver String
  | [] => pure ofAbsent
  | i :: above => tokenOr i <|
    match page.backing? i with
    | some b => ofObject b
    | none => do
      let parent ← tokenAlong page above
      let place ← siblingIndex page i
      return parent ++ "." ++ toString place

/-- The token of an instance. -/
def ofInstance (page : Page) (i : InstanceId) : StateM Resolver String :=
  tokenAlong page (page.owners.upward i)

/-- The token of an instance, if there is one. -/
def ofOptional (page : Page) : Option InstanceId → StateM Resolver String
  | some i => ofInstance page i
  | none => pure ofAbsent

end Resolver

/-! ### Requests one after another -/

/-- What a resolver can be asked for. -/
inductive IdentityRequest where
  | ofNode (n : NodeId)
  | ofInstance (i : InstanceId)
  | ofOptional (i? : Option InstanceId)
  | siblingIndex (i : InstanceId)
  deriving DecidableEq, Repr

inductive IdentityAnswer where
  | token (text : String)
  | place (place : Nat)
  deriving DecidableEq, Repr

namespace Resolver

def answer (page : Page) : IdentityRequest → StateM Resolver IdentityAnswer
  | .ofNode n => do
    let token ← ofNode n
    return .token token
  | .ofInstance i => do
    let token ← ofInstance page i
    return .token token
  | .ofOptional i? => do
    let token ← ofOptional page i?
    return .token token
  | .siblingIndex i => do
    let place ← siblingIndex page i
    return .place place

/-- The answers to some requests, in order. -/
def answerEach (page : Page) : List IdentityRequest → StateM Resolver (List IdentityAnswer)
  | [] => pure []
  | request :: rest => do
    let answer ← answer page request
    let answers ← answerEach page rest
    return answer :: answers

/-- The answers of a resolver that was asked nothing before. -/
def answers (page : Page) (requests : List IdentityRequest) : List IdentityAnswer :=
  (answerEach page requests .empty).1

end Resolver

end PageQuery
