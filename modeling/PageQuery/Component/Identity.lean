/-
# Identities of nodes and instances

One component may be reached through several instance handles, and some instances have nothing
durable behind them. An identity tells components apart: the number of the object behind the instance
or, where there is none, the identity of the parent and the place among the siblings, counted from
the end of their chain. Objects are numbered in the order in which they are first asked for.

What an identity is made from, its key, depends on the page alone: the nearest object upward, if any,
and the places on the way down from it.

Key definitions: `IdentityKey`, `Identity`, `Identities`, `IdentityKey.identify`, `Page.identityKey`,
`Page.identify`.
-/
import PageQuery.Page.Basic

namespace PageQuery

/-- The object that an identity starts from and the places on the way down from it. -/
structure IdentityKey where
  base? : Option Backing
  path : List Nat
  deriving DecidableEq, Repr

/-- An identity: the number of an object, if there is one, and places on the way down from it. -/
structure Identity where
  number? : Option Nat
  path : List Nat
  deriving DecidableEq, Repr

/-- The objects that have numbers; the number is the place in the list. -/
structure Identities where
  objects : List Backing
  deriving DecidableEq, Repr

namespace Identity

/-- The identity of what is absent. -/
def absent : Identity := ⟨none, []⟩

/-- An identity as text, its parts set off by points. -/
def text (i : Identity) : String :=
  let base := match i.number? with
    | none => "null"
    | some n => toString n
  i.path.foldl (fun t place => t ++ "." ++ toString place) base

end Identity

namespace Identities

def empty : Identities := ⟨[]⟩

/-- The number of an object, a new one if it has none yet. -/
def numberOf (b : Backing) (ids : Identities) : Nat × Identities :=
  match ids.objects.findIdx? (· == b) with
  | some n => (n, ids)
  | none => (ids.objects.length, ⟨ids.objects ++ [b]⟩)

end Identities

namespace IdentityKey

/-- The key of what is absent. -/
def absent : IdentityKey := ⟨none, []⟩

def ofNode (n : NodeId) : IdentityKey := ⟨some (.node n), []⟩

/-- The key of the child at a place. -/
def child (k : IdentityKey) (place : Nat) : IdentityKey := ⟨k.base?, k.path ++ [place]⟩

/-- The identity made from a key. -/
def identify (k : IdentityKey) : StateM Identities Identity := fun ids =>
  match k.base? with
  | none => (⟨none, k.path⟩, ids)
  | some b =>
    let (n, ids) := ids.numberOf b
    (⟨some n, k.path⟩, ids)

end IdentityKey

namespace Page

/-- The number of sibling links from an instance to the end of its chain. -/
def siblingIndex (page : Page) (i : InstanceId) : Nat := page.siblings.distance i

/-- The key of the first instance of a chain upward. -/
def keyAlong (page : Page) : List InstanceId → IdentityKey
  | [] => .absent
  | i :: above =>
    match page.backing? i with
    | some b => ⟨some b, []⟩
    | none => (keyAlong page above).child (page.siblingIndex i)

/-- What the identity of an instance is made from. -/
def identityKey (page : Page) (i : InstanceId) : IdentityKey := page.keyAlong (page.owners.upward i)

/-- The identity of an instance. -/
def identify (page : Page) (i : InstanceId) : StateM Identities Identity :=
  (page.identityKey i).identify

end Page

end PageQuery
