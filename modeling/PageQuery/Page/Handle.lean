/-
# Handles of nodes and instances

Nodes of the document and instances of components are told apart by numbers. Node numbers ascend in
document order. An instance is of some kind and may be backed by the node that it renders or by a
durable object.

Key definitions: `NodeId`, `InstanceId`, `Backing`, `InstanceKind`, `NodeId.ascending`.
Key theorems: `NodeId.mem_ascending`, `NodeId.ascending_pairwise`.
-/
import PageQuery.Json.Record

namespace PageQuery

/-- A node of the document. -/
structure NodeId where
  index : Nat
  deriving DecidableEq, Repr, Inhabited

/-- A component instance. -/
structure InstanceId where
  index : Nat
  deriving DecidableEq, Repr, Inhabited

/-- What stands durably behind an instance. -/
inductive Backing where
  | node (node : NodeId)
  | object (key : Nat)
  deriving DecidableEq, Repr

inductive InstanceKind where
  /-- The top of the instance graph. -/
  | root
  /-- The instance of an element; a boundary of ownership. -/
  | host
  /-- A component with an object behind it. -/
  | classComponent
  /-- A component without one. -/
  | function
  /-- Its children are rendered elsewhere. -/
  | portal
  | fragment
  | memo
  | forwardRef
  deriving DecidableEq, Repr

namespace InstanceKind

def all : List InstanceKind :=
  [.root, .host, .classComponent, .function, .portal, .fragment, .memo, .forwardRef]

def name : InstanceKind → String
  | .root => "root"
  | .host => "host"
  | .classComponent => "class"
  | .function => "function"
  | .portal => "portal"
  | .fragment => "fragment"
  | .memo => "memo"
  | .forwardRef => "forward_ref"

/-- The kind of a name. -/
def ofName? (name : String) : Option InstanceKind := all.find? fun kind => kind.name == name

@[simp] theorem ofName?_name (kind : InstanceKind) : ofName? kind.name = some kind := by
  cases kind <;> decide

def isHost : InstanceKind → Bool
  | .host => true
  | _ => false

/-- Whether props can be read from an instance of this kind: always from a function component, never
from a memo or a forwarded reference, and else if something stands behind it. -/
def isIntrospectable (kind : InstanceKind) (backing : Option Backing) : Bool :=
  match kind with
  | .function => true
  | .memo => false
  | .forwardRef => false
  | _ => backing.isSome

end InstanceKind

namespace NodeId

def toJson (n : NodeId) : Json := .ofNat n.index

/-- A number of 64 bits as a handle. -/
def ofJson? (v : Json) : Option NodeId := v.nat64?.map NodeId.mk

/-- Puts a node in its place in an ascending list, if it is not there. -/
def insert (n : NodeId) : List NodeId → List NodeId
  | [] => [n]
  | m :: rest =>
    if n.index < m.index then n :: m :: rest
    else if n = m then m :: rest
    else m :: insert n rest

/-- The nodes of a list in ascending order, each once. -/
def ascending (nodes : List NodeId) : List NodeId := nodes.foldr insert []

@[simp] theorem mem_insert {n m : NodeId} {nodes : List NodeId} :
    m ∈ insert n nodes ↔ m = n ∨ m ∈ nodes := by
  induction nodes with
  | nil => simp [insert]
  | cons k rest ih =>
    unfold insert
    by_cases h : n.index < k.index
    · simp [h]
    · by_cases e : n = k
      · subst e; simp
      · simp [h, e, ih]; grind

@[simp] theorem mem_ascending {m : NodeId} {nodes : List NodeId} : m ∈ ascending nodes ↔ m ∈ nodes := by
  induction nodes with
  | nil => simp [ascending]
  | cons k rest ih => simp [ascending] at ih ⊢; grind

theorem insert_pairwise {n : NodeId} : ∀ {nodes : List NodeId},
    nodes.Pairwise (fun m n => m.index < n.index) →
      (insert n nodes).Pairwise fun m n => m.index < n.index
  | [], _ => List.pairwise_singleton _ _
  | m :: rest, h => by
    obtain ⟨first, later⟩ := List.pairwise_cons.mp h
    unfold insert
    split
    · next lt =>
      refine List.pairwise_cons.mpr ⟨fun k hk => ?_, h⟩
      rcases List.mem_cons.mp hk with rfl | hk
      · exact lt
      · exact Nat.lt_trans lt (first k hk)
    · next ge =>
      split
      · exact h
      · next ne =>
        refine List.pairwise_cons.mpr ⟨fun k hk => ?_, insert_pairwise later⟩
        rcases mem_insert.mp hk with rfl | hk
        · have other : k.index ≠ m.index := fun e => ne (by cases k; cases m; exact congrArg _ e)
          omega
        · exact first k hk

/-- The nodes of a list in ascending order do ascend. -/
theorem ascending_pairwise (nodes : List NodeId) :
    (ascending nodes).Pairwise fun m n => m.index < n.index := by
  induction nodes with
  | nil => exact .nil
  | cons n rest ih => exact insert_pairwise ih

end NodeId

namespace InstanceId

def toJson (i : InstanceId) : Json := .ofNat i.index

/-- A number of 64 bits as a handle. -/
def ofJson? (v : Json) : Option InstanceId := v.nat64?.map InstanceId.mk

end InstanceId

namespace Backing

def toJson : Backing → Json
  | .node n => .object [("node", n.toJson)]
  | .object key => .object [("object", .ofNat key)]

end Backing

end PageQuery
