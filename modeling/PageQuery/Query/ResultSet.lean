/-
# Result sets

What queries pass to each other and hand back: nothing, nodes, components, or an array of result
sets. A query that asks for all of its results adds one level of arrays.

A result set is written in the JSON of the context that it can serve as: one node as a node, any
other collection as a list of handles.

Key definitions: `ResultSet`, `ResultSet.toContext`, `ResultSet.toJson`, `ResultSet.serialized`,
`ResultSet.depth`, `ResultSet.nonempty`, `ResultSet.count`.
Key theorem: `ResultSet.toContext_toJson`.
-/
import PageQuery.Query.Fetcher

namespace PageQuery

inductive ResultSet where
  | null
  | nodes (nodes : List NodeId)
  | components (components : List InstanceId)
  | array (items : List ResultSet)
  deriving Repr, Inhabited

namespace ResultSet

/-- The collection of one node. -/
def node (n : NodeId) : ResultSet := .nodes [n]

/-- The collection of one component. -/
def component (i : InstanceId) : ResultSet := .components [i]

def isNull : ResultSet → Bool
  | .null => true
  | _ => false

def items? : ResultSet → Option (List ResultSet)
  | .array items => some items
  | _ => none

/-- How deep arrays nest along their first items. -/
def depth : ResultSet → Nat
  | .array (first :: _) => 1 + depth first
  | .array [] => 1
  | _ => 0

mutual

/-- The context that the handles denote. -/
def toContext : ResultSet → Context
  | .null => .null
  | .nodes [n] => .node n
  | .nodes ns => .nodes ns
  | .components is => .components is
  | .array items => .array (itemsToContext items)

def itemsToContext : List ResultSet → List Context
  | [] => []
  | r :: rest => toContext r :: itemsToContext rest

end

mutual

def toJson : ResultSet → Json
  | .null => .null
  | .nodes [n] => .object [("node", n.toJson)]
  | .nodes ns => .object [("nodes", .array (ns.map NodeId.toJson))]
  | .components is => .object [("components", .array (is.map InstanceId.toJson))]
  | .array items => .array (itemsToJson items)

def itemsToJson : List ResultSet → List Json
  | [] => []
  | r :: rest => toJson r :: itemsToJson rest

end

/-- The result set serialized: the JSON of its context. -/
def serialized (r : ResultSet) : Json := r.toContext.toJson

mutual

/-- Whether there is any handle. -/
def nonempty : ResultSet → Bool
  | .null => false
  | .nodes ns => !ns.isEmpty
  | .components is => !is.isEmpty
  | .array items => anyNonempty items

def anyNonempty : List ResultSet → Bool
  | [] => false
  | r :: rest => r.nonempty || anyNonempty rest

end

mutual

/-- The number of nodes, a collection of components counting as one unless it is empty. -/
def count : ResultSet → Nat
  | .null => 0
  | .nodes ns => ns.length
  | .components is => if is.isEmpty then 0 else 1
  | .array items => countAll items

def countAll : List ResultSet → Nat
  | [] => 0
  | r :: rest => r.count + countAll rest

end

mutual

/-- The leaves from left to right. -/
def leaves : ResultSet → List ResultSet
  | .array items => leavesOfAll items
  | leaf => [leaf]

def leavesOfAll : List ResultSet → List ResultSet
  | [] => []
  | r :: rest => leaves r ++ leavesOfAll rest

end

mutual

/-- A result set and the context it serves as are written alike. -/
theorem toContext_toJson : (r : ResultSet) → r.toContext.toJson = r.toJson
  | .null => rfl
  | .nodes [] => rfl
  | .nodes [_] => rfl
  | .nodes (_ :: _ :: _) => rfl
  | .components _ => rfl
  | .array items => by
    rw [toContext, toJson, Context.toJson, itemsToContext_toJson items]

theorem itemsToContext_toJson :
    (items : List ResultSet) → Context.itemsToJson (itemsToContext items) = itemsToJson items
  | [] => rfl
  | r :: rest => by
    rw [itemsToContext, itemsToJson, Context.itemsToJson, toContext_toJson r,
      itemsToContext_toJson rest]

end

end ResultSet

/-- What a fetch comes to: results of a query or the value of a function. -/
inductive Outcome where
  | results (results : ResultSet)
  | value (value : Json)
  deriving Repr

end PageQuery
