/-
# Fetchers

A fetcher says what to find and where: an operation, which is a query or a function call, in a
context. A context is the root of the page, another fetcher, handles found before, an array of
contexts, or null.

In JSON a fetcher is an object with a `context` beside a `query` or a function name and arguments. A
context is read as the first shape that fits: root marker, fetcher, node, nodes, components, array,
null. Root markers and queries may be arrays of their parts; the others may not.

Key definitions: `Query`, `FunctionCall`, `Operation`, `Context`, `Fetcher`, `Context.toJson`,
`Context.ofJson?`, `Fetcher.ofJson?`.
-/
import PageQuery.Page.Handle

namespace PageQuery

/-- What to find, whether all of it, and which one of all. -/
structure Query where
  selector : String
  multi : Bool
  at? : Option Int
  deriving DecidableEq, Repr

/-- A terminal function and its arguments. -/
structure FunctionCall where
  name : String
  args : List Json
  deriving DecidableEq, Repr

inductive Operation where
  | query (query : Query)
  | call (call : FunctionCall)
  deriving DecidableEq, Repr

/-- Where a fetcher runs. -/
inductive Context where
  | root (isRoot : Bool)
  | fetcher (context : Context) (operation : Operation)
  | node (node : NodeId)
  | nodes (nodes : List NodeId)
  | components (components : List InstanceId)
  | array (items : List Context)
  | null
  deriving Repr

/-- A deferred operation in a context. -/
structure Fetcher where
  context : Context
  operation : Operation
  deriving Repr

namespace Query

def toJson (q : Query) : Json :=
  let tail := [("multi", .bool q.multi), ("selector", .string q.selector)]
  match q.at? with
  | some i => .object (("at", .ofInt i) :: tail)
  | none => .object tail

def ofJson? (v : Json) : Option Query := do
  match ← v.parts? false ["selector", "multi", "at"] with
  | [selector, multi, index] =>
    let selector ← Json.required Json.string? selector
    let multi ← Json.withDefault false Json.bool? multi
    let at? ← Json.optional Json.int64? index
    return ⟨selector, multi, at?⟩
  | _ => none

end Query

namespace Operation

/-- The fields of an operation beside a context, in canonical order around it. -/
def fieldsAround (context : Json) : Operation → List (String × Json)
  | .query q => [("context", context), ("query", q.toJson)]
  | .call c => [("args", .array c.args), ("context", context), ("fn", .string c.name)]

/-- A query among the fields of a fetcher. -/
def queryOf? (fields : List (String × Json)) : Option Operation :=
  ((Json.onlyField? "query" fields).bind Query.ofJson?).map .query

/-- A function call among the fields of a fetcher. -/
def callOf? (fields : List (String × Json)) : Option Operation := do
  match ← Json.fieldParts? false ["fn", "args"] fields with
  | [name, args] =>
    let name ← Json.required Json.string? name
    let args ← Json.withDefault [] Json.array? args
    return .call ⟨name, args.map Json.canonical⟩
  | _ => none

/-- The operation among the fields of a fetcher: a query, if one can be read, or else a call. -/
def ofFields? (fields : List (String × Json)) : Option Operation :=
  (queryOf? fields).or (callOf? fields)

end Operation

namespace Context

mutual

def toJson : Context → Json
  | .root isRoot => .object [("isRoot", .bool isRoot)]
  | .fetcher context operation => .object (operation.fieldsAround (toJson context))
  | .node n => .object [("node", n.toJson)]
  | .nodes ns => .object [("nodes", .array (ns.map NodeId.toJson))]
  | .components is => .object [("components", .array (is.map InstanceId.toJson))]
  | .array items => .array (itemsToJson items)
  | .null => .null

def itemsToJson : List Context → List Json
  | [] => []
  | c :: rest => toJson c :: itemsToJson rest

end

/-- A root marker. -/
def rootOf? (v : Json) : Option Context := do
  match ← v.parts? false ["isRoot"] with
  | [isRoot] => (Json.required Json.bool? isRoot).map .root
  | _ => none

/-- A handle among the fields of an object. -/
def handleOf? (fields : List (String × Json)) : Option Context :=
  (((Json.onlyField? "node" fields).bind NodeId.ofJson?).map .node).or
    ((((Json.onlyField? "nodes" fields).bind (Json.listOf? NodeId.ofJson?)).map .nodes).or
      (((Json.onlyField? "components" fields).bind (Json.listOf? InstanceId.ofJson?)).map
        .components))

/-- A fetcher among the fields of an object, given what its context stands for. -/
def fetcherOf? (fields : List (String × Json)) (inner : Option Context) : Option Context :=
  match Fields.count "context" fields, inner, Operation.ofFields? fields with
  | 1, some context, some operation => some (.fetcher context operation)
  | _, _, _ => none

mutual

/-- The context that a value stands for, if it has the shape of one. -/
def ofJson? : Json → Option Context
  | .null => some .null
  | .array items => (rootOf? (.array items)).or ((ofItems? items).map .array)
  | .object fields =>
    (rootOf? (.object fields)).or
      ((fetcherOf? fields (inFields? fields)).or (handleOf? fields))
  | _ => none

def ofItems? : List Json → Option (List Context)
  | [] => some []
  | v :: rest =>
    match ofJson? v, ofItems? rest with
    | some c, some cs => some (c :: cs)
    | _, _ => none

/-- The context in the first field of that name. -/
def inFields? : List (String × Json) → Option Context
  | [] => none
  | (k, v) :: rest => if k = "context" then ofJson? v else inFields? rest

end

end Context

namespace Fetcher

def toJson (f : Fetcher) : Json := .object (f.operation.fieldsAround f.context.toJson)

/-- A fetcher as a context. -/
def toContext (f : Fetcher) : Context := .fetcher f.context f.operation

/-- The fetcher that a value stands for. -/
def ofJson? : Json → Option Fetcher
  | .object fields =>
    match Context.fetcherOf? fields (Context.inFields? fields) with
    | some (.fetcher context operation) => some ⟨context, operation⟩
    | _ => none
  | _ => none

def isQuery (f : Fetcher) : Bool :=
  match f.operation with
  | .query _ => true
  | .call _ => false

end Fetcher

end PageQuery
