/-
# The engine

A fetcher is resolved in two steps: its context becomes an anchor, inner fetchers being resolved
first, and then its query or function runs there. A query maps over the arrays of its anchor, and one
that asks for all of its results adds a level.

The value of a function can be a context if it has the shape of one. It is read again as JSON and
made into an anchor in turn; as it may hold fetchers, there is a limit to how often this nests.

Key definitions: `Anchor`, `Engine`, `Engine.fetch`, `Engine.resolve`, `Engine.runQuery`.
-/
import PageQuery.Engine.Functions

namespace PageQuery

/-- Where a query runs. -/
inductive Anchor where
  | root
  | null
  | nodes (nodes : List NodeId)
  | components (components : List InstanceId)
  | array (items : List Anchor)
  deriving Repr

/-- What the segments of a selector have led to so far. -/
inductive Reached where
  | root
  | nodes (nodes : List NodeId)
  | components (components : List InstanceId)
  deriving DecidableEq, Repr

namespace Anchor

mutual

/-- The results of a query as the anchor of the next. -/
def ofResults : ResultSet → Anchor
  | .null => .null
  | .nodes ns => .nodes ns
  | .components is => .components is
  | .array items => .array (ofEachResult items)

def ofEachResult : List ResultSet → List Anchor
  | [] => []
  | r :: rest => ofResults r :: ofEachResult rest

end

mutual

/-- An anchor as the input of a function, which sees the root as a node. -/
def toInput (root : NodeId) : Anchor → ResultSet
  | .root => .node root
  | .null => .null
  | .nodes ns => .nodes ns
  | .components is => .components is
  | .array items => .array (toEachInput root items)

def toEachInput (root : NodeId) : List Anchor → List ResultSet
  | [] => []
  | a :: rest => toInput root a :: toEachInput root rest

end

end Anchor

/-- An engine on a page. -/
structure Engine where
  page : Page
  matcher : PropertyMatcher
  config : EngineConfig
  functions : Functions
  selectors : SelectorCache
  overlay : Overlay

namespace Engine

def ofPage (page : Page) (config : EngineConfig) : Engine where
  page := page
  matcher := Predicate.matches
  config := config
  functions := .builtin
  selectors := .empty
  overlay := .empty

/-! ### Queries -/

/-- The nodes that a selector finds from each of some nodes, ascending. -/
def searchNodes (setting : Setting) (selector : String) (nodes : List NodeId) :
    Run (List NodeId) := do
  let found ← Run.ofDocument (setting.page.searchFromEach selector nodes)
  return NodeId.ascending found

/-- Where one segment leads. -/
def runSegment (setting : Setting) (segment : Segment) (reached : Reached) : Run Reached :=
  let page := setting.page
  match segment, reached with
  | .structural selector, .root => do
    let found ← Run.ofDocument (page.search page.root selector)
    return .nodes found
  | .structural selector, .nodes nodes => do
    let found ← searchNodes setting selector nodes
    return .nodes found
  | .structural selector, .components components => do
    let found ← Run.ofSearch (page.searchWithin components selector)
    return .nodes found
  | .component query, .root => do
    let found ← Run.ofSearch (page.findDescendants setting.matcher .everywhere query)
    return .components found
  | .component query, .nodes nodes => do
    let found ← Run.ofSearch (page.findBelowNodes setting.matcher nodes query)
    return .components found
  | .component query, .components components => do
    let found ← Run.ofSearch (page.findDescendants setting.matcher (.below components) query)
    return .components found

/-- Where segments lead one after another. -/
def runSegments (setting : Setting) : List Segment → Reached → Run Reached
  | [], reached => pure reached
  | segment :: rest, reached => do
    let next ← runSegment setting segment reached
    runSegments setting rest next

/-- What was reached, one by one. -/
def itemsOf (root : NodeId) : Reached → List ResultSet
  | .root => [.node root]
  | .nodes nodes => nodes.map .node
  | .components components => components.map .component

/-- The item at an index, which counts from the end if it is negative. -/
def itemAt (items : List ResultSet) (index : Int) : ResultSet :=
  let place := if index < 0 then items.length + index else index
  if place < 0 then .null else (items[place.toNat]?).getD .null

/-- The first item, all of them or the one at an index, as the query asks. -/
def shape (query : Query) (items : List ResultSet) : ResultSet :=
  if query.multi then
    match query.at? with
    | none => .array items
    | some index => itemAt items index
  else items.head?.getD .null

/-- Runs the segments from one place. -/
def runFrom (setting : Setting) (query : Query) (selector : Selector) (start : Reached) :
    Run ResultSet := do
  let reached ← runSegments setting selector.segments start
  return shape query (itemsOf setting.page.root reached)

mutual

/-- Runs a query at every leaf of an anchor; at null it gives null. -/
def runQuery (setting : Setting) (query : Query) (selector : Selector) : Anchor → Run ResultSet
  | .null => pure .null
  | .root => runFrom setting query selector .root
  | .nodes nodes => runFrom setting query selector (.nodes nodes)
  | .components components => runFrom setting query selector (.components components)
  | .array items => do
    let results ← runQueryEach setting query selector items
    return .array results

def runQueryEach (setting : Setting) (query : Query) (selector : Selector) :
    List Anchor → Run (List ResultSet)
  | [] => pure []
  | a :: rest => do
    let result ← runQuery setting query selector a
    let results ← runQueryEach setting query selector rest
    return result :: results

end

/-- Runs a query that may stand where it does. At null nothing is even parsed. -/
def executeQuery (setting : Setting) (allowComponents : Bool) (query : Query) (anchor : Anchor) :
    Run ResultSet :=
  match anchor with
  | .null => pure .null
  | _ => do
    let selector ← Run.parse query.selector
    if !allowComponents && selector.endsInComponent then
      Run.fail (.componentResult query.selector)
    match query.multi, query.at? with
    | false, some index => Run.fail (.indexOnSingle query.selector index)
    | _, _ => runQuery setting query selector anchor

/-! ### Fetchers -/

/-- Calls a function by its name. -/
def callFunction (setting : Setting) (functions : Functions) (call : FunctionCall)
    (anchor : Anchor) : Run Json :=
  match functions.find? call.name with
  | none => Run.fail (.unknownFunction call.name)
  | some f => f setting (anchor.toInput setting.page.root) call.args

/-- Runs an operation at an anchor. -/
def perform (setting : Setting) (functions : Functions) (allowComponents : Bool)
    (operation : Operation) (anchor : Anchor) : Run Outcome :=
  match operation with
  | .query query => do
    let results ← executeQuery setting allowComponents query anchor
    return .results results
  | .call call => do
    let value ← callFunction setting functions call anchor
    return .value value

/-- An outcome as an anchor, values being read again by `reread`. -/
def anchorOf (reread : Json → Run Anchor) : Outcome → Run Anchor
  | .results results => pure (.ofResults results)
  | .value value => reread value

mutual

/-- Makes a context an anchor. Inner queries may end in components. -/
def normalizeBy (setting : Setting) (functions : Functions) (reread : Json → Run Anchor) :
    Context → Run Anchor
  | .null => pure .null
  | .root true => pure .root
  | .root false => Run.fail .notRoot
  | .node n => pure (.nodes [n])
  | .nodes ns => pure (.nodes ns)
  | .components is => pure (.components is)
  | .array items => do
    let anchors ← normalizeEachBy setting functions reread items
    return .array anchors
  | .fetcher context operation => do
    let anchor ← normalizeBy setting functions reread context
    let outcome ← perform setting functions true operation anchor
    anchorOf reread outcome

def normalizeEachBy (setting : Setting) (functions : Functions) (reread : Json → Run Anchor) :
    List Context → Run (List Anchor)
  | [] => pure []
  | c :: rest => do
    let anchor ← normalizeBy setting functions reread c
    let anchors ← normalizeEachBy setting functions reread rest
    return anchor :: anchors

end

/-- Makes the value of a function an anchor, which may nest so many times. -/
def reread (setting : Setting) (functions : Functions) : Nat → Json → Run Anchor
  | 0, _ => throw .exhausted
  | limit + 1, value =>
    match Context.ofJson? value with
    | none => Run.fail (.notAContext value)
    | some context => normalizeBy setting functions (reread setting functions limit) context

/-- Resolves a fetcher. -/
def resolve (setting : Setting) (functions : Functions) (limit : Nat) (fetcher : Fetcher) :
    Run Outcome := do
  let anchor ← normalizeBy setting functions (reread setting functions limit) fetcher.context
  perform setting functions setting.config.allowComponentResults fetcher.operation anchor

/-- How often values of functions may nest. -/
def rereadLimit : Nat := 1000

/-- What stays the same throughout a fetch. -/
def settingAt (engine : Engine) (now : Nat) : Setting :=
  ⟨engine.page, engine.matcher, engine.config, now⟩

/-- What a fetch starts from: no identities, the parses kept, and the markers still active. -/
def start (engine : Engine) (now : Nat) : Progress :=
  ⟨.empty, engine.selectors, engine.overlay.prune now⟩

/-- Resolves a fetcher on the page at some moment; values of functions may nest so many times. -/
def fetchWithin (engine : Engine) (limit now : Nat) (fetcher : Fetcher) :
    Except Halt Outcome × Engine :=
  let run := resolve (engine.settingAt now) engine.functions limit fetcher
  let (outcome, progress) := run (engine.start now)
  (outcome, { engine with selectors := progress.selectors, overlay := progress.overlay })

/-- Resolves a fetcher on the page at some moment. -/
def fetch (engine : Engine) (now : Nat) (fetcher : Fetcher) : Except Halt Outcome × Engine :=
  engine.fetchWithin rereadLimit now fetcher

end Engine

end PageQuery
