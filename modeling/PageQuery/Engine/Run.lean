/-
# Runs

A run is a computation on a page, with a configuration, at some moment. It keeps the identities and
parses it came across and the highlight overlay. It may halt, with an error or because it went round
too often; what it did until then stays done.

Key definitions: `Setting`, `Progress`, `Halt`, `Run`, `Run.ofSearch`, `TerminalFunction`.
-/
import PageQuery.Component.Search
import PageQuery.Engine.Config
import PageQuery.Engine.Overlay
import PageQuery.Query.ResultSet
import PageQuery.Selector.Cache

namespace PageQuery

/-- What stays the same throughout a run. -/
structure Setting where
  page : Page
  matcher : PropertyMatcher
  config : EngineConfig
  /-- Milliseconds on the clock of the overlay. -/
  now : Nat

/-- What a run leaves behind. -/
structure Progress where
  identities : Identities
  selectors : SelectorCache
  overlay : Overlay
  deriving DecidableEq, Repr

/-- Why a run ends without an outcome. -/
inductive Halt where
  | error (error : QueryError)
  /-- Values of functions led to further fetches beyond the limit. -/
  | exhausted
  deriving DecidableEq, Repr

abbrev Run (α : Type) := ExceptT Halt (StateM Progress) α

namespace Run

def fail {α : Type} (e : QueryError) : Run α := throw (.error e)

/-- A computation that asks for identities. -/
def ofIdentified {α : Type} (s : StateM Identities α) : Run α := fun p =>
  let (a, identities) := s p.identities
  (.ok a, { p with identities })

/-- A search. -/
def ofSearch {α : Type} (s : Search α) : Run α := fun p =>
  let (r, identities) := s p.identities
  (r.mapError .error, { p with identities })

/-- A search of the document. -/
def ofDocument {α : Type} (r : Except SearchError α) : Run α :=
  match r with
  | .ok a => pure a
  | .error e => fail (.search e)

/-- The parse of a selector, kept for the next time. -/
def parse (selector : String) : Run Selector := fun p =>
  let (r, selectors) := p.selectors.getOrParse selector
  match r with
  | .ok (_, parsed) => (.ok parsed, { p with selectors })
  | .error e => (.error (.error (.selector e)), { p with selectors })

/-- A step of the overlay. -/
def onOverlay {α : Type} (step : Overlay → α × Overlay) : Run α := fun p =>
  let (a, overlay) := step p.overlay
  (.ok a, { p with overlay })

end Run

/-- A function that ends a chain of queries: it makes a value of what was found and of arguments. -/
abbrev TerminalFunction := Setting → ResultSet → List Json → Run Json

end PageQuery
