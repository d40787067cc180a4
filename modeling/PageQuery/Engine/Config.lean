/-
# Engine configuration

Every setting has a default, so that any part may be left unwritten.

Key definitions: `EngineConfig`, `HighlightStyle`, `EngineConfig.default`, `EngineConfig.ofJson?`.
-/
import PageQuery.Json.Record

namespace PageQuery

/-- The looks of a highlight and the time it stays. -/
structure HighlightStyle where
  fill : String
  border : String
  zIndex : Int
  /-- Milliseconds, for highlights without a time of their own. -/
  timeout? : Option Nat
  deriving DecidableEq, Repr

structure EngineConfig where
  /-- Whether the outermost query may end in a component segment. -/
  allowComponentResults : Bool
  /-- Selectors tried in order for the element of a component to interact with. -/
  interactionControls : List String
  highlight : HighlightStyle
  deriving DecidableEq, Repr

namespace HighlightStyle

def default : HighlightStyle where
  fill := "rgba(255, 170, 0, 0.5)"
  border := "rgba(255, 170, 0, 0.7)"
  zIndex := 100000
  timeout? := none

def toJson (s : HighlightStyle) : Json :=
  .object [("border", .string s.border), ("default_timeout_ms", .ofOption .ofNat s.timeout?),
    ("fill", .string s.fill), ("z_index", .ofInt s.zIndex)]

/-- The parts of a style, in declared order. -/
def partNames : List String := ["fill", "border", "z_index", "default_timeout_ms"]

def ofJson? (v : Json) : Option HighlightStyle := do
  match ← v.parts? false partNames with
  | [fill, border, zIndex, timeout] =>
    let fill ← Json.withDefault default.fill Json.string? fill
    let border ← Json.withDefault default.border Json.string? border
    let zIndex ← Json.withDefault default.zIndex Json.int64? zIndex
    let timeout? ← Json.optional Json.nat64? timeout
    return ⟨fill, border, zIndex, timeout?⟩
  | _ => none

end HighlightStyle

namespace EngineConfig

def default : EngineConfig where
  allowComponentResults := false
  interactionControls := ["textarea", "input", "button", "select"]
  highlight := .default

def toJson (c : EngineConfig) : Json :=
  .object [("allow_component_results", .bool c.allowComponentResults),
    ("highlight", c.highlight.toJson),
    ("interaction_controls", .array (c.interactionControls.map .string))]

/-- The parts of a configuration, in declared order. -/
def partNames : List String := ["allow_component_results", "interaction_controls", "highlight"]

def ofJson? (v : Json) : Option EngineConfig := do
  match ← v.parts? false partNames with
  | [allow, controls, highlight] =>
    let allow ← Json.withDefault default.allowComponentResults Json.bool? allow
    let controls ←
      Json.withDefault default.interactionControls (Json.listOf? Json.string?) controls
    let highlight ← Json.withDefault default.highlight HighlightStyle.ofJson? highlight
    return ⟨allow, controls, highlight⟩
  | _ => none

end EngineConfig

end PageQuery
