/-
# Terminal functions

The functions at hand by name. Most of them map over the arrays of their input and give a value of
the same shape.

Key definitions: `ResultSet.mapLeaves`, `Functions`, `Functions.builtin`, `Functions.register`.
-/
import PageQuery.Engine.Run

namespace PageQuery

namespace ResultSet

mutual

/-- Gives each leaf its value, from left to right, and keeps the arrays. -/
def mapLeaves (f : ResultSet → Run Json) : ResultSet → Run Json
  | .array items => do
    let values ← mapLeavesOfAll f items
    return .array values
  | leaf => f leaf

def mapLeavesOfAll (f : ResultSet → Run Json) : List ResultSet → Run (List Json)
  | [] => pure []
  | r :: rest => do
    let value ← mapLeaves f r
    let values ← mapLeavesOfAll f rest
    return value :: values

end

end ResultSet

/-- Functions in ascending order of their names. -/
structure Functions where
  entries : List (String × TerminalFunction)

namespace Functions

/-- The nodes of a leaf: those found, or the elements of the components found. -/
def nodesOf? (setting : Setting) : ResultSet → Run (Option (List NodeId))
  | .nodes nodes => pure (some nodes)
  | .components components => do
    let elements ← Run.ofIdentified (setting.page.elementsOfAll components)
    return some elements
  | _ => pure none

/-- The text of each leaf. -/
def text : TerminalFunction := fun setting input _ =>
  input.mapLeaves fun leaf => do
    match ← nodesOf? setting leaf with
    | none => return .null
    | some nodes => return .string (String.join (nodes.map setting.page.text))

/-- Whether anything was found. -/
def existence : TerminalFunction := fun _ input _ => pure (.bool input.nonempty)

/-- How much was found. -/
def count : TerminalFunction := fun _ input _ => pure (.ofNat input.count)

/-- A prop of the first component of each leaf. -/
def prop : TerminalFunction := fun setting input args =>
  match args.head?.bind Json.string? with
  | none => Run.fail .missingPropertyName
  | some key => input.mapLeaves fun leaf =>
    match leaf with
    | .nodes _ => Run.fail .propsOnElement
    | .components (first :: _) => pure (((setting.page.props first).field? key).getD .null)
    | _ => pure .null

/-- The first node that one of the selectors, tried in order, finds in a component. -/
def firstControl (setting : Setting) (component : InstanceId) :
    List String → Run (Option NodeId)
  | [] => pure none
  | control :: rest => do
    match ← Run.ofSearch (setting.page.searchWithin [component] control) with
    | n :: _ => return some n
    | [] => firstControl setting component rest

/-- A control of a component or else its first element. -/
def interactionTarget (setting : Setting) (component : InstanceId) : Run (Option NodeId) := do
  match ← firstControl setting component setting.config.interactionControls with
  | some n => return some n
  | none =>
    let elements ← Run.ofIdentified (setting.page.elementsOf component)
    return elements.head?

/-- The handle of a node, or null. -/
def handle? (n? : Option NodeId) : Json := .ofOption (fun n => (ResultSet.node n).toJson) n?

/-- The one node to interact with. -/
def interactionElement : TerminalFunction := fun setting input _ =>
  match input with
  | .null => pure .null
  | .array items => Run.fail (.multipleInteraction items.length)
  | .nodes [] => pure .null
  | .nodes [n] => pure (handle? (some n))
  | .nodes ns => Run.fail (.ambiguousInteraction ns.length)
  | .components [] => pure .null
  | .components [i] => do
    let target ← interactionTarget setting i
    return handle? target
  | .components is => Run.fail (.multipleInteraction is.length)

/-- The time that a highlight stays; none for good. -/
def timeoutOf (config : EngineConfig) : List Json → Except QueryError (Option Nat)
  | [] | .null :: _ => .ok config.highlight.timeout?
  | v :: _ =>
    match v.nat64? with
    | some ms => .ok (some ms)
    | none => .error (.badTimeout v)

/-- The moment at which a timeout is over. A timeout of zero is as good as none. -/
def deadline? (now : Nat) : Option Nat → Option Nat
  | none => none
  | some 0 => none
  | some ms => some (now + ms)

/-- Marks the box around the nodes of each leaf that has any. -/
def highlight : TerminalFunction := fun setting input args =>
  match timeoutOf setting.config args with
  | .error e => Run.fail e
  | .ok timeout? => do
    let uid ← Run.onOverlay Overlay.nextUid
    let _ ← input.mapLeaves fun leaf => do
      match ← nodesOf? setting leaf with
      | none => return .null
      | some nodes =>
        match Rect.unionAll (nodes.map setting.page.rect) with
        | none => return .null
        | some rect =>
          let style := setting.config.highlight
          Run.onOverlay fun overlay => ((), overlay.add
            { uid, rect, fill := style.fill, border := style.border, zIndex := style.zIndex,
              expires? := deadline? setting.now timeout? })
          return .null
    return .bool true

def builtin : Functions :=
  ⟨[("count", count), ("exists", existence), ("highlight", highlight),
    ("interactionElement", interactionElement), ("prop", prop), ("text", text)]⟩

/-- Puts a function in the place of its name. -/
def register (fs : Functions) (name : String) (f : TerminalFunction) : Functions :=
  ⟨Fields.put name f fs.entries⟩

def find? (fs : Functions) (name : String) : Option TerminalFunction := Fields.find? name fs.entries

/-- The names in ascending order. -/
def names (fs : Functions) : List String := fs.entries.map (·.1)

end Functions

end PageQuery
