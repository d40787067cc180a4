/-
# Fetches that read a clock

A fetch reads the clock when it drops the markers that have expired, and once more in front of each call of
a function. So every call runs at a moment of its own, and the fetch keeps how often the clock was read.

Key definitions: `Clock`, `Clock.callFunction`, `Clock.resolve`, `Clock.fetchWithin`.
-/
import PageQuery.Engine.Basic

namespace PageQuery

/-- What a clock shows each time it is read, in milliseconds. It never goes back. -/
structure Clock where
  shows : Nat → Nat
  forward : ∀ {k n : Nat}, k ≤ n → shows k ≤ shows n

/-- A run that keeps how often the clock was read. -/
abbrev ClockedRun (α : Type) := StateT Nat Run α

namespace Clock

/-- The clock that stands still. -/
def still (now : Nat) : Clock where
  shows := fun _ => now
  forward := fun _ => Nat.le_refl now

/-- Reads the clock. -/
def read (clock : Clock) : ClockedRun Nat := fun reads => pure (clock.shows reads, reads + 1)

/-- Calls a function by its name, at the moment that the clock shows then. -/
def callFunction (clock : Clock) (setting : Setting) (functions : Functions) (call : FunctionCall)
    (anchor : Anchor) : ClockedRun Json :=
  match functions.find? call.name with
  | none => Run.fail (.unknownFunction call.name)
  | some f => do
    let now ← clock.read
    f { setting with now } (anchor.toInput setting.page.root) call.args

/-- Runs an operation at an anchor. -/
def perform (clock : Clock) (setting : Setting) (functions : Functions) (allowComponents : Bool)
    (operation : Operation) (anchor : Anchor) : ClockedRun Outcome :=
  match operation with
  | .query query => do
    let results ← Engine.executeQuery setting allowComponents query anchor
    return .results results
  | .call call => do
    let value ← clock.callFunction setting functions call anchor
    return .value value

/-- An outcome as an anchor, values being read again by `reread`. -/
def anchorOf (reread : Json → ClockedRun Anchor) : Outcome → ClockedRun Anchor
  | .results results => pure (.ofResults results)
  | .value value => reread value

mutual

/-- Makes a context an anchor. Inner queries may end in components. -/
def normalizeBy (clock : Clock) (setting : Setting) (functions : Functions)
    (reread : Json → ClockedRun Anchor) : Context → ClockedRun Anchor
  | .null => pure .null
  | .root true => pure .root
  | .root false => Run.fail .notRoot
  | .node n => pure (.nodes [n])
  | .nodes ns => pure (.nodes ns)
  | .components is => pure (.components is)
  | .array items => do
    let anchors ← normalizeEachBy clock setting functions reread items
    return .array anchors
  | .fetcher context operation => do
    let anchor ← normalizeBy clock setting functions reread context
    let outcome ← clock.perform setting functions true operation anchor
    anchorOf reread outcome

def normalizeEachBy (clock : Clock) (setting : Setting) (functions : Functions)
    (reread : Json → ClockedRun Anchor) : List Context → ClockedRun (List Anchor)
  | [] => pure []
  | c :: rest => do
    let anchor ← normalizeBy clock setting functions reread c
    let anchors ← normalizeEachBy clock setting functions reread rest
    return anchor :: anchors

end

/-- Makes the value of a function an anchor, which may nest so many times. -/
def reread (clock : Clock) (setting : Setting) (functions : Functions) : Nat → Json → ClockedRun Anchor
  | 0, _ => (throw .exhausted : Run Anchor)
  | limit + 1, value =>
    match Context.ofJson? value with
    | none => Run.fail (.notAContext value)
    | some context => clock.normalizeBy setting functions (reread clock setting functions limit) context

/-- Resolves a fetcher. -/
def resolve (clock : Clock) (setting : Setting) (functions : Functions) (limit : Nat) (fetcher : Fetcher) :
    ClockedRun Outcome := do
  let anchor ← clock.normalizeBy setting functions (clock.reread setting functions limit) fetcher.context
  clock.perform setting functions setting.config.allowComponentResults fetcher.operation anchor

/-- Resolves a fetcher on the page; values of functions may nest so many times. The clock is read for the
markers first. -/
def fetchWithin (clock : Clock) (engine : Engine) (limit : Nat) (fetcher : Fetcher) :
    Except Halt Outcome × Engine :=
  let now := clock.shows 0
  let run := clock.resolve (engine.settingAt now) engine.functions limit fetcher
  let (outcome, progress) := run 1 (engine.start now)
  (outcome.map (·.1), { engine with selectors := progress.selectors, overlay := progress.overlay })

/-- Resolves a fetcher on the page. -/
def fetch (clock : Clock) (engine : Engine) (fetcher : Fetcher) : Except Halt Outcome × Engine :=
  clock.fetchWithin engine Engine.rereadLimit fetcher

end Clock

end PageQuery
