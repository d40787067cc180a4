/-
# The command line

A command reads its settings, then the page, then the fetcher, and writes one text. What it reads comes
from its surroundings, so that the same definition runs on a disk and on a table of files.

Key definitions: `Surroundings`, `CommandError`, `Invocation.run`, `Report`, `runCommandLine`.
-/
import PageQuery.Command.Help
import PageQuery.Command.Settings
import PageQuery.Engine.Basic
import PageQuery.Fixture.Page
import PageQuery.Fixture.Source

namespace PageQuery

/-- What a command may ask of the place it runs at. -/
structure Surroundings (m : Type → Type) where
  /-- The text of a file, if it can be read. -/
  read? : String → m (Option String)
  isFile : String → m Bool
  home? : Option String

/-- Why a command fails. -/
inductive CommandError where
  | unreadableSettings (path : String)
  | invalidSettings (path : String)
  | unreadablePage (path : String)
  | invalidPage (path : String)
  | unreadableFetcher (path : String)
  | invalidFetcher
  | selector (error : SelectorError)
  | query (error : QueryError)
  /-- Values of functions led to further fetches beyond the limit. -/
  | exhausted
  deriving DecidableEq, Repr

namespace CommandError

def message : CommandError → String
  | .unreadableSettings path => "Cannot read " ++ path
  | .invalidSettings path => "Invalid config in " ++ path
  | .unreadablePage path => "Failed to read page fixture " ++ path
  | .invalidPage path => "Invalid page fixture " ++ path
  | .unreadableFetcher path => "Failed to read fetcher " ++ path
  | .invalidFetcher => "Invalid fetcher JSON"
  | .selector e => e.message
  | .query e => e.message
  | .exhausted => "Function results nest too deep"

def ofHalt : Halt → CommandError
  | .error e => .query e
  | .exhausted => .exhausted

end CommandError

namespace Outcome

/-- What was found, or the value of a call. -/
def toJson : Outcome → Json
  | .results found => found.toJson
  | .value v => v

end Outcome

namespace CommandSettings

/-- The text of a value in the output. -/
def write (s : CommandSettings) (value : Json) : String :=
  if s.pretty then value.indented else value.compact

end CommandSettings

namespace Surroundings

variable {m : Type → Type} [Monad m] (here : Surroundings m)

/-- What a file holds. A text that `read` refuses is `invalid`. -/
def load {α : Type} (path : String) (unreadable invalid : CommandError) (read : String → Option α) :
    ExceptT CommandError m α := do
  match ← here.read? path with
  | none => throw unreadable
  | some text =>
    match read text with
    | none => throw invalid
    | some a => return a

/-- The first of the places at which there is a file. -/
def firstFile? : List String → m (Option String)
  | [] => pure none
  | path :: rest => do if ← here.isFile path then return some path else firstFile? rest

def settingsAt (path : String) : ExceptT CommandError m CommandSettings :=
  here.load path (.unreadableSettings path) (.invalidSettings path) CommandSettings.parse?

/-- The settings: of the file that is named, else of the first usual place, else the default. -/
def settings (named? : Option String) : ExceptT CommandError m CommandSettings := do
  match named? with
  | some path => here.settingsAt path
  | none =>
    match ← here.firstFile? (CommandSettings.places here.home?) with
    | some path => here.settingsAt path
    | none => return .default

def page (path : String) : ExceptT CommandError m FixturePage := do
  let fixture ← here.load path (.unreadablePage path) (.invalidPage path)
    (Fixture.parse? (.ofPath path))
  match fixture.load with
  | .ok page => return page
  | .error _ => throw (.invalidPage path)

def fetcher : FetcherSource → ExceptT CommandError m Fetcher
  | .inline text =>
    match (Json.parse? text).bind Fetcher.ofJson? with
    | some fetcher => return fetcher
    | none => throw .invalidFetcher
  | .file path =>
    here.load path (.unreadableFetcher path) .invalidFetcher fun text =>
      (Json.parse? text).bind Fetcher.ofJson?

end Surroundings

/-- A selector's segments as JSON. -/
def segmentsJson (selector : String) : Except CommandError Json :=
  ((Selector.parse selector).mapError CommandError.selector).map fun s =>
    .array (s.segments.map Segment.toJson)

/-- What a fetcher finds on a page, as JSON. -/
def fetchJson (page : FixturePage) (config : EngineConfig) (fetcher : Fetcher) :
    Except CommandError Json :=
  (((Engine.ofPage page.toPage config).fetch 0 fetcher).1.mapError CommandError.ofHalt).map
    Outcome.toJson

namespace Invocation

variable {m : Type → Type} [Monad m]

/-- The text that an action writes, each line ended. -/
def perform (here : Surroundings m) (settings : CommandSettings) :
    Action → ExceptT CommandError m String
  | .parse selector => do
    let value ← ExceptT.mk (pure (segmentsJson selector))
    return settings.write value ++ "\n"
  | .render path => do
    let page ← here.page path
    return page.markup ++ "\n"
  | .fetch path source => do
    let page ← here.page path
    let fetcher ← here.fetcher source
    let value ← ExceptT.mk (pure (fetchJson page settings.engine fetcher))
    return settings.write value ++ "\n"
  | .functions => return String.join (Functions.builtin.names.map (· ++ "\n"))

/-- The text that an invocation writes. -/
def run (here : Surroundings m) (i : Invocation) : ExceptT CommandError m String := do
  let settings ← here.settings i.settings?
  perform here settings i.action

end Invocation

/-- How a run of the program ends. -/
structure Report where
  code : Nat
  output : String
  complaint? : Option String
  deriving DecidableEq, Repr

namespace Report

def success (output : String) : Report := ⟨0, output, none⟩

/-- A command failed. -/
def failure (e : CommandError) : Report := ⟨1, "", some ("Error: " ++ e.message)⟩

/-- The arguments make no sense. -/
def misuse (e : UsageError) : Report := ⟨2, "", some ("error: " ++ e.message)⟩

def ofInterruption : Interruption → Report
  | .help command? => success (helpText command? ++ "\n")
  | .version => success (versionText ++ "\n")
  | .misuse e => misuse e

end Report

/-- What the program does with its arguments. -/
def runCommandLine {m : Type → Type} [Monad m] (here : Surroundings m) (args : List String) :
    m Report :=
  match Arguments.read args with
  | .error i => pure (.ofInterruption i)
  | .ok i => do
    match ← (i.run here).run with
    | .ok output => return .success output
    | .error e => return .failure e

end PageQuery
