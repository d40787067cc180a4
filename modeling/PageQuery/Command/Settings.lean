/-
# Settings of the command line

Settings are a YAML mapping with a part for the engine and a part for the output; any part may be left
out. They come from the file that is named, else from the first of the usual places that has one.

Key definitions: `CommandSettings`, `CommandSettings.parse?`, `CommandSettings.places`.
-/
import PageQuery.Engine.Config
import PageQuery.Yaml.Reader

namespace PageQuery

namespace HighlightStyle

/-- The style that a YAML mapping stands for. -/
def ofYaml? (node : YamlNode) : Option HighlightStyle := do
  match ← node.parts? partNames with
  | [fill, border, zIndex, timeout] =>
    let fill ← YamlNode.withDefault default.fill YamlNode.string? fill
    let border ← YamlNode.withDefault default.border YamlNode.string? border
    let zIndex ← YamlNode.withDefault default.zIndex YamlNode.int64? zIndex
    let timeout? ← YamlNode.optional YamlNode.nat64? timeout
    return ⟨fill, border, zIndex, timeout?⟩
  | _ => none

end HighlightStyle

namespace EngineConfig

/-- A list of strings in YAML. -/
def stringsOfYaml? (node : YamlNode) : Option (List String) :=
  node.items?.bind fun items => items.mapM YamlNode.string?

/-- The configuration that a YAML mapping stands for. -/
def ofYaml? (node : YamlNode) : Option EngineConfig := do
  match ← node.parts? partNames with
  | [allow, controls, highlight] =>
    let allow ← YamlNode.withDefault default.allowComponentResults YamlNode.bool? allow
    let controls ← YamlNode.withDefault default.interactionControls stringsOfYaml? controls
    let highlight ← YamlNode.withDefault default.highlight HighlightStyle.ofYaml? highlight
    return ⟨allow, controls, highlight⟩
  | _ => none

end EngineConfig

structure CommandSettings where
  engine : EngineConfig
  /-- Whether JSON is written over several lines. -/
  pretty : Bool
  deriving DecidableEq, Repr

namespace CommandSettings

def default : CommandSettings where
  engine := .default
  pretty := true

/-- Whether the output is over several lines, from the settings' part for the output. -/
def prettyOfYaml? (node : YamlNode) : Option Bool := do
  match ← node.parts? ["pretty"] with
  | [pretty] => YamlNode.withDefault default.pretty YamlNode.bool? pretty
  | _ => none

/-- The settings that a YAML document stands for. -/
def ofYaml? (node : YamlNode) : Option CommandSettings := do
  match ← node.parts? ["engine", "output"] with
  | [engine, output] =>
    let engine ← YamlNode.withDefault default.engine EngineConfig.ofYaml? engine
    let pretty ← YamlNode.withDefault default.pretty prettyOfYaml? output
    return ⟨engine, pretty⟩
  | _ => none

/-- The settings that a text stands for. -/
def parse? (text : String) : Option CommandSettings := (Yaml.parse? text).bind ofYaml?

/-- Where settings are looked for: in the working directory, then below the home directory. -/
def places (home? : Option String) : List String :=
  "specview.yaml" :: (home?.map (· ++ "/.specview/config.yaml")).toList

end CommandSettings

end PageQuery
