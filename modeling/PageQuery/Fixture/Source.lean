/-
# The text of a fixture

A fixture is written in JSON or in YAML. In YAML the fixture itself is a mapping, lists of nodes may
be left empty, and each node is taken for the JSON value it denotes.

A file is written in JSON if its name says so.

Key definitions: `FixtureFormat`, `FixtureFormat.ofPath`, `Fixture.ofYaml?`, `Fixture.parse?`.
-/
import PageQuery.Fixture.Node
import PageQuery.Json.Reader
import PageQuery.Yaml.Reader

namespace PageQuery

inductive FixtureFormat where
  | json
  | yaml
  deriving DecidableEq, Repr

namespace FixtureFormat

/-- The parts of a path between slashes, backwards, without those that lead nowhere. -/
def partsBackwards (path : List Char) : List (List Char) :=
  ((path.splitOn '/').filter fun part => !part.isEmpty && part ≠ ['.']).reverse

/-- What stands behind the last dot of a file's name, unless the name begins with that dot. -/
def extension? (path : List Char) : Option (List Char) :=
  match partsBackwards path with
  | [] => none
  | name :: _ =>
    let back := name.reverse
    match back.dropWhile (· ≠ '.') with
    | _ :: _ :: _ => if name = ['.', '.'] then none else some (back.takeWhile (· ≠ '.')).reverse
    | _ => none

def ofPath (path : String) : FixtureFormat :=
  if extension? path.toList = some "json".toList then .json else .yaml

end FixtureFormat

namespace FixtureNode

/-- The nodes of a list in YAML. -/
def listOfYaml? (node : YamlNode) : Option (List FixtureNode) :=
  node.items?.bind fun items => items.mapM fun item => item.toJson?.bind ofJson?

end FixtureNode

namespace Fixture

/-- The fixture that a YAML document stands for. -/
def ofYaml? (node : YamlNode) : Option Fixture := do
  match ← node.parts? ["markup", "app"] with
  | [markup, app] =>
    let markup ← YamlNode.withDefault [] FixtureNode.listOfYaml? markup
    let app ← YamlNode.withDefault [] FixtureNode.listOfYaml? app
    return ⟨markup, app⟩
  | _ => none

/-- The fixture that a text stands for. -/
def parse? : FixtureFormat → String → Option Fixture
  | .json, text => (Json.parse? text).bind ofJson?
  | .yaml, text => (Yaml.parse? text).bind ofYaml?

end Fixture

end PageQuery
