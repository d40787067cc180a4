/-
# Help for the command line

Key definitions: `versionText`, `helpText`.
-/
import PageQuery.Command.Arguments

namespace PageQuery

def versionText : String := "specview 0.1.0"

namespace CommandName

/-- What a command does, in a line. -/
def about : CommandName → String
  | .parse => "Print the segments of a selector as JSON"
  | .render => "Render a page fixture and print its HTML"
  | .fetch => "Run a fetcher against a page fixture"
  | .functions => "List the terminal functions fetchers can call"

/-- How a command is called, behind the name of the program. -/
def usage : CommandName → String
  | .parse => "parse [OPTIONS] <SELECTOR>"
  | .render => "render [OPTIONS] --page <PAGE>"
  | .fetch => "fetch [OPTIONS] --page <PAGE>"
  | .functions => "functions [OPTIONS]"

/-- An option as help shows it, and what it is for. -/
def optionHelp (name : String) : String × String :=
  match name with
  | "config" =>
    ("      --config <CONFIG>",
      "Config file (defaults: ./specview.yaml, then ~/.specview/config.yaml)")
  | "page" => ("      --page <PAGE>", "")
  | "fetcher" => ("      --fetcher <FETCHER>", "Fetcher as inline JSON")
  | _ => ("      --fetcher-file <FETCHER_FILE>", "")

end CommandName

/-- Two columns, the second aligned. -/
def columns (rows : List (String × String)) : List String :=
  let width := rows.foldl (fun w row => max w row.1.length) 0
  rows.map fun row =>
    row.1 ++ String.ofList (List.replicate (width - row.1.length + 2) ' ') ++ row.2

/-- The help for a command, or for the program. -/
def helpText : Option CommandName → String
  | none =>
    String.intercalate "\n"
      (["SpecView selector queries over rendered pages", "", "Usage: specview [OPTIONS] <COMMAND>", "",
          "Commands:"]
        ++ columns ((CommandName.all.map fun c => ("  " ++ c.text, c.about))
          ++ [("  help", "Print this message or the help of the given subcommand(s)")])
        ++ ["", "Options:"]
        ++ columns [CommandName.optionHelp "config", ("  -h, --help", "Print help"),
          ("  -V, --version", "Print version")])
  | some command =>
    let arguments := if command.arity = 0 then [] else ["Arguments:", "  <SELECTOR>  ", ""]
    String.intercalate "\n"
      ([command.about, "", "Usage: specview " ++ command.usage, ""] ++ arguments ++ ["Options:"]
        ++ columns (command.options.map CommandName.optionHelp ++ [("  -h, --help", "Print help")]))

end PageQuery
