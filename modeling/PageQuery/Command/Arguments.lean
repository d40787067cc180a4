/-
# Arguments of the command line

The first argument that is no option names a command; the arguments behind it are the command's. An
option has a long name, and its value stands behind an equals sign or is the next argument. An
argument that begins with a dash is no value, unless it is the dash alone; behind two dashes every
argument stands for itself. No option may stand twice, and a path is never empty.

The file with settings may be named before the command and behind it; behind it counts.

Asking for help or for the version takes effect where it stands, before what follows is looked at.

Key definitions: `Action`, `Invocation`, `UsageError`, `Arguments.read`.
-/
import PageQuery.Json.Basic

namespace PageQuery

/-- Where a fetcher is written. -/
inductive FetcherSource where
  | inline (text : String)
  | file (path : String)
  deriving DecidableEq, Repr

/-- The commands. -/
inductive CommandName where
  | parse
  | render
  | fetch
  | functions
  deriving DecidableEq, Repr

/-- What a command is to do. -/
inductive Action where
  | parse (selector : String)
  | render (page : String)
  | fetch (page : String) (fetcher : FetcherSource)
  | functions
  deriving DecidableEq, Repr

structure Invocation where
  settings? : Option String
  action : Action
  deriving DecidableEq, Repr

/-- Why arguments make no sense. -/
inductive UsageError where
  | unknownOption (arg : String)
  | unexpectedArgument (arg : String)
  | unexpectedValue (option : String)
  | missingValue (option : String)
  | repeatedOption (option : String)
  | emptyPath (option : String)
  | missingOption (option : String)
  | missingArgument (name : String)
  | missingCommand
  | unknownCommand (name : String)
  | bothFetchers
  deriving DecidableEq, Repr

/-- What ends the reading of arguments early. -/
inductive Interruption where
  | help (command? : Option CommandName)
  | version
  | misuse (error : UsageError)
  deriving DecidableEq, Repr

namespace CommandName

def text : CommandName → String
  | .parse => "parse"
  | .render => "render"
  | .fetch => "fetch"
  | .functions => "functions"

def all : List CommandName := [.parse, .render, .fetch, .functions]

def ofText? (name : String) : Option CommandName := all.find? fun c => c.text == name

/-- The options of a command that take a value. -/
def options : CommandName → List String
  | .parse => ["config"]
  | .render => ["config", "page"]
  | .fetch => ["config", "page", "fetcher", "fetcher-file"]
  | .functions => ["config"]

/-- How many arguments of its own a command takes. -/
def arity : CommandName → Nat
  | .parse => 1
  | _ => 0

end CommandName

namespace UsageError

def message : UsageError → String
  | .unknownOption arg => "unexpected argument '" ++ arg ++ "' found"
  | .unexpectedArgument arg => "unexpected argument '" ++ arg ++ "' found"
  | .unexpectedValue option => "unexpected value for '--" ++ option ++ "' found"
  | .missingValue option => "a value is required for '--" ++ option ++ "' but none was supplied"
  | .repeatedOption option => "the argument '--" ++ option ++ "' cannot be used multiple times"
  | .emptyPath option => "a value is required for '--" ++ option ++ "' but none was supplied"
  | .missingOption option => "the following required arguments were not provided: --" ++ option
  | .missingArgument name => "the following required arguments were not provided: " ++ name
  | .missingCommand => "a subcommand is required but one was not provided"
  | .unknownCommand name => "unrecognized subcommand '" ++ name ++ "'"
  | .bothFetchers => "the argument '--fetcher' cannot be used with '--fetcher-file'"

end UsageError

namespace Arguments

/-- What an argument looks like. -/
inductive Form where
  /-- Two dashes. -/
  | separator
  | long (name : String) (value? : Option String)
  | short (flag : Char)
  | plain
  deriving DecidableEq, Repr

def formOf (arg : String) : Form :=
  match arg.toList with
  | ['-', '-'] => .separator
  | '-' :: '-' :: body =>
    let name := String.ofList (body.takeWhile (· ≠ '='))
    match body.dropWhile (· ≠ '=') with
    | [] => .long name none
    | _ :: value => .long name (some (String.ofList value))
  | '-' :: flag :: _ => .short flag
  | _ => .plain

/-- What was read so far. -/
structure Collected where
  options : List (String × String)
  arguments : List String
  deriving DecidableEq, Repr

def Collected.empty : Collected := ⟨[], []⟩

/-- Options whose value is a path. -/
def isPath (option : String) : Bool := option ≠ "fetcher"

/-- Takes an option with its value. -/
def Collected.addOption (c : Collected) (name value : String) : Except Interruption Collected :=
  if (Fields.find? name c.options).isSome then .error (.misuse (.repeatedOption name))
  else if isPath name && value.isEmpty then .error (.misuse (.emptyPath name))
  else .ok { c with options := c.options ++ [(name, value)] }

/-- Takes an argument that is no option, of which there may be so many. -/
def Collected.addArgument (arity : Nat) (c : Collected) (arg : String) :
    Except Interruption Collected :=
  if c.arguments.length < arity then .ok { c with arguments := c.arguments ++ [arg] }
  else .error (.misuse (.unexpectedArgument arg))

/-- Takes an option without an attached value; the next argument must be its value. -/
def awaited (c : Collected) (name : String) : Option String → Except Interruption Collected
  | none => .error (.misuse (.missingValue name))
  | some value =>
    if formOf value = .plain then c.addOption name value
    else .error (.misuse (.missingValue name))

/-- The arguments behind a command's name. -/
def collect (command : CommandName) (c : Collected) : List String → Except Interruption Collected
  | [] => .ok c
  | arg :: rest =>
    match formOf arg with
    | .separator => rest.foldlM (Collected.addArgument command.arity) c
    | .plain => do collect command (← c.addArgument command.arity arg) rest
    | .short flag =>
      .error (if flag = 'h' then .help (some command) else .misuse (.unknownOption arg))
    | .long name value? =>
      if name = "help" then
        .error (if value?.isSome then .misuse (.unexpectedValue name) else .help (some command))
      else if command.options.contains name then
        match value?, rest with
        | some value, rest => do collect command (← c.addOption name value) rest
        | none, value :: rest => do collect command (← awaited c name (some value)) rest
        | none, [] => awaited c name none
      else .error (.misuse (.unknownOption arg))

/-- The value of an option that must be written. -/
def required (c : Collected) (name : String) : Except Interruption String :=
  match Fields.find? name c.options with
  | some value => .ok value
  | none => .error (.misuse (.missingOption name))

/-- The action that a command's arguments ask for. -/
def action (command : CommandName) (c : Collected) : Except Interruption Action :=
  match command with
  | .functions => .ok .functions
  | .render => (required c "page").map .render
  | .parse =>
    match c.arguments with
    | selector :: _ => .ok (.parse selector)
    | [] => .error (.misuse (.missingArgument "<SELECTOR>"))
  | .fetch =>
    match required c "page" with
    | .error e => .error e
    | .ok page =>
      match Fields.find? "fetcher" c.options, Fields.find? "fetcher-file" c.options with
      | some _, some _ => .error (.misuse .bothFetchers)
      | some text, none => .ok (.fetch page (.inline text))
      | none, some path => .ok (.fetch page (.file path))
      | none, none => .error (.misuse (.missingOption "fetcher"))

/-- The invocation that a command's arguments ask for, behind a file with settings. -/
def invocation (settings? : Option String) (command : CommandName) (args : List String) :
    Except Interruption Invocation :=
  match collect command .empty args with
  | .error e => .error e
  | .ok c => (action command c).map fun action =>
      ⟨(Fields.find? "config" c.options).or settings?, action⟩

/-- The command whose help is asked for. -/
def helpFor : List String → Interruption
  | [] => .help none
  | name :: rest =>
    match CommandName.ofText? name, rest with
    | some command, [] => .help (some command)
    | some _, other :: _ => .misuse (.unknownCommand other)
    | none, _ => if name = "help" && rest.isEmpty then .help none else .misuse (.unknownCommand name)

/-- The arguments up to the command's name, and from there on. -/
def readFrom (c : Collected) : List String → Except Interruption Invocation
  | [] => .error (.misuse .missingCommand)
  | arg :: rest =>
    match formOf arg with
    | .separator =>
      match rest with
      | [] => .error (.misuse .missingCommand)
      | other :: _ => .error (.misuse (.unexpectedArgument other))
    | .plain =>
      match CommandName.ofText? arg with
      | some command => invocation (Fields.find? "config" c.options) command rest
      | none =>
        .error (if arg = "help" then helpFor rest else .misuse (.unknownCommand arg))
    | .short flag =>
      .error (if flag = 'h' then .help none else if flag = 'V' then .version
        else .misuse (.unknownOption arg))
    | .long name value? =>
      if name = "help" || name = "version" then
        .error (if value?.isSome then .misuse (.unexpectedValue name)
          else if name = "help" then .help none else .version)
      else if name = "config" then
        match value?, rest with
        | some value, rest => do readFrom (← c.addOption name value) rest
        | none, value :: rest => do readFrom (← awaited c name (some value)) rest
        | none, [] => .error (.misuse (.missingValue name))
      else .error (.misuse (.unknownOption arg))

/-- What an argument list asks for. -/
def read (args : List String) : Except Interruption Invocation := readFrom .empty args

end Arguments

end PageQuery
