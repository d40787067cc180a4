/-
# Segments of a selector

A selector is a sequence of segments. A token that begins with `@` is a component segment: a name
and, from the first brace on, a predicate. The tokens between two of those form one structural
segment, joined by single blanks.

Key definitions: `Segment`, `Selector`, `Selector.parse`, `Selector.withProps`.
-/
import PageQuery.Json.Printer
import PageQuery.Selector.Literal.Value
import PageQuery.Selector.Token

namespace PageQuery

/-- A component's name and what its props must satisfy. -/
structure ComponentQuery where
  name : String
  predicate : Predicate
  deriving DecidableEq, Repr

/-- The query for a name alone. -/
def ComponentQuery.named (name : String) : ComponentQuery := ⟨name, .any⟩

inductive Segment where
  | structural (selector : String)
  | component (query : ComponentQuery)
  deriving DecidableEq, Repr

namespace Segment

def isComponent : Segment → Bool
  | .component _ => true
  | .structural _ => false

def toJson : Segment → Json
  | .structural selector =>
    .object [("selector", .string selector), ("type", .string "structural")]
  | .component query =>
    .object [("name", .string query.name), ("predicate", query.predicate.toJson),
      ("type", .string "component")]

end Segment

/-- A parsed selector. -/
structure Selector where
  source : String
  segments : List Segment
  deriving DecidableEq, Repr

namespace Selector

/-- What a token that begins a component segment starts with. -/
def componentMark : Char := '@'

def endsInComponent (s : Selector) : Bool :=
  match s.segments.getLast? with
  | some segment => segment.isComponent
  | none => false

/-- Pieces joined by single blanks. -/
def joinBlank : List (List Char) → List Char
  | [] => []
  | [t] => t
  | t :: rest => t ++ ' ' :: joinBlank rest

/-- The structural segment of a run of tokens; none for an empty run. -/
def structuralRun (run : List (List Char)) : List Segment :=
  if run.isEmpty then [] else [.structural (String.ofList (joinBlank run))]

/-- A component segment from the token's text behind its mark. -/
def componentOf (token body : List Char) : Except SelectorError ComponentQuery :=
  let name := body.takeWhile (· ≠ '{')
  let blocks := body.dropWhile (· ≠ '{')
  if name.isEmpty then .error (.missingComponentName (String.ofList token))
  else if blocks.isEmpty then .ok (.named (String.ofList name))
  else (Predicate.parse (String.ofList blocks)).map fun p => ⟨String.ofList name, p⟩

/-- The segments of a token list, behind a run of structural tokens kept backwards. -/
def segmentsFrom (run : List (List Char)) : List (List Char) → Except SelectorError (List Segment)
  | [] => .ok (structuralRun run.reverse)
  | token :: rest =>
    match token with
    | c :: body =>
      if c = componentMark then
        match componentOf token body with
        | .error e => .error e
        | .ok query =>
          (segmentsFrom [] rest).map fun segments =>
            structuralRun run.reverse ++ .component query :: segments
      else segmentsFrom (token :: run) rest
    | [] => segmentsFrom (token :: run) rest

/-- The segments of a text. -/
def segmentsOf (cs : List Char) : Except SelectorError (List Segment) :=
  match tokenizeChars cs with
  | .error e => .error e
  | .ok [] => .error .empty
  | .ok tokens => segmentsFrom [] tokens

/-- The selector that a text denotes. -/
def parse (text : String) : Except SelectorError Selector :=
  (segmentsOf text.toList).map fun segments => ⟨text, segments⟩

/-- Appends a predicate block to a selector that ends in a component segment. -/
def withProps (selector : String) (props : List (String × Json)) : Except SelectorError String :=
  match parse selector with
  | .error e => .error e
  | .ok parsed =>
    if parsed.endsInComponent then
      .ok (String.ofList (trimEnd selector.toList ++ (Json.object props).chars))
    else .error (.notAComponent selector)

/-- The segments and whether the last one is a component. -/
def toJson (s : Selector) : Json :=
  .object [("ends_in_component", .bool s.endsInComponent),
    ("segments", .array (s.segments.map Segment.toJson))]

end Selector

end PageQuery
