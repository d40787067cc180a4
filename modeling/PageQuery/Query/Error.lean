/-
# Why a fetch fails

That nothing is found is never an error.

Key definitions: `QueryError`, `QueryError.message`.
-/
import PageQuery.Json.Printer
import PageQuery.Page.Basic
import PageQuery.Selector.Error

namespace PageQuery

inductive QueryError where
  | selector (error : SelectorError)
  | search (error : SearchError)
  /-- Props cannot be read from an instance that matched. -/
  | unreadableComponent (name : String) (kind : InstanceKind)
  | multipleInteraction (count : Nat)
  | ambiguousInteraction (count : Nat)
  | unknownFunction (name : String)
  | componentResult (selector : String)
  | indexOnSingle (selector : String) (index : Int)
  | propsOnElement
  | missingPropertyName
  | badTimeout (value : Json)
  /-- A root marker that denies being one. -/
  | notRoot
  /-- A function's value has not the shape of a context. -/
  | notAContext (value : Json)
  deriving DecidableEq, Repr

namespace QueryError

def message : QueryError → String
  | .selector e => "Syntax error: " ++ e.message
  | .search e => "Search failed: " ++ e.message
  | .unreadableComponent name kind =>
    "Component '" ++ name ++ "' is a " ++ kind.name ++ " instance, which cannot be introspected"
  | .multipleInteraction count =>
    "Cannot interact with multiple elements at once (" ++ toString count ++ " candidates)"
  | .ambiguousInteraction count =>
    "Interaction target is ambiguous: " ++ toString count ++ " elements matched"
  | .unknownFunction name => "Unknown query function: " ++ name
  | .componentResult text =>
    "Selector '" ++ text ++ "' ends in a component, which cannot be returned here"
  | .indexOnSingle text index =>
    "Selector '" ++ text ++ "' is not a multi query and cannot be indexed with at=" ++
      toString index
  | .propsOnElement => "Cannot get props from an HTML element"
  | .missingPropertyName => "Invalid argument for prop: expected a property name"
  | .badTimeout value =>
    "Invalid argument for highlight: timeout must be a non-negative integer, got " ++ value.compact
  | .notRoot => "Invalid context: isRoot must be true"
  | .notAContext value =>
    "Invalid context: function result " ++ value.compact ++ " cannot be used as a context"

end QueryError

end PageQuery
