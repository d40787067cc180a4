/-
# What can be wrong with a selector

Each cause names the piece of text it was found in.

Key definitions: `SelectorError`, `SelectorError.message`.
-/
import PageQuery.Selector.Literal.Diagnosis

namespace PageQuery

/-- Why a predicate's text has no value. -/
inductive LiteralFault where
  | grammar (diagnosis : Diagnosis)
  | invalidNumber (text : String)
  deriving DecidableEq, Repr

def LiteralFault.message : LiteralFault → String
  | .grammar diagnosis => diagnosis.message
  | .invalidNumber text => "invalid number " ++ text

/-- Why a text is no selector. -/
inductive SelectorError where
  | empty
  | unterminatedQuote (fragment : String)
  | unbalanced (fragment : String)
  | missingComponentName (fragment : String)
  | invalidPredicate (fragment : String) (fault : LiteralFault)
  | notAComponent (selector : String)
  deriving DecidableEq, Repr

def SelectorError.message : SelectorError → String
  | .empty => "Empty selector"
  | .unterminatedQuote fragment => "Unterminated quote in '" ++ fragment ++ "'"
  | .unbalanced fragment => "Unbalanced brackets in '" ++ fragment ++ "'"
  | .missingComponentName fragment => "Missing component name in '" ++ fragment ++ "'"
  | .invalidPredicate fragment fault =>
    "Failed to parse property string " ++ fragment ++ ": " ++ fault.message
  | .notAComponent selector => "Selector '" ++ selector ++ "' does not end in a component segment"

end PageQuery
