/-
# Conditions on props

A predicate holds of props if each of its conditions holds of the values at its path. A condition is
an operator document, an object that is not empty and whose keys all begin with `$`, or else a value
to be equal to. The items of an array at the path count as values there too, beside the array.

Key definitions: `Condition.test`, `Predicate.matches`, `PropertyMatcher`.
-/
import PageQuery.Matching.Compare
import PageQuery.Matching.Path
import PageQuery.Pattern.Reader
import PageQuery.Selector.Predicate

namespace PageQuery

namespace Condition

/-- The values at a path and, of arrays among them, the items. -/
def flattened (candidates : List Json) : List Json :=
  candidates.flatMap fun v =>
    match v with
    | .array items => v :: items
    | v => [v]

/-- Some value is equal to the target; a missing one is equal to null. -/
def anySame (candidates : List Json) (target : Json) : Bool :=
  (target = .null && candidates.isEmpty) || (flattened candidates).any fun v => v.same target

/-- Some value has an accepted order to the bound. -/
def anyOrdered (candidates : List Json) (bound : Json) (accept : Ordering → Bool) : Bool :=
  (flattened candidates).any fun v => (v.order? bound).any accept

/-- Some value is equal to an item of the list. What is no list has no items. -/
def inList (candidates : List Json) : Json → Bool
  | .array items => items.any (anySame candidates)
  | _ => false

/-- The flags that an options string switches on. -/
def flagsOf (options : String) : PatternFlags :=
  { ignoreCase := options.toList.contains 'i'
    multiLine := options.toList.contains 'm'
    dotAll := options.toList.contains 's'
    verbose := false }

/-- Some string matches the pattern. What is no pattern matches nothing. -/
def anyMatch (candidates : List Json) (pattern : Json) (options : String) : Bool :=
  match pattern with
  | .string text =>
    match Pattern.parse? (flagsOf options) text.toList with
    | some r => (flattened candidates).any fun v =>
      match v with
      | .string s => r.search s.toList
      | _ => false
    | none => false
  | _ => false

/-- The options beside a pattern. -/
def optionsOf (operators : List (String × Json)) : String :=
  ((Fields.find? "$options" operators).bind Json.string?).getD ""

/-- One operator of an operator document. An unknown one holds of nothing. -/
def testOperator (candidates : List Json) (operators : List (String × Json)) (name : String)
    (argument : Json) : Bool :=
  if name = "$eq" then anySame candidates argument
  else if name = "$ne" then !anySame candidates argument
  else if name = "$gt" then anyOrdered candidates argument fun o => o == .gt
  else if name = "$gte" then anyOrdered candidates argument fun o => o != .lt
  else if name = "$lt" then anyOrdered candidates argument fun o => o == .lt
  else if name = "$lte" then anyOrdered candidates argument fun o => o != .gt
  else if name = "$in" then inList candidates argument
  else if name = "$nin" then !inList candidates argument
  else if name = "$exists" then argument.isTruthy != candidates.isEmpty
  else if name = "$regex" then anyMatch candidates argument (optionsOf operators)
  else name = "$options"

/-- The operators of an operator document. -/
def operators? : Json → Option (List (String × Json))
  | .object fields =>
    if !fields.isEmpty && fields.all (fun field => field.1.toList.head? == some '$') then some fields
    else none
  | _ => none

/-- Whether the values at a path satisfy a condition. -/
def test (candidates : List Json) (condition : Json) : Bool :=
  match operators? condition with
  | some operators =>
    operators.all fun operator => testOperator candidates operators operator.1 operator.2
  | none => anySame candidates condition

end Condition

/-- Decides whether props satisfy a predicate. -/
abbrev PropertyMatcher := Predicate → Json → Bool

/-- Every condition of the predicate holds of the props. -/
def Predicate.matches (p : Predicate) (props : Json) : Bool :=
  p.fields.all fun field => Condition.test (Json.resolve (splitPath field.1) props) field.2

end PageQuery
