/-
# Comparing values

Two values are equal if they have the same shape and equal parts; numbers are compared as doubles,
objects without regard to the order of their fields. Only numbers, as doubles, and strings, by code
points, have an order.

Key definitions: `Json.same`, `Json.order?`, `Json.isTruthy`.
-/
import PageQuery.Json.Basic

namespace PageQuery

namespace Json

mutual

/-- Equality of values. -/
def same : Json → Json → Bool
  | .null, .null => true
  | .bool a, .bool b => a == b
  | .number a, .number b => a.toDouble.sameValue b.toDouble
  | .string a, .string b => a == b
  | .array xs, .array ys => sameItems xs ys
  | .object xs, .object ys => xs.length == ys.length && sameFields xs ys
  | _, _ => false

def sameItems : List Json → List Json → Bool
  | [], [] => true
  | x :: xs, y :: ys => same x y && sameItems xs ys
  | _, _ => false

/-- Every field of the first list has an equal one of its name in the second. -/
def sameFields : List (String × Json) → List (String × Json) → Bool
  | [], _ => true
  | (k, x) :: xs, ys =>
    (match Fields.find? k ys with
      | some y => same x y
      | none => false) && sameFields xs ys

end

/-- The order of two doubles, if they have one. -/
def orderOfDoubles (a b : Double) : Option Ordering :=
  if a.below b then some .lt else if b.below a then some .gt
  else if a.sameValue b then some .eq else none

/-- The order of two strings by code points. -/
def orderOfStrings (s t : String) : Ordering := if s < t then .lt else if s = t then .eq else .gt

/-- The order of two values, if they have one. -/
def order? : Json → Json → Option Ordering
  | .number a, .number b => orderOfDoubles a.toDouble b.toDouble
  | .string s, .string t => some (orderOfStrings s t)
  | _, _ => none

/-- Whether a value counts as true. -/
def isTruthy : Json → Bool
  | .null => false
  | .bool b => b
  | .number n => !n.toDouble.sameValue .zero
  | .string s => !s.isEmpty
  | .array _ => true
  | .object _ => true

end Json

end PageQuery
