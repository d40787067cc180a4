/-
# The values of property literals

A text is first read as a whole into literals; only then are values made of them, from left to right,
which is where a number too large for a double is noticed. The objects of a text become one
predicate, later keys winning.

Key definitions: `Literal.toJson`, `Predicate.parse`.
-/
import PageQuery.Selector.Error
import PageQuery.Selector.Predicate

namespace PageQuery

namespace Literal

/-- A number: whole if it is written so and fits 64 bits, else the nearest double, if finite. -/
def numberOf (text : String) (parts : NumberText) : Except LiteralFault Json :=
  let n := parts.wholeValue
  if parts.isWhole ∧ Number.minInt ≤ n ∧ n ≤ Number.maxInt then .ok (.number (.int n))
  else
    let d := parts.toDouble
    if d.isFinite then .ok (.number (.double d)) else .error (.invalidNumber text)

/-- A regular expression is an operator document. -/
def regexDocument (body flags : String) : Json :=
  .object [("$options", .string flags), ("$regex", .string body)]

mutual

def toJson : Literal → Except LiteralFault Json
  | .null => .ok .null
  | .bool b => .ok (.bool b)
  | .number text parts => numberOf text parts
  | .string s => .ok (.string s)
  | .regex body flags => .ok (regexDocument body flags)
  | .array items => (itemsToJson items).map .array
  | .object pairs => (pairsToJson pairs).map Json.ofFields

def itemsToJson : List Literal → Except LiteralFault (List Json)
  | [] => .ok []
  | v :: rest => do
    let v ← toJson v
    let rest ← itemsToJson rest
    return v :: rest

def pairsToJson : List (String × Literal) → Except LiteralFault (List (String × Json))
  | [] => .ok []
  | (k, v) :: rest => do
    let v ← toJson v
    let rest ← pairsToJson rest
    return (k, v) :: rest

end

/-- The predicate of several objects, later keys winning. -/
def predicateOf : Predicate → List (List (String × Literal)) → Except LiteralFault Predicate
  | p, [] => .ok p
  | p, pairs :: rest => do
    let fields ← pairsToJson pairs
    predicateOf (p.merge fields) rest

end Literal

/-- The predicate of a text of chars. -/
def Predicate.parseChars (cs : List Char) : Except LiteralFault Predicate :=
  match Literal.blocks? cs with
  | none => .error (.grammar (Literal.diagnose cs))
  | some blocks => Literal.predicateOf .any blocks

/-- The predicate that a text denotes. -/
def Predicate.parse (text : String) : Except SelectorError Predicate :=
  match Predicate.parseChars text.toList with
  | .ok p => .ok p
  | .error fault => .error (.invalidPredicate text fault)

end PageQuery
