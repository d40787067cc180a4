/-
# Values at a key path

A path is a list of segments. A segment leads from an object to its field. From an array it leads to
one item if it is an index, and otherwise into every item, however deep arrays nest. What a path
reaches is a list of values in document order: the segments are followed one after another from all
values reached so far.

Key definitions: `Json.spread`, `Json.follow`, `Json.resolve`, `splitPath`.
Key theorems: `Json.resolve_nil`, `Json.resolve_cons`.
-/
import PageQuery.Json.Reader

namespace PageQuery

/-- The segments of a dotted path; there is always at least one. -/
def splitPathChars : List Char → List (List Char)
  | [] => [[]]
  | c :: rest =>
    if c = '.' then [] :: splitPathChars rest
    else match splitPathChars rest with
      | [] => [[c]]
      | segment :: more => (c :: segment) :: more

def splitPath (path : String) : List String := (splitPathChars path.toList).map String.ofList

/-- The index that a segment denotes: decimal digits, perhaps behind a plus sign, of 64-bit size. -/
def indexOf? (segment : String) : Option Nat :=
  let ds := match segment.toList with
    | '+' :: rest => rest
    | cs => cs
  if ds.isEmpty || !ds.all isDigit then none
  else if digitsValue 0 ds < Nat.pow 2 64 then some (digitsValue 0 ds)
  else none

namespace Json

mutual

/-- The values that are no arrays, found by going into every item of an array. -/
def spread : Json → List Json
  | .array items => spreadItems items
  | v => [v]

def spreadItems : List Json → List Json
  | [] => []
  | v :: rest => spread v ++ spreadItems rest

end

/-- Where one segment leads from a value. -/
def follow (segment : String) (v : Json) : List Json :=
  match indexOf? segment, v with
  | some i, .array items => items[i]?.toList
  | some _, v => (v.field? segment).toList
  | none, v => v.spread.flatMap fun w => (w.field? segment).toList

/-- The values that a path reaches, in document order. -/
def resolve : List String → Json → List Json
  | [], v => [v]
  | segment :: path, v => (follow segment v).flatMap (resolve path)

@[simp] theorem resolve_nil (v : Json) : resolve [] v = [v] := rfl

@[simp] theorem resolve_cons (segment : String) (path : List String) (v : Json) :
    resolve (segment :: path) v = (follow segment v).flatMap (resolve path) := rfl

end Json

end PageQuery
