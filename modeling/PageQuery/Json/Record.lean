/-
# Records in JSON

A record of named parts is written as an object or as an array of the parts in their declared order.
In an object each part may stand once; a second field of that name rules the reading out, other
fields are passed over or, for a closed record, rule it out too. An array may stop early and may not
go on beyond the last part. Parts come back in declared order, an unwritten one as `none`.

A part is read as required, as one with a default, or as an optional one that null leaves out.

Key definitions: `Json.parts?`, `Json.required`, `Json.withDefault`, `Json.optional`.
-/
import PageQuery.Json.Basic

namespace PageQuery

namespace Json

/-- The parts of a record read from an object's fields. -/
def fieldParts? (closed : Bool) (names : List String) (fields : List (String × Json)) :
    Option (List (Option Json)) :=
  if names.any (fun name => decide (1 < Fields.count name fields)) then none
  else if closed && fields.any (fun field => !names.contains field.1) then none
  else some (names.map fun name => Fields.find? name fields)

/-- The parts of a record read from an array's items. -/
def itemParts? (names : List String) (items : List Json) : Option (List (Option Json)) :=
  if names.length < items.length then none
  else some (items.map some ++ List.replicate (names.length - items.length) none)

/-- The parts of a record, in declared order. -/
def parts? (closed : Bool) (names : List String) : Json → Option (List (Option Json))
  | .object fields => fieldParts? closed names fields
  | .array items => itemParts? names items
  | _ => none

/-- A part that must be written. -/
def required {α : Type} (read : Json → Option α) (part : Option Json) : Option α :=
  part.bind read

/-- A part that stands for `value` when it is not written. -/
def withDefault {α : Type} (value : α) (read : Json → Option α) : Option Json → Option α
  | none => some value
  | some v => read v

/-- A part that may be left out or written as null. -/
def optional {α : Type} (read : Json → Option α) : Option Json → Option (Option α)
  | none => some none
  | some .null => some none
  | some v => (read v).map some

/-- An array of values of one kind. -/
def listOf? {α : Type} (read : Json → Option α) : Json → Option (List α)
  | .array items => items.mapM read
  | _ => none

/-- The one field of that name; none if it is missing or repeated. -/
def onlyField? (name : String) (fields : List (String × Json)) : Option Json :=
  if Fields.count name fields = 1 then Fields.find? name fields else none

end Json

end PageQuery
