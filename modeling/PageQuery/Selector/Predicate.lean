/-
# Property predicates

A predicate is a document of conditions by key path, ascending by key. The empty one accepts any
props. Laying one over another lets its keys win.

Key definitions: `Predicate`, `Predicate.merge`.
-/
import PageQuery.Json.Basic

namespace PageQuery

/-- Conditions on a component's props, by dotted key path. -/
structure Predicate where
  fields : List (String × Json)
  deriving DecidableEq, Repr, Inhabited

namespace Predicate

/-- The predicate without conditions. -/
def any : Predicate := ⟨[]⟩

def isUnconstrained (p : Predicate) : Bool := p.fields.isEmpty

/-- The conditions of `p` with the given ones laid over them. -/
def merge (p : Predicate) (overlay : List (String × Json)) : Predicate :=
  ⟨Fields.putAll p.fields overlay⟩

/-- The predicate as a document. -/
def toJson (p : Predicate) : Json := .object p.fields

@[simp] theorem merge_nil (p : Predicate) : p.merge [] = p := rfl

@[simp] theorem merge_append (p : Predicate) (xs ys : List (String × Json)) :
    p.merge (xs ++ ys) = (p.merge xs).merge ys := by
  simp [merge, Fields.putAll, List.foldl_append]

end Predicate

end PageQuery
