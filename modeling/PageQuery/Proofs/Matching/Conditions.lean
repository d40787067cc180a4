/-
# What single conditions ask

A predicate with one operator at one path asks one thing of the values there. What it asks is told for
each operator by the values that the path reaches and the items of arrays among them. Ordering and
equality are apart in the definition, but where a bound has an order they agree about it: a value is
equal to the bound exactly when it has the order of equals to it. So a bound that may be reached is an
open bound or an equality, and a list is a choice of equalities.

Key definitions: `Predicate.asking`, `Json.HasOrder`.
Key theorems: `Predicate.matches_asking`, `Json.order?_eq_some_eq_iff`, `Condition.anyOrdered_or_same`,
`Predicate.matches_decomposed`.
-/
import Mathlib.Data.String.Basic
import PageQuery.Matching.Condition
import PageQuery.Proofs.Matching.Paths

namespace PageQuery

/-! ### Keys -/

theorem splitPathChars_of_plain : ∀ {cs : List Char}, '.' ∉ cs → splitPathChars cs = [cs]
  | [], _ => rfl
  | c :: rest, plain => by
    obtain ⟨first, later⟩ := List.ne_and_not_mem_of_not_mem_cons plain
    rw [splitPathChars, if_neg first.symm, splitPathChars_of_plain later]

theorem splitPath_of_plain {key : String} (plain : '.' ∉ key.toList) : splitPath key = [key] := by
  rw [splitPath, splitPathChars_of_plain plain, List.map_singleton, String.ofList_toList]

/-- A key without dots reaches the field of that name, if there is one. -/
theorem Json.resolve_of_plain {key : String} (plain : '.' ∉ key.toList) (fields : List (String × Json)) :
    resolve (splitPath key) (.object fields) = (Fields.find? key fields).toList := by
  rw [splitPath_of_plain plain, resolve_descends.field]
  cases Fields.find? key fields <;> rfl

/-! ### Equality and order -/

namespace Json

/-- Values of a kind whose values have an order. -/
def HasOrder : Json → Prop
  | .number _ => True
  | .string _ => True
  | _ => False

@[simp] theorem orderOfDoubles_eq_some_eq_iff (a b : Double) :
    orderOfDoubles a b = some .eq ↔ a.sameValue b = true := by
  have apart : a.sameValue b = true → a.below b = false ∧ b.below a = false := by
    cases a <;> cases b <;> simp +contextual [Double.sameValue, Double.below]
  unfold orderOfDoubles
  constructor
  · intro h
    split_ifs at h with low high same
    · cases h
    · cases h
    · exact same
  · intro same
    obtain ⟨low, high⟩ := apart same
    simp [low, high, same]

@[simp] theorem orderOfStrings_eq_eq_iff (s t : String) : orderOfStrings s t = .eq ↔ s = t := by
  unfold orderOfStrings
  constructor
  · intro h
    split_ifs at h with below same
    exact same
  · rintro rfl
    rw [if_neg (lt_irrefl s), if_pos rfl]

/-- **Order and equality agree.** A value has the order of equals to a bound exactly when it is equal to
it, values of another kind included. -/
theorem order?_eq_some_eq_iff {bound : Json} (ordered : bound.HasOrder) (v : Json) :
    v.order? bound = some .eq ↔ v.same bound = true := by
  cases bound with
  | number n =>
    cases v with
    | number m => exact orderOfDoubles_eq_some_eq_iff _ _
    | _ => simp [order?, same]
  | string t =>
    cases v with
    | string s =>
      rw [order?, same, Option.some.injEq, orderOfStrings_eq_eq_iff, beq_iff_eq]
    | _ => simp [order?, same]
  | _ => exact ordered.elim

end Json

/-! ### One condition -/

namespace Condition

variable {candidates : List Json} {target bound : Json} {accept : Ordering → Bool}

theorem anySame_iff (target_ne : target ≠ .null) :
    anySame candidates target = true ↔ ∃ v ∈ flattened candidates, v.same target = true := by
  simp [anySame, target_ne]

theorem anyOrdered_iff : anyOrdered candidates bound accept = true ↔
    ∃ v ∈ flattened candidates, ∃ o, v.order? bound = some o ∧ accept o = true := by
  simp [anyOrdered, Option.any_eq_true]

/-- What is in no list is all that is not in it, whatever else is asked. -/
theorem testOperator_nin (candidates : List Json) (operators operators' : List (String × Json))
    (argument : Json) : testOperator candidates operators "$nin" argument =
      !testOperator candidates operators' "$in" argument := rfl

/-- An order is accepted or is that of equals: some value has an accepted order or is equal. -/
theorem anyOrdered_or_same (ordered : bound.HasOrder) {accept accept' : Ordering → Bool}
    (wider : ∀ o, accept' o = true ↔ accept o = true ∨ o = .eq) :
    anyOrdered candidates bound accept' = true ↔
      anyOrdered candidates bound accept = true ∨ anySame candidates bound = true := by
  have some_value : bound ≠ .null := by rintro rfl; exact ordered
  rw [anyOrdered_iff, anyOrdered_iff, anySame_iff some_value]
  constructor
  · rintro ⟨v, mem, o, has, accepted⟩
    rcases (wider o).mp accepted with inner | rfl
    · exact .inl ⟨v, mem, o, has, inner⟩
    · exact .inr ⟨v, mem, (Json.order?_eq_some_eq_iff ordered v).mp has⟩
  · rintro (⟨v, mem, o, has, inner⟩ | ⟨v, mem, same⟩)
    · exact ⟨v, mem, o, has, (wider o).mpr (.inl inner)⟩
    · exact ⟨v, mem, .eq, (Json.order?_eq_some_eq_iff ordered v).mpr same, (wider .eq).mpr (.inr rfl)⟩

end Condition

namespace Predicate

/-- The predicate that asks one thing of the values at a path. -/
def asking (path operator : String) (argument : Json) : Predicate :=
  ⟨[(path, .object [(operator, argument)])]⟩

variable {path operator : String} {argument props : Json}

/-- One operator at one path is tested on what the path reaches. -/
theorem matches_asking (marked : operator.toList.head? = some '$') :
    (asking path operator argument).matches props =
      Condition.testOperator (Json.resolve (splitPath path) props) [(operator, argument)] operator
        argument := by
  simp [asking, Predicate.matches, Condition.test, Condition.operators?, marked]

open Condition in
/-- **What bounds and lists come to.** A bound that may be reached is an open bound or an equality, a list
is a choice of equalities, and what is in no list is all else. This is so at every path, whether it leads
nowhere, to one value or into arrays. -/
theorem matches_decomposed (props : Json) (path : String) {bound : Json} (ordered : bound.HasOrder)
    (list : List Json) :
    ((asking path "$gte" bound).matches props = true ↔
      (asking path "$gt" bound).matches props = true ∨ (asking path "$eq" bound).matches props = true) ∧
    ((asking path "$lte" bound).matches props = true ↔
      (asking path "$lt" bound).matches props = true ∨ (asking path "$eq" bound).matches props = true) ∧
    ((asking path "$in" (.array list)).matches props = true ↔
      ∃ x ∈ list, (asking path "$eq" x).matches props = true) ∧
    ((asking path "$nin" (.array list)).matches props = true ↔
      ¬(asking path "$in" (.array list)).matches props = true) := by
  simp only [matches_asking (show "$gte".toList.head? = some '$' from rfl),
    matches_asking (show "$gt".toList.head? = some '$' from rfl),
    matches_asking (show "$lte".toList.head? = some '$' from rfl),
    matches_asking (show "$lt".toList.head? = some '$' from rfl),
    matches_asking (show "$eq".toList.head? = some '$' from rfl),
    matches_asking (show "$in".toList.head? = some '$' from rfl),
    matches_asking (show "$nin".toList.head? = some '$' from rfl)]
  refine ⟨anyOrdered_or_same ordered fun o => ?_, anyOrdered_or_same ordered fun o => ?_, ?_, ?_⟩
  · cases o <;> decide
  · cases o <;> decide
  · exact List.any_eq_true
  · rw [testOperator_nin (Json.resolve (splitPath path) props) _ [("$in", .array list)], Bool.not_eq_true',
      Bool.not_eq_true]

/-- Rows with a number, with no number, with an array and with nothing at all. -/
def numberedRows : Json := .object [("rows", .array [.object [("n", .ofInt 3)], .object [("n", .string "x")],
  .object [("n", .array [.ofInt 1, .ofInt 2])], .object []])]

/-- The number 3 is reached among the rows, and there is no row to reach a missing one in. -/
theorem matches_decomposed_rows : (Json.ofInt 3).HasOrder ∧
    (asking "rows.n" "$gt" (.ofInt 3)).matches numberedRows = false ∧
    (asking "rows.n" "$eq" (.ofInt 3)).matches numberedRows = true ∧
    (asking "rows.n" "$gte" (.ofInt 3)).matches numberedRows = true ∧
    (asking "rows.n" "$in" (.array [.ofInt 7, .ofInt 2])).matches numberedRows = true ∧
    (asking "rows.n" "$nin" (.array [.ofInt 7, .ofInt 2])).matches numberedRows = false ∧
    (asking "cells.n" "$lte" (.ofInt 3)).matches numberedRows = false ∧
    (asking "cells.n" "$nin" (.array [.ofInt 3])).matches numberedRows = true := by
  have open_bound : (asking "rows.n" "$gt" (.ofInt 3)).matches numberedRows = false := by decide +kernel
  have equal : (asking "rows.n" "$eq" (.ofInt 3)).matches numberedRows = true := by decide +kernel
  have nested : (asking "rows.n" "$eq" (.ofInt 2)).matches numberedRows = true := by decide +kernel
  have lower : (asking "cells.n" "$lt" (.ofInt 3)).matches numberedRows = false := by decide +kernel
  have missing : (asking "cells.n" "$eq" (.ofInt 3)).matches numberedRows = false := by decide +kernel
  have ordered : (Json.ofInt 3).HasOrder := trivial
  obtain ⟨reached, -, listed, rest⟩ :=
    matches_decomposed numberedRows "rows.n" ordered [.ofInt 7, .ofInt 2]
  obtain ⟨-, below, listed', rest'⟩ := matches_decomposed numberedRows "cells.n" ordered [.ofInt 3]
  have found := listed.mpr ⟨_, by simp, nested⟩
  refine ⟨ordered, open_bound, equal, reached.mpr (.inr equal), found, ?_, ?_, ?_⟩
  · exact Bool.eq_false_iff.mpr fun h => rest.mp h found
  · exact Bool.eq_false_iff.mpr fun h => by simpa [lower, missing] using below.mp h
  · refine rest'.mpr fun h => ?_
    obtain ⟨x, mem, same⟩ := listed'.mp h
    rw [List.mem_singleton.mp mem, missing] at same
    cases same

end Predicate

end PageQuery
