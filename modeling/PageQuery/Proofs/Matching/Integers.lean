/-
# Whole numbers in conditions

Numbers are compared as doubles, which hold 53 binary digits. So a condition on a whole number of 64-bit
range asks about the rounded numbers: of two that are rounded apart it tells the order and whether they are
equal, as it does up to 2^53 on either side of zero, and it takes two that are rounded to the same number
for equal. All the ways to ask agree in this, and none turns an order round.

Key definitions: `Number.InRange`, `Predicate.ComparesAs`.
Key theorems: `Json.order?_ofInt`, `Predicate.comparesAs_rounded`, `Predicate.matches_integers`,
`Predicate.matches_integers_confused`.
-/
import PageQuery.Proofs.Matching.Conditions
import PageQuery.Proofs.Number.Rounding

namespace PageQuery

open Double

/-- A whole number that is kept as one. -/
def Number.InRange (n : Int) : Prop := minInt ≤ n ∧ n ≤ maxNat

theorem Number.InRange.natAbs_le {n : Int} (h : InRange n) : n.natAbs ≤ 2 ^ 64 := by
  have least : minInt = -9223372036854775808 := by decide
  have greatest : maxNat = 18446744073709551615 := by decide
  obtain ⟨low, high⟩ := h
  omega

/-! ### One number and another -/

section comparing

variable {a b : Int} (ha : Number.InRange a) (hb : Number.InRange b)

include ha hb

@[simp] theorem Json.same_ofInt_iff : (Json.ofInt a).same (.ofInt b) = true ↔ rounded a = rounded b :=
  sameValue_ofInt_iff ha.natAbs_le hb.natAbs_le

/-- The order of two whole numbers is that of the rounded ones. -/
@[simp]
theorem Json.order?_ofInt : (Json.ofInt a).order? (.ofInt b) = some (compare (rounded a) (rounded b)) := by
  have below := below_ofInt_iff ha.natAbs_le hb.natAbs_le
  have above := below_ofInt_iff hb.natAbs_le ha.natAbs_le
  have equal := sameValue_ofInt_iff ha.natAbs_le hb.natAbs_le
  show orderOfDoubles (Double.ofInt a) (Double.ofInt b) = _
  unfold orderOfDoubles
  rcases lt_trichotomy (rounded a) (rounded b) with lt | eq | gt
  · rw [if_pos (below.mpr lt), compare_lt_iff_lt.mpr lt]
  · rw [if_neg fun h => (below.mp h).ne eq, if_neg fun h => (above.mp h).ne eq.symm, if_pos (equal.mpr eq),
      compare_eq_iff_eq.mpr eq]
  · rw [if_neg fun h => (below.mp h).asymm gt, if_pos (above.mpr gt), compare_gt_iff_gt.mpr gt]

@[simp] theorem Condition.anySame_ofInt : anySame [.ofInt a] (.ofInt b) = true ↔ rounded a = rounded b := by
  rw [anySame_iff (by simp [Json.ofInt]), ← Json.same_ofInt_iff ha hb]
  constructor
  · rintro ⟨v, mem, same⟩
    exact List.mem_singleton.mp mem ▸ same
  · exact fun same => ⟨_, List.mem_singleton_self _, same⟩

@[simp] theorem Condition.anyOrdered_ofInt (accept : Ordering → Bool) :
    anyOrdered [.ofInt a] (.ofInt b) accept = accept (compare (rounded a) (rounded b)) := by
  show ([Json.ofInt a].any fun v => (v.order? (.ofInt b)).any accept) = _
  rw [List.any_cons, List.any_nil, Bool.or_false, Json.order?_ofInt ha hb, Option.any_some]

end comparing

/-! ### The ways to ask -/

namespace Predicate

/-- The conditions that compare the value at a key with a number: asked of one number about another, they
hold as two numbers compare. -/
structure ComparesAs (key : String) (value asked m n : Int) : Prop where
  plain : (Predicate.mk [(key, .ofInt asked)]).matches (.object [(key, .ofInt value)]) = true ↔ m = n
  eq : (asking key "$eq" (.ofInt asked)).matches (.object [(key, .ofInt value)]) = true ↔ m = n
  lt : (asking key "$lt" (.ofInt asked)).matches (.object [(key, .ofInt value)]) = true ↔ m < n
  lte : (asking key "$lte" (.ofInt asked)).matches (.object [(key, .ofInt value)]) = true ↔ m ≤ n
  gt : (asking key "$gt" (.ofInt asked)).matches (.object [(key, .ofInt value)]) = true ↔ m > n
  gte : (asking key "$gte" (.ofInt asked)).matches (.object [(key, .ofInt value)]) = true ↔ m ≥ n
  ne : (asking key "$ne" (.ofInt asked)).matches (.object [(key, .ofInt value)]) = true ↔ m ≠ n
  among : (asking key "$in" (.array [.ofInt asked])).matches (.object [(key, .ofInt value)]) = true ↔ m = n

/-- Conditions on a key ask about its value. -/
theorem matches_key {key : String} (plain : '.' ∉ key.toList) {value : Json} {operator : String}
    {argument : Json} (marked : operator.toList.head? = some '$') :
    (asking key operator argument).matches (.object [(key, value)]) =
      Condition.testOperator [value] [(operator, argument)] operator argument := by
  rw [matches_asking marked, Json.resolve_of_plain plain, Fields.find?, if_pos rfl]
  rfl

variable {key : String} {a b : Int}

open Condition in
/-- **Whole numbers are compared as they are rounded.** -/
theorem comparesAs_rounded (plain : '.' ∉ key.toList) (ha : Number.InRange a) (hb : Number.InRange b) :
    ComparesAs key a b (rounded a) (rounded b) := by
  have same := anySame_ofInt ha hb
  have ordered := anyOrdered_ofInt ha hb
  constructor
  · have whole : (Predicate.mk [(key, .ofInt b)]).matches (.object [(key, .ofInt a)]) =
        anySame [.ofInt a] (.ofInt b) := by
      simp [Predicate.matches, Json.resolve_of_plain plain, Fields.find?, Condition.test, operators?,
        Json.ofInt]
    rw [whole, same]
  · rw [matches_key plain rfl]
    exact same
  · rw [matches_key plain rfl]
    show anyOrdered [.ofInt a] (.ofInt b) (fun o => o == .lt) = true ↔ _
    rw [ordered, beq_iff_eq, compare_lt_iff_lt]
  · rw [matches_key plain rfl]
    show anyOrdered [.ofInt a] (.ofInt b) (fun o => o != .gt) = true ↔ _
    rw [ordered, bne_iff_ne, compare_le_iff_le]
  · rw [matches_key plain rfl]
    show anyOrdered [.ofInt a] (.ofInt b) (fun o => o == .gt) = true ↔ _
    rw [ordered, beq_iff_eq, compare_gt_iff_gt]
  · rw [matches_key plain rfl]
    show anyOrdered [.ofInt a] (.ofInt b) (fun o => o != .lt) = true ↔ _
    rw [ordered, bne_iff_ne, compare_ge_iff_ge]
  · rw [matches_key plain rfl]
    show (!anySame [.ofInt a] (.ofInt b)) = true ↔ _
    rw [Bool.not_eq_true', ← Bool.not_eq_true, same]
  · rw [matches_key plain rfl]
    show ([Json.ofInt b].any (anySame [.ofInt a])) = true ↔ _
    rw [List.any_cons, List.any_nil, Bool.or_false, same]

/-- Two pairs of numbers that compare alike. -/
theorem ComparesAs.congr {m n m' n' : Int} (h : ComparesAs key a b m n) (eq : m = n ↔ m' = n')
    (lt : m < n ↔ m' < n') : ComparesAs key a b m' n' where
  plain := h.plain.trans eq
  eq := h.eq.trans eq
  lt := h.lt.trans lt
  lte := h.lte.trans (by omega)
  gt := h.gt.trans (by omega)
  gte := h.gte.trans (by omega)
  ne := h.ne.trans (not_congr eq)
  among := h.among.trans eq

/-- **Conditions tell whole numbers apart that are rounded apart**, and no others: they compare two numbers
as these are exactly when the two are the same or are not rounded to the same number. They do so for all
numbers up to 2^53. For others still no order is turned round. -/
theorem matches_integers (plain : '.' ∉ key.toList) (ha : Number.InRange a) (hb : Number.InRange b) :
    (ComparesAs key a b a b ↔ a = b ∨ rounded a ≠ rounded b) ∧
    (a.natAbs ≤ 2 ^ 53 → b.natAbs ≤ 2 ^ 53 → ComparesAs key a b a b) ∧
    ((asking key "$lt" (.ofInt b)).matches (.object [(key, .ofInt a)]) = true → a < b) ∧
    ((asking key "$gt" (.ofInt b)).matches (.object [(key, .ofInt a)]) = true → a > b) := by
  have known := comparesAs_rounded plain ha hb
  refine ⟨⟨fun h => ?_, fun apart => ?_⟩, fun low low' => ?_, fun h => ?_, fun h => ?_⟩
  · by_cases same : rounded a = rounded b
    · exact .inl (h.eq.mp (known.eq.mpr same))
    · exact .inr same
  · rcases apart with rfl | apart
    · exact known.congr (by simp) (by simp)
    · have differ : a ≠ b := fun same => apart (congrArg rounded same)
      refine known.congr (iff_of_false apart differ) ⟨lt_of_rounded_lt, fun lt => ?_⟩
      exact lt_of_le_of_ne (rounded_mono lt.le) apart
  · have same := known
    rwa [rounded_of_le low, rounded_of_le low'] at same
  · exact lt_of_rounded_lt (known.lt.mp h)
  · exact lt_of_rounded_lt (known.gt.mp h)

/-- Two numbers beyond 2^53 that are rounded apart. -/
theorem matches_integers_apart : '.' ∉ "id".toList ∧ Number.InRange 9007199254740993 ∧
    Number.InRange 9007199254740997 ∧ ComparesAs "id" 9007199254740993 9007199254740997
      9007199254740993 9007199254740997 := by
  have plain : '.' ∉ "id".toList := by decide
  have value : Number.InRange 9007199254740993 := ⟨by decide, by decide⟩
  have asked : Number.InRange 9007199254740997 := ⟨by decide, by decide⟩
  refine ⟨plain, value, asked, (matches_integers plain value asked).1.mpr (.inr ?_)⟩
  decide +kernel

/-- Two numbers next to each other that are rounded to the same one. -/
theorem matches_integers_confused : Number.InRange 9007199254740993 ∧ Number.InRange 9007199254740992 ∧
    ¬ComparesAs "id" 9007199254740993 9007199254740992 9007199254740993 9007199254740992 := by
  refine ⟨⟨by decide, by decide⟩, ⟨by decide, by decide⟩, fun h => ?_⟩
  have taken : (asking "id" "$eq" (.ofInt 9007199254740992)).matches
      (.object [("id", .ofInt 9007199254740993)]) = true := by decide +kernel
  exact absurd (h.eq.mp taken) (by decide)

end Predicate

end PageQuery
