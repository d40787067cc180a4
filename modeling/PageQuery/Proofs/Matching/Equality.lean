/-
# Equality of values and predicates that are read off props

Equality of values is no identity: numbers are equal as doubles, and the fields of an object are looked up
by name. It looks one way only: objects are equal if they have equally many fields and each field of the
first has an equal one of its name in the second. On values as they come from texts, where no number is a
NaN and no key repeats, that is enough to look the other way too, since equally many different keys that are
all found are all the keys there are (`find?_ne_none_of_sameFields`). Two such values are equal exactly when
they are the same once every number stands for what it is worth as a double (`same_iff_inUnits`), so
equality inherits from identity that it is an equivalence.

In particular a value is equal to itself, however deep it nests. So props satisfy the predicate that is made
of them, and one made of some of them, as long as a key is no path of several segments and no value reads as
an operator document.

Key definitions: `Json.IsProper`, `Json.inUnits`, `Json.OnlyOperators`.
Key theorems: `Fields.find?_of_mem`, `Json.sameFields_iff`, `Json.same_iff_inUnits`,
`Json.same_equivalence`, `Predicate.matches_own`.
-/
import Mathlib.Data.List.Perm.Subperm
import PageQuery.Proofs.Json.Canonical
import PageQuery.Proofs.Matching.Conditions
import PageQuery.Proofs.Number.Rounding

namespace PageQuery

/-- In ascending fields each one is found by its key. -/
theorem Fields.find?_of_mem {α : Type} {key : String} {value : α} : ∀ {fields : List (String × α)},
    Ascending fields → (key, value) ∈ fields → find? key fields = some value
  | (k, v) :: rest, ascending, mem => by
    obtain ⟨beyond, more⟩ := List.pairwise_cons.mp (ascending_iff.mp ascending)
    rw [find?]
    rcases List.mem_cons.mp mem with first | later
    · cases first
      exact if_pos rfl
    · rw [if_neg (beyond _ later).ne]
      exact find?_of_mem (ascending_iff.mpr more) later

namespace Json

/-! ### Values as they are kept -/

mutual

/-- Every double in a value is finite, as it is in what is read from a text. -/
def IsFinite : Json → Prop
  | .number (.double d) => d.isFinite = true
  | .array items => AllFinite items
  | .object fields => FieldsFinite fields
  | _ => True

def AllFinite : List Json → Prop
  | [] => True
  | v :: rest => IsFinite v ∧ AllFinite rest

def FieldsFinite : List (String × Json) → Prop
  | [] => True
  | (_, v) :: rest => IsFinite v ∧ FieldsFinite rest

end

theorem IsFinite.toDouble_ne_nan {n : Number} (finite : (Json.number n).IsFinite) :
    n.toDouble ≠ .nan := by
  cases n with
  | int n => exact Double.ofInt_ne_nan n
  | double d =>
    rintro rfl
    cases finite

theorem fieldsFinite_iff {fields : List (String × Json)} :
    FieldsFinite fields ↔ ∀ field ∈ fields, field.2.IsFinite := by
  induction fields with
  | nil => simp [FieldsFinite]
  | cons field rest ih => rw [FieldsFinite, ih, List.forall_mem_cons]

/-- A value as it is kept: of equal keys the last one stands, so that keys ascend, and there is no infinity
and no NaN, as JSON has none. -/
structure IsProper (v : Json) : Prop where
  canonical : v.IsCanonical
  finite : v.IsFinite

theorem IsProper.of_mem {fields : List (String × Json)} (proper : (Json.object fields).IsProper)
    {field : String × Json} (mem : field ∈ fields) : field.2.IsProper :=
  ⟨fieldsCanonical_iff.mp proper.canonical.2 field mem, fieldsFinite_iff.mp proper.finite field mem⟩

/-! ### What numbers are worth -/

mutual

/-- The same value with every number given by the units that it is worth as a double. -/
def inUnits : Json → Json
  | .number n => .ofInt n.toDouble.units
  | .array items => .array (itemsInUnits items)
  | .object fields => .object (fieldsInUnits fields)
  | v => v

def itemsInUnits : List Json → List Json
  | [] => []
  | v :: rest => inUnits v :: itemsInUnits rest

def fieldsInUnits : List (String × Json) → List (String × Json)
  | [] => []
  | (k, v) :: rest => (k, inUnits v) :: fieldsInUnits rest

end

@[simp] theorem fieldsInUnits_eq_map (fields : List (String × Json)) :
    fieldsInUnits fields = fields.map fun field => (field.1, inUnits field.2) := by
  induction fields with
  | nil => rfl
  | cons field rest ih => rw [fieldsInUnits, ih, List.map_cons]

/-! ### What equality comes to -/

/-- Fields are equal to others when each has an equal one of its name among them. -/
theorem sameFields_iff : ∀ {xs ys : List (String × Json)}, sameFields xs ys = true ↔
    ∀ field ∈ xs, ∃ y, Fields.find? field.1 ys = some y ∧ field.2.same y = true
  | [], ys => by simp [sameFields]
  | (k, x) :: xs, ys => by
    rw [sameFields, Bool.and_eq_true, sameFields_iff, List.forall_mem_cons]
    refine and_congr_left fun _ => ?_
    cases Fields.find? k ys <;> simp

theorem same_number_iff {m n : Number} (hm : (Json.number m).IsFinite) (hn : (Json.number n).IsFinite) :
    (Json.number m).same (.number n) = true ↔ (Json.number m).inUnits = (Json.number n).inUnits := by
  rw [same, Double.sameValue_of_real hm.toDouble_ne_nan hn.toDouble_ne_nan, beq_iff_eq]
  simp [inUnits, ofInt]

section objects

variable {xs ys : List (String × Json)}

/-- **Fields that are all found are all there are.** If the keys of one object do not repeat and are found
in another one of no more fields, then the other has no further key. -/
theorem find?_ne_none_of_sameFields (ascending : Fields.Ascending xs) (size : xs.length = ys.length)
    (same : sameFields xs ys = true) {key : String} (there : key ∈ ys.map Prod.fst) :
    Fields.find? key xs ≠ none := by
  have found : xs.map Prod.fst ⊆ ys.map Prod.fst := by
    intro k mem
    obtain ⟨field, here, rfl⟩ := List.mem_map.mp mem
    obtain ⟨y, found, -⟩ := sameFields_iff.mp same field here
    exact List.mem_map.mpr ⟨_, Fields.mem_of_find? found, rfl⟩
  have all : (xs.map Prod.fst).Perm (ys.map Prod.fst) :=
    (ascending.keys_nodup.subperm found).perm_of_length_le (by simp [size])
  exact fun absent => Fields.find?_eq_none_iff.mp absent (all.mem_iff.mpr there)

/-- Objects are equal when they are the same in units, if that is so of their values. -/
theorem same_object_iff (hx : Fields.Ascending xs) (hy : Fields.Ascending ys)
    (values : ∀ field ∈ xs, ∀ y, (field.1, y) ∈ ys →
      (field.2.same y = true ↔ field.2.inUnits = y.inUnits)) :
    (Json.object xs).same (.object ys) = true ↔ (Json.object xs).inUnits = (Json.object ys).inUnits := by
  rw [same, Bool.and_eq_true, beq_iff_eq, inUnits, inUnits, Json.object.injEq, fieldsInUnits_eq_map,
    fieldsInUnits_eq_map]
  constructor
  · rintro ⟨size, same⟩
    refine Fields.eq_of_find? (hx.map _) (hy.map _) fun key => ?_
    rw [Fields.find?_map, Fields.find?_map]
    cases here : Fields.find? key xs with
    | some x =>
      have mem := Fields.mem_of_find? here
      obtain ⟨y, found, equal⟩ := sameFields_iff.mp same _ mem
      rw [found, Option.map_some, Option.map_some,
        (values _ mem y (Fields.mem_of_find? found)).mp equal]
    | none =>
      have absent : Fields.find? key ys = none := Fields.find?_eq_none_iff.mpr fun there =>
        find?_ne_none_of_sameFields hx size same there here
      rw [absent]
  · intro units
    refine ⟨by simpa using congrArg List.length units, sameFields_iff.mpr fun field mem => ?_⟩
    have found := congrArg (Fields.find? field.1) units
    rw [Fields.find?_map, Fields.find?_map, Fields.find?_of_mem hx mem, Option.map_some, eq_comm,
      Option.map_eq_some_iff] at found
    obtain ⟨y, found, equal⟩ := found
    exact ⟨y, found, (values field mem y (Fields.mem_of_find? found)).mpr equal.symm⟩

end objects

mutual

/-- **Values are equal exactly when they are the same in units.** -/
theorem same_iff_inUnits : ∀ {a b : Json}, a.IsProper → b.IsProper →
    (a.same b = true ↔ a.inUnits = b.inUnits)
  | .null, b, _, _ => by cases b <;> simp [same, inUnits, ofInt]
  | .bool _, b, _, _ => by cases b <;> simp [same, inUnits, ofInt]
  | .string _, b, _, _ => by cases b <;> simp [same, inUnits, ofInt]
  | .number _, b, ha, hb => by
    cases b with
    | number _ => exact same_number_iff ha.finite hb.finite
    | _ => simp [same, inUnits, ofInt]
  | .array xs, b, ha, hb => by
    cases b with
    | array ys =>
      rw [same, inUnits, inUnits, Json.array.injEq]
      exact sameItems_iff_inUnits ha.canonical ha.finite hb.canonical hb.finite
    | _ => simp [same, inUnits, ofInt]
  | .object xs, b, ha, hb => by
    cases b with
    | object ys =>
      exact same_object_iff ha.canonical.1 hb.canonical.1 fun field mem y there =>
        same_iff_inUnits_of_mem ha.canonical.2 ha.finite field mem (hb.of_mem there)
    | _ => simp [same, inUnits, ofInt]

theorem sameItems_iff_inUnits : ∀ {xs ys : List Json}, AllCanonical xs → AllFinite xs →
    AllCanonical ys → AllFinite ys → (sameItems xs ys = true ↔ itemsInUnits xs = itemsInUnits ys)
  | [], [], _, _, _, _ => by simp [sameItems]
  | [], _ :: _, _, _, _, _ => by simp [sameItems, itemsInUnits]
  | _ :: _, [], _, _, _, _ => by simp [sameItems, itemsInUnits]
  | x :: xs, y :: ys, ⟨cx, cxs⟩, ⟨fx, fxs⟩, ⟨cy, cys⟩, ⟨fy, fys⟩ => by
    rw [sameItems, Bool.and_eq_true, itemsInUnits, itemsInUnits, List.cons.injEq,
      same_iff_inUnits ⟨cx, fx⟩ ⟨cy, fy⟩, sameItems_iff_inUnits cxs fxs cys fys]

theorem same_iff_inUnits_of_mem : ∀ {xs : List (String × Json)}, FieldsCanonical xs → FieldsFinite xs →
    ∀ field ∈ xs, ∀ {y : Json}, y.IsProper → (field.2.same y = true ↔ field.2.inUnits = y.inUnits)
  | [], _, _ => nofun
  | (_, x) :: rest, ⟨canonical, more⟩, ⟨finite, later⟩ => by
    refine List.forall_mem_cons.mpr ⟨fun hy => same_iff_inUnits ⟨canonical, finite⟩ hy, ?_⟩
    exact same_iff_inUnits_of_mem more later

end

/-- **Equality of values is an equivalence**, however deep they nest and however whole numbers and doubles
are mixed in them: it is identity in units. -/
theorem same_equivalence :
    Equivalence (fun a b : { v : Json // v.IsProper } => a.1.same b.1 = true) ∧
      ∀ a b : { v : Json // v.IsProper }, a.1.same b.1 = true ↔ a.1.inUnits = b.1.inUnits := by
  have units : ∀ a b : { v : Json // v.IsProper }, a.1.same b.1 = true ↔ a.1.inUnits = b.1.inUnits :=
    fun a b => same_iff_inUnits a.2 b.2
  refine ⟨⟨fun a => ?_, fun {a b} h => ?_, fun {a b c} h h' => ?_⟩, units⟩
  · exact (units a a).mpr rfl
  · exact (units b a).mpr ((units a b).mp h).symm
  · exact (units a c).mpr (((units a b).mp h).trans ((units b c).mp h'))

/-- The values among fields are equal to themselves. -/
theorem fieldValues_refl (fields : List (String × Json)) (canonical : FieldsCanonical fields)
    (finite : FieldsFinite fields) : ∀ field ∈ fields, field.2.same field.2 = true := by
  intro field mem
  have proper : field.2.IsProper :=
    ⟨fieldsCanonical_iff.mp canonical field mem, fieldsFinite_iff.mp finite field mem⟩
  exact (same_iff_inUnits proper proper).mpr rfl

/-! ### Values as conditions -/

/-- An object that is not empty and has only keys that begin with `$`. -/
def OnlyOperators : Json → Prop
  | .object fields => fields ≠ [] ∧ ∀ field ∈ fields, field.1.toList.head? = some '$'
  | _ => False

theorem operators?_eq_none_iff {v : Json} : Condition.operators? v = none ↔ ¬v.OnlyOperators := by
  cases v <;> simp [Condition.operators?, OnlyOperators]

end Json

/-- A value is among those that are equal to it. -/
theorem Condition.anySame_own {v : Json} (same : v.same v = true) : anySame [v] v = true := by
  have here : v ∈ flattened [v] := by cases v <;> simp [flattened]
  rw [anySame, Bool.or_eq_true, List.any_eq_true]
  exact .inr ⟨v, here, same⟩

/-- **Props match what they are made of.** The fields of an object, all of them or some, are a predicate that
it satisfies. -/
theorem Predicate.matches_own {fields kept : List (String × Json)}
    (canonical : (Json.object fields).IsCanonical) (finite : (Json.object fields).IsFinite)
    (plain : ∀ field ∈ fields, '.' ∉ field.1.toList ∧ ¬field.2.OnlyOperators)
    (some_of : kept.Sublist fields) :
    (Predicate.mk kept).matches (.object fields) = true := by
  refine List.all_eq_true.mpr fun field mem => ?_
  have mem := some_of.subset mem
  obtain ⟨key, literal⟩ := plain field mem
  have value : field.2.same field.2 = true := Json.fieldValues_refl fields canonical.2 finite field mem
  rw [Json.resolve_of_plain key, Fields.find?_of_mem canonical.1 mem, Condition.test,
    Json.operators?_eq_none_iff.mpr literal]
  exact Condition.anySame_own value

/-- Props with an object that has an operator's key among others, with an empty one, and with objects in
arrays in an array. -/
def styledProps : List (String × Json) :=
  [("empty", .object []), ("list", .array [.array [.object [("$in", .null)], .ofInt (-1)], .null]),
    ("ratio", .ofDouble (.finite true (3 * 2 ^ 51) 1021)),
    ("style", .object [("$color", .string "red"), ("size", .ofInt 1)])]

/-- One key is left out. -/
theorem Predicate.matches_own_style : (Json.object styledProps).IsCanonical ∧
    (Json.object styledProps).IsFinite ∧
    (∀ field ∈ styledProps, '.' ∉ field.1.toList ∧ ¬field.2.OnlyOperators) ∧
    (styledProps.eraseIdx 1).Sublist styledProps ∧
    (Predicate.mk (styledProps.eraseIdx 1)).matches (.object styledProps) = true := by
  have canonical : (Json.object styledProps).IsCanonical := by
    simp only [styledProps, Json.IsCanonical, Json.FieldsCanonical, Json.AllCanonical, Fields.Ascending,
      Json.ofInt, Json.ofDouble]
    decide
  have finite : (Json.object styledProps).IsFinite := by
    simp [styledProps, Json.IsFinite, Json.FieldsFinite, Json.AllFinite, Json.ofInt, Json.ofDouble,
      Double.isFinite]
  have plain : ∀ field ∈ styledProps, '.' ∉ field.1.toList ∧ ¬field.2.OnlyOperators := by
    simp only [← Json.operators?_eq_none_iff]
    decide +kernel
  exact ⟨canonical, finite, plain, List.eraseIdx_sublist ..,
    matches_own canonical finite plain (List.eraseIdx_sublist ..)⟩

end PageQuery
