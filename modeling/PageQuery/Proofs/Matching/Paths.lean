/-
# Paths compose

A path goes down into a value by rules: an object leads to its field, an array to one item under an index and
otherwise, with the whole path still ahead, to every item. So the rules go on now along the path and now into
the nesting of arrays. Only one function keeps to them (`descends_iff`), and it takes the segments one after
another: to go into arrays, however deep, and to take a field of what is found there is a step of its own
(`follow_items`). Hence a path may be cut anywhere, and what it reaches is, in order, what its rear part
reaches from all that its front part does.

Key definitions: `Json.Descends`.
Key theorems: `Json.follow_items`, `Json.resolve_descends`, `Json.Descends.reached_eq`,
`Json.resolve_composes`.
-/
import PageQuery.Matching.Path
import PageQuery.Proofs.Json.Canonical

namespace PageQuery

namespace Json

variable {segment : String} {items : List Json}

/-- The rules by which a path goes down into a value. -/
structure Descends (reached : List String → Json → List Json) : Prop where
  arrived : ∀ v, reached [] v = [v]
  field : ∀ segment path fields, reached (segment :: path) (.object fields) =
    (Fields.find? segment fields).elim [] (reached path)
  item : ∀ segment path items i, indexOf? segment = some i →
    reached (segment :: path) (.array items) = items[i]?.elim [] (reached path)
  /-- Without an index the whole path goes on into every item. -/
  items : ∀ segment path items, indexOf? segment = none →
    reached (segment :: path) (.array items) = items.flatMap (reached (segment :: path))
  scalar : ∀ segment path v, v.array? = none → v.object? = none → reached (segment :: path) v = []

/-! ### One segment -/

@[simp] theorem spreadItems_eq_flatMap (items : List Json) : spreadItems items = items.flatMap spread := by
  induction items with
  | nil => rfl
  | cons v rest ih => rw [spreadItems, ih, List.flatMap_cons]

theorem follow_field (segment : String) (fields : List (String × Json)) :
    follow segment (.object fields) = (Fields.find? segment fields).toList := by
  unfold follow
  cases indexOf? segment <;> simp [spread, field?]

theorem follow_item {i : Nat} (index : indexOf? segment = some i) :
    follow segment (.array items) = items[i]?.toList := by
  unfold follow
  rw [index]

theorem follow_unindexed (unindexed : indexOf? segment = none) :
    follow segment = fun v => v.spread.flatMap fun w => (w.field? segment).toList := by
  funext v
  unfold follow
  rw [unindexed]

/-- Without an index a segment leads from an array to where it leads from the items. -/
theorem follow_items (unindexed : indexOf? segment = none) (items : List Json) :
    follow segment (.array items) = items.flatMap (follow segment) := by
  rw [follow_unindexed unindexed]
  calc (spreadItems items).flatMap (fun w => (w.field? segment).toList)
      = (items.flatMap spread).flatMap (fun w => (w.field? segment).toList) := by
        rw [spreadItems_eq_flatMap]
    _ = items.flatMap fun v => v.spread.flatMap fun w => (w.field? segment).toList :=
        List.flatMap_assoc

theorem follow_scalar {v : Json} (noArray : v.array? = none) (noObject : v.object? = none) :
    follow segment v = [] := by
  unfold follow
  cases v with
  | array _ => cases noArray
  | object _ => cases noObject
  | _ => cases indexOf? segment <;> rfl

/-! ### Whole paths -/

/-- Segments taken one after another keep to the rules. -/
theorem resolve_descends : Descends resolve where
  arrived := resolve_nil
  field segment path fields := by
    rw [resolve_cons, follow_field]
    cases Fields.find? segment fields <;> simp
  item segment path items i index := by
    rw [resolve_cons, follow_item index]
    cases items[i]? <;> simp
  items segment path items unindexed := by
    calc resolve (segment :: path) (.array items)
        = (items.flatMap (follow segment)).flatMap (resolve path) := by
          rw [resolve_cons, follow_items unindexed]
      _ = items.flatMap fun v => (follow segment v).flatMap (resolve path) := List.flatMap_assoc
  scalar segment path v noArray noObject := by
    rw [resolve_cons, follow_scalar noArray noObject, List.flatMap_nil]

mutual

/-- The rules leave no choice. The induction is on the value, as a path does not get shorter on its way
into the items of an array. -/
theorem Descends.reached_eq {reached : List String → Json → List Json} (rules : Descends reached) :
    ∀ (v : Json) (path : List String), reached path v = resolve path v
  | v, [] => rules.arrived v
  | .object fields, segment :: path => by
    rw [rules.field, resolve_descends.field]
    cases found : Fields.find? segment fields with
    | none => rfl
    | some child => exact rules.reached_eq_field fields _ (Fields.mem_of_find? found) path
  | .array items, segment :: path => by
    have each := rules.reached_eq_item items
    cases index : indexOf? segment with
    | some i =>
      rw [rules.item _ _ _ _ index, resolve_descends.item _ _ _ _ index]
      cases here : items[i]? with
      | none => rfl
      | some child => exact each child (List.mem_of_getElem? here) path
    | none =>
      rw [rules.items _ _ _ index, resolve_descends.items _ _ _ index]
      exact List.flatMap_congr fun v mem => each v mem _
  | .null, _ :: _ | .bool _, _ :: _ | .number _, _ :: _ | .string _, _ :: _ => by
    rw [rules.scalar _ _ _ rfl rfl, resolve_descends.scalar _ _ _ rfl rfl]

theorem Descends.reached_eq_item {reached : List String → Json → List Json} (rules : Descends reached) :
    ∀ (items : List Json), ∀ v ∈ items, ∀ path : List String, reached path v = resolve path v
  | [] => nofun
  | v :: rest => List.forall_mem_cons.mpr ⟨rules.reached_eq v, rules.reached_eq_item rest⟩

theorem Descends.reached_eq_field {reached : List String → Json → List Json} (rules : Descends reached) :
    ∀ (fields : List (String × Json)), ∀ field ∈ fields, ∀ path : List String,
      reached path field.2 = resolve path field.2
  | [] => nofun
  | (_, v) :: rest => List.forall_mem_cons.mpr ⟨rules.reached_eq v, rules.reached_eq_field rest⟩

end

/-- One function keeps to the rules. -/
theorem descends_iff {reached : List String → Json → List Json} : Descends reached ↔ reached = resolve :=
  ⟨fun rules => funext fun path => funext fun v => rules.reached_eq v path,
    fun same => same ▸ resolve_descends⟩

/-- **Paths compose.** What the rules let a path reach is what its rear part reaches from all that its front
part reaches, in order, wherever it is cut. -/
theorem resolve_composes :
    (∀ reached, Descends reached ↔ reached = resolve) ∧
      ∀ (front rear : List String) (v : Json),
        resolve (front ++ rear) v = (resolve front v).flatMap (resolve rear) := by
  refine ⟨fun _ => descends_iff, fun front => ?_⟩
  induction front with
  | nil => exact fun rear v => (List.flatMap_singleton ..).symm
  | cons segment front ih =>
    intro rear v
    calc resolve (segment :: front ++ rear) v
        = (follow segment v).flatMap (resolve (front ++ rear)) := rfl
      _ = (follow segment v).flatMap fun w => (resolve front w).flatMap (resolve rear) := by
        rw [funext (ih rear)]
      _ = (resolve (segment :: front) v).flatMap (resolve rear) := by
        rw [resolve_cons, List.flatMap_assoc]

end Json

end PageQuery
