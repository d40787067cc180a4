/-
# Canonical values

Fields set one after another in an ascending list ascend again, and ascending fields set on nothing
are the fields themselves. So a canonical form is in canonical form, and a value that is has no other.
Ascending fields are told apart by what is found in them, so fields are laid over one another in any
grouping.

Key theorems: `Fields.putAll_of_ascending`, `Fields.putAll_invariant`, `Fields.find?_putAll`,
`Fields.eq_of_find?`, `Fields.putAll_putAll`, `Json.canonical_of_isCanonical`, `Json.isCanonical_canonical`.
-/
import PageQuery.Json.Basic
import Mathlib.Data.List.Basic
import Mathlib.Order.Defs.LinearOrder
import Mathlib.Data.String.Basic

namespace PageQuery

namespace Fields

variable {α : Type}

theorem ascending_iff : ∀ {fields : List (String × α)},
    Ascending fields ↔ fields.Pairwise fun f g => f.1 < g.1
  | [] => by simp [Ascending]
  | [_] => by simp [Ascending]
  | (k, u) :: (l, v) :: rest => by
    rw [Ascending, ascending_iff, List.pairwise_cons (a := (k, u))]
    refine and_congr_left fun h => ?_
    constructor
    · intro lt field hf
      rcases List.mem_cons.mp hf with rfl | hf
      · exact lt
      · exact lt.trans (List.rel_of_pairwise_cons h hf)
    · exact fun all => all (l, v) List.mem_cons_self

/-- A field whose key is beyond all others comes last. -/
theorem put_of_beyond {key : String} {value : α} : ∀ {fields : List (String × α)},
    (∀ field ∈ fields, field.1 < key) → put key value fields = fields ++ [(key, value)]
  | [], _ => rfl
  | (k, v) :: rest, h => by
    have lt : k < key := h (k, v) List.mem_cons_self
    have later : put key value rest = rest ++ [(key, value)] :=
      put_of_beyond fun field hf => h field (List.mem_cons_of_mem _ hf)
    rw [put, if_neg lt.not_gt, if_neg lt.ne', later, List.cons_append]

theorem putAll_of_ascending : ∀ {fields base : List (String × α)},
    Ascending (base ++ fields) → putAll base fields = base ++ fields
  | [], base, _ => (List.append_nil base).symm
  | (k, v) :: rest, base, h => by
    have last : put k v base = base ++ [(k, v)] := by
      refine put_of_beyond fun field hf => ?_
      exact (List.pairwise_append.mp (ascending_iff.mp h)).2.2 field hf (k, v) List.mem_cons_self
    have more : putAll (base ++ [(k, v)]) rest = base ++ [(k, v)] ++ rest :=
      putAll_of_ascending (by rwa [List.append_assoc, List.singleton_append])
    calc putAll base ((k, v) :: rest) = putAll (put k v base) rest := rfl
      _ = base ++ [(k, v)] ++ rest := by rw [last, more]
      _ = base ++ (k, v) :: rest := List.append_assoc ..

theorem mem_of_find? {key : String} {value : α} : ∀ {fields : List (String × α)},
    find? key fields = some value → (key, value) ∈ fields
  | (k, v) :: rest, h => by
    rw [find?] at h
    split_ifs at h with e
    · cases h
      exact e ▸ List.mem_cons_self
    · exact List.mem_cons_of_mem _ (mem_of_find? h)

theorem mem_put {key : String} {value : α} {field : String × α} : ∀ {fields : List (String × α)},
    field ∈ put key value fields → field = (key, value) ∨ field ∈ fields
  | [], h => .inl (List.mem_singleton.mp h)
  | (k, v) :: rest, h => by
    rw [put] at h
    split_ifs at h
    · exact List.mem_cons.mp h
    · exact (List.mem_cons.mp h).imp_right (List.mem_cons_of_mem _)
    · rcases List.mem_cons.mp h with rfl | h
      · exact .inr List.mem_cons_self
      · exact (mem_put h).imp_right (List.mem_cons_of_mem _)

theorem ascending_put {key : String} {value : α} : ∀ {fields : List (String × α)},
    Ascending fields → Ascending (put key value fields)
  | [], _ => trivial
  | (k, v) :: rest, h => by
    have beyond := List.pairwise_cons.mp (ascending_iff.mp h)
    rw [put]
    split_ifs with lt same
    · exact ⟨lt, h⟩
    · exact ascending_iff.mpr (List.pairwise_cons.mpr ⟨same ▸ beyond.1, beyond.2⟩)
    · have after : Ascending (put key value rest) := ascending_put (ascending_iff.mpr beyond.2)
      refine ascending_iff.mpr (List.pairwise_cons.mpr ⟨fun field hf => ?_, ascending_iff.mp after⟩)
      rcases mem_put hf with rfl | hf
      · exact lt_of_le_of_ne (not_lt.mp lt) (Ne.symm same)
      · exact beyond.1 field hf

/-- Fields set one after another ascend and come from those that were set. -/
theorem putAll_invariant {P : String × α → Prop} : ∀ (base : List (String × α)) {fields},
    Ascending base → (∀ field ∈ base, P field) → (∀ field ∈ fields, P field) →
      Ascending (putAll base fields) ∧ ∀ field ∈ putAll base fields, P field
  | _, [], ascending, old, _ => ⟨ascending, old⟩
  | base, (k, v) :: rest, ascending, old, new => by
    refine putAll_invariant (put k v base) (ascending_put ascending) (fun field hf => ?_)
      fun field hf => new field (List.mem_cons_of_mem _ hf)
    rcases mem_put hf with rfl | hf
    · exact new _ List.mem_cons_self
    · exact old field hf

theorem ofList_of_ascending {fields : List (String × α)} (h : Ascending fields) :
    ofList fields = fields := putAll_of_ascending h

theorem find?_put (key other : String) (value : α) : ∀ fields : List (String × α),
    find? other (put key value fields) = if key = other then some value else find? other fields
  | [] => rfl
  | (k, v) :: rest => by
    rw [put]
    by_cases lt : key < k
    · rw [if_pos lt, find?]
    · by_cases same : key = k
      · subst same
        rw [if_neg lt, if_pos rfl, find?, find?]
        split_ifs <;> rfl
      · rw [if_neg lt, if_neg same, find?, find?, find?_put key other value rest]
        by_cases found : k = other
        · rw [if_pos found, if_pos found, if_neg fun e => same (e.trans found.symm)]
        · rw [if_neg found, if_neg found]

/-- Fields set over others are found before them. -/
theorem find?_putAll (key : String) : ∀ {fields base : List (String × α)}, Ascending fields →
    find? key (putAll base fields) = (find? key fields).or (find? key base)
  | [], _, _ => rfl
  | (k, v) :: rest, base, h => by
    obtain ⟨beyond, more⟩ := List.pairwise_cons.mp (ascending_iff.mp h)
    have behind : find? key (putAll (put k v base) rest) = _ := find?_putAll key (ascending_iff.mpr more)
    change find? key (putAll (put k v base) rest) = _
    rw [behind, find?_put, find?]
    split_ifs with found
    · have none : find? key rest = none := Option.eq_none_iff_forall_ne_some.mpr fun w again =>
        (beyond (key, w) (mem_of_find? again)).ne found
      rw [none]
      rfl
    · rfl

theorem ascending_putAll {base fields : List (String × α)} (h : Ascending base) :
    Ascending (putAll base fields) :=
  (putAll_invariant base (P := fun _ => True) h (fun _ _ => trivial) fun _ _ => trivial).1

/-- No field of an ascending list has a key in front of the first one. -/
theorem find?_of_before {key : String} {fields : List (String × α)}
    (before : ∀ field ∈ fields, key < field.1) : find? key fields = none := by
  cases h : find? key fields with
  | none => rfl
  | some value => exact absurd (before _ (mem_of_find? h)) (lt_irrefl key)

theorem find?_eq_none_iff {key : String} : ∀ {fields : List (String × α)},
    find? key fields = none ↔ key ∉ fields.map Prod.fst
  | [] => by simp [find?]
  | (k, v) :: rest => by
    rw [find?, List.map_cons, List.mem_cons, not_or, ← find?_eq_none_iff]
    split_ifs with first
    · simp [first]
    · simp [Ne.symm first]

theorem find?_map {β : Type} (f : α → β) (key : String) : ∀ fields : List (String × α),
    find? key (fields.map fun field => (field.1, f field.2)) = (find? key fields).map f
  | [] => rfl
  | (k, v) :: rest => by
    rw [List.map_cons, find?, find?, find?_map f key rest]
    split_ifs <;> rfl

theorem Ascending.map {β : Type} {fields : List (String × α)} (h : Ascending fields) (f : α → β) :
    Ascending (fields.map fun field => (field.1, f field.2)) :=
  ascending_iff.mpr (List.pairwise_map.mpr (ascending_iff.mp h))

theorem Ascending.keys_nodup {fields : List (String × α)} (h : Ascending fields) :
    (fields.map Prod.fst).Nodup :=
  List.pairwise_map.mpr ((ascending_iff.mp h).imp fun lt => lt.ne)

/-- Ascending fields are told apart by what is found in them. -/
theorem eq_of_find? : ∀ {a b : List (String × α)}, Ascending a → Ascending b →
    (∀ key, find? key a = find? key b) → a = b
  | [], [], _, _, _ => rfl
  | [], (l, w) :: b, _, _, same => by simpa [find?] using same l
  | (k, u) :: a, [], _, _, same => by simpa [find?] using same k
  | (k, u) :: a, (l, w) :: b, ha, hb, same => by
    obtain ⟨after, more⟩ := List.pairwise_cons.mp (ascending_iff.mp ha)
    obtain ⟨after', more'⟩ := List.pairwise_cons.mp (ascending_iff.mp hb)
    have first : k = l := by
      rcases lt_trichotomy k l with lt | eq | gt
      · have absent : find? k ((l, w) :: b) = none :=
          find?_of_before (List.forall_mem_cons.mpr ⟨lt, fun field mem => lt.trans (after' field mem)⟩)
        have first := same k
        rw [absent] at first
        simp [find?] at first
      · exact eq
      · have absent : find? l ((k, u) :: a) = none :=
          find?_of_before (List.forall_mem_cons.mpr ⟨gt, fun field mem => gt.trans (after field mem)⟩)
        have first := same l
        rw [absent] at first
        simp [find?] at first
    subst first
    have value : u = w := by simpa [find?] using same k
    have rest : a = b := by
      refine eq_of_find? (ascending_iff.mpr more) (ascending_iff.mpr more') fun key => ?_
      by_cases here : k = key
      · rw [← here, find?_of_before after, find?_of_before after']
      · simpa [find?, here] using same key
    rw [value, rest]

/-- A field set in an overlay is set last. -/
theorem putAll_put {base fields : List (String × α)} (hb : Ascending base) (hf : Ascending fields)
    (key : String) (value : α) :
    putAll base (put key value fields) = put key value (putAll base fields) := by
  refine eq_of_find? (ascending_putAll hb) (ascending_put (ascending_putAll hb)) fun other => ?_
  rw [find?_putAll other (ascending_put hf), find?_put, find?_put, find?_putAll other hf]
  split_ifs <;> rfl

/-- **Laying fields over others is associative.** -/
theorem putAll_putAll {base : List (String × α)} (hb : Ascending base) :
    ∀ {middle fields : List (String × α)}, Ascending middle →
      putAll base (putAll middle fields) = putAll (putAll base middle) fields
  | _, [], _ => rfl
  | middle, (key, value) :: rest, hm =>
    calc putAll base (putAll middle ((key, value) :: rest))
        = putAll base (putAll (put key value middle) rest) := rfl
      _ = putAll (putAll base (put key value middle)) rest := putAll_putAll hb (ascending_put hm)
      _ = putAll (put key value (putAll base middle)) rest := by rw [putAll_put hb hm]
      _ = putAll (putAll base middle) ((key, value) :: rest) := rfl

end Fields

namespace Json

mutual

/-- A value in canonical form is its own canonical form. -/
theorem canonical_of_isCanonical : (v : Json) → v.IsCanonical → v.canonical = v
  | .null, _ | .bool _, _ | .number _, _ | .string _, _ => rfl
  | .array items, h => by rw [canonical, canonicalItems_of_allCanonical items h]
  | .object fields, ⟨ascending, h⟩ => by
    rw [canonical, canonicalFields_of_fieldsCanonical fields h, Fields.ofList_of_ascending ascending]

theorem canonicalItems_of_allCanonical :
    (items : List Json) → AllCanonical items → canonicalItems items = items
  | [], _ => rfl
  | v :: rest, ⟨h, more⟩ => by
    rw [canonicalItems, canonical_of_isCanonical v h, canonicalItems_of_allCanonical rest more]

theorem canonicalFields_of_fieldsCanonical :
    (fields : List (String × Json)) → FieldsCanonical fields → canonicalFields fields = fields
  | [], _ => rfl
  | (k, v) :: rest, ⟨h, more⟩ => by
    rw [canonicalFields, canonical_of_isCanonical v h, canonicalFields_of_fieldsCanonical rest more]

end

theorem fieldsCanonical_iff : ∀ {fields : List (String × Json)},
    FieldsCanonical fields ↔ ∀ field ∈ fields, field.2.IsCanonical
  | [] => by simp [FieldsCanonical]
  | (k, v) :: rest => by rw [FieldsCanonical, fieldsCanonical_iff, List.forall_mem_cons]

mutual

/-- A canonical form is in canonical form. -/
theorem isCanonical_canonical : (v : Json) → v.canonical.IsCanonical
  | .null | .bool _ | .number _ | .string _ => trivial
  | .array items => allCanonical_canonicalItems items
  | .object fields => by
    have all := fieldsCanonical_iff.mp (fieldsCanonical_canonicalFields fields)
    obtain ⟨ascending, canonical⟩ := Fields.putAll_invariant [] trivial nofun all
    exact ⟨ascending, fieldsCanonical_iff.mpr canonical⟩

theorem allCanonical_canonicalItems : (items : List Json) → AllCanonical (canonicalItems items)
  | [] => trivial
  | v :: rest => ⟨isCanonical_canonical v, allCanonical_canonicalItems rest⟩

theorem fieldsCanonical_canonicalFields :
    (fields : List (String × Json)) → FieldsCanonical (canonicalFields fields)
  | [] => trivial
  | (_, v) :: rest => ⟨isCanonical_canonical v, fieldsCanonical_canonicalFields rest⟩

end

end Json

end PageQuery
