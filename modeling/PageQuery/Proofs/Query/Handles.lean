/-
# Values that denote handles

A value denotes handles if it is null, a node, nodes or components, or an array of such values. The
decoder of contexts knows two more forms, the root marker and the fetcher, and tries both before the
handles. So it reads the handles of a value exactly where it finds neither, at any depth. It finds a
root marker in an array of one truth value too, since a root marker may be an array of its parts.

Key definitions: `Context.IsHandles`, `Json.handles?`, `Json.ReadsHandles`, `Json.MarksNothing`.
Key theorems: `Json.ofJson?_eq_handles?_iff`, `Json.marksNothing_array`.
-/
import PageQuery.Query.ResultSet

namespace PageQuery

/-! ### Contexts of handles -/

namespace Context

mutual

/-- Null, handles, and arrays of them: no root marker and no fetcher stands anywhere. -/
def IsHandles : Context → Prop
  | .root _ => False
  | .fetcher _ _ => False
  | .array items => AllHandles items
  | _ => True

def AllHandles : List Context → Prop
  | [] => True
  | c :: rest => IsHandles c ∧ AllHandles rest

end

theorem not_isHandles_of_rootOf? {v : Json} {c : Context} (h : rootOf? v = some c) : ¬c.IsHandles := by
  unfold rootOf? at h
  obtain ⟨parts, -, h⟩ := Option.bind_eq_some_iff.mp h
  split at h
  · obtain ⟨isRoot, -, rfl⟩ := Option.map_eq_some_iff.mp h
    exact id
  · cases h

theorem not_isHandles_of_fetcherOf? {fields : List (String × Json)} {inner : Option Context} {c : Context}
    (h : fetcherOf? fields inner = some c) : ¬c.IsHandles := by
  unfold fetcherOf? at h
  split at h
  · cases h
    exact id
  · cases h

theorem isHandles_of_handleOf? {fields : List (String × Json)} {c : Context}
    (h : handleOf? fields = some c) : c.IsHandles := by
  unfold handleOf? at h
  simp only [Option.or_eq_some_iff, Option.map_eq_some_iff] at h
  rcases h with ⟨_, -, rfl⟩ | ⟨-, ⟨_, -, rfl⟩ | ⟨-, _, -, rfl⟩⟩ <;> trivial

/-- An object that reads as a context of handles does so by its handle. -/
theorem handleOf?_of_object {fields : List (String × Json)} {c : Context}
    (h : ofJson? (.object fields) = some c) (handles : c.IsHandles) : handleOf? fields = some c := by
  unfold ofJson? at h
  rcases Option.or_eq_some_iff.mp h with h | ⟨-, h⟩
  · exact absurd handles (not_isHandles_of_rootOf? h)
  · rcases Option.or_eq_some_iff.mp h with h | ⟨-, h⟩
    · exact absurd handles (not_isHandles_of_fetcherOf? h)
    · exact h

end Context

/-! ### Values of handles -/

namespace Json

mutual

/-- The handles that a value denotes: null, a node, nodes or components, or an array of such values,
read item by item. -/
def handles? : Json → Option Context
  | .null => some .null
  | .array items => (handlesOfAll? items).map .array
  | .object fields => Context.handleOf? fields
  | _ => none

def handlesOfAll? : List Json → Option (List Context)
  | [] => some []
  | v :: rest =>
    match handles? v, handlesOfAll? rest with
    | some c, some cs => some (c :: cs)
    | _, _ => none

end

/-- If the value reads as a context, then as one of handles. -/
def ReadsHandles (v : Json) : Prop := ∀ c, Context.ofJson? v = some c → c.IsHandles

mutual

theorem isHandles_of_handles? : ∀ {v : Json} {c : Context}, v.handles? = some c → c.IsHandles
  | .null, _, h => by cases h; trivial
  | .array items, _, h => by
    obtain ⟨cs, all, rfl⟩ := Option.map_eq_some_iff.mp h
    exact allHandles_of_handlesOfAll? all
  | .object _, _, h => Context.isHandles_of_handleOf? h

theorem allHandles_of_handlesOfAll? : ∀ {items : List Json} {cs : List Context},
    handlesOfAll? items = some cs → Context.AllHandles cs
  | [], _, h => by cases h; trivial
  | v :: rest, _, h => by
    unfold handlesOfAll? at h
    split at h
    · next first others =>
      cases h
      exact ⟨isHandles_of_handles? first, allHandles_of_handlesOfAll? others⟩
    · cases h

end

mutual

/-- What denotes handles reads as some context. -/
theorem ofJson?_of_handles? : ∀ {v : Json} {c : Context},
    v.handles? = some c → ∃ c', Context.ofJson? v = some c'
  | .null, _, _ => ⟨.null, rfl⟩
  | .array items, _, h => by
    obtain ⟨cs, all, -⟩ := Option.map_eq_some_iff.mp h
    obtain ⟨cs', all⟩ := ofItems?_of_handlesOfAll? all
    unfold Context.ofJson?
    rw [all]
    cases Context.rootOf? (.array items) with
    | some c => exact ⟨c, rfl⟩
    | none => exact ⟨.array cs', rfl⟩
  | .object fields, c, h => by
    have handle : Context.handleOf? fields = some c := h
    unfold Context.ofJson?
    rw [handle]
    cases Context.rootOf? (.object fields) with
    | some c => exact ⟨c, rfl⟩
    | none =>
      cases Context.fetcherOf? fields (Context.inFields? fields) with
      | some c => exact ⟨c, rfl⟩
      | none => exact ⟨c, rfl⟩

theorem ofItems?_of_handlesOfAll? : ∀ {items : List Json} {cs : List Context},
    handlesOfAll? items = some cs → ∃ cs', Context.ofItems? items = some cs'
  | [], _, _ => ⟨[], rfl⟩
  | v :: rest, _, h => by
    unfold handlesOfAll? at h
    split at h
    · next first others =>
      obtain ⟨c, first⟩ := ofJson?_of_handles? first
      obtain ⟨cs, others⟩ := ofItems?_of_handlesOfAll? others
      exact ⟨c :: cs, by rw [Context.ofItems?, first, others]⟩
    · cases h

end

mutual

/-- A context of handles is what its value denotes. -/
theorem handles?_of_ofJson? : ∀ {v : Json} {c : Context},
    Context.ofJson? v = some c → c.IsHandles → v.handles? = some c
  | .null, _, h, _ => h
  | .array items, c, h, handles => by
    unfold Context.ofJson? at h
    rcases Option.or_eq_some_iff.mp h with h | ⟨-, h⟩
    · exact absurd handles (Context.not_isHandles_of_rootOf? h)
    · obtain ⟨cs, all, rfl⟩ := Option.map_eq_some_iff.mp h
      rw [Json.handles?, handlesOfAll?_of_ofItems? all handles]
      rfl
  | .object _, _, h, handles => Context.handleOf?_of_object h handles

theorem handlesOfAll?_of_ofItems? : ∀ {items : List Json} {cs : List Context},
    Context.ofItems? items = some cs → Context.AllHandles cs → handlesOfAll? items = some cs
  | [], _, h, _ => h
  | v :: rest, _, h, handles => by
    unfold Context.ofItems? at h
    split at h
    · next first others =>
      cases h
      rw [handlesOfAll?, handles?_of_ofJson? first handles.1, handlesOfAll?_of_ofItems? others handles.2]
    · cases h

end

/-- **The decoder of contexts reads the handles of a value exactly where it reads nothing else.** -/
theorem ofJson?_eq_handles?_iff {v : Json} : Context.ofJson? v = v.handles? ↔ v.ReadsHandles := by
  constructor
  · intro same c read
    exact isHandles_of_handles? (same ▸ read)
  · intro handles
    cases read : Context.ofJson? v with
    | some c => exact (handles?_of_ofJson? read (handles c read)).symm
    | none =>
      cases denoted : v.handles? with
      | none => rfl
      | some c =>
        obtain ⟨c', read'⟩ := ofJson?_of_handles? denoted
        cases read.symm.trans read'

/-- The handle of one node, as written by a result, is read as no other form. -/
theorem readsHandles_node (n : NodeId) : (ResultSet.node n).toJson.ReadsHandles := by
  intro c h
  have handle : Context.handleOf? [("node", n.toJson)] = some c := h
  exact Context.isHandles_of_handleOf? handle

/-! ### Arrays of values that read as handles -/

/-- The value is no truth value, so that it marks nothing as the root, and reads as handles or not at
all. -/
def MarksNothing (v : Json) : Prop := v.bool? = none ∧ v.ReadsHandles

theorem readsHandles_of_none {v : Json} (h : Context.ofJson? v = none) : v.ReadsHandles := fun _ e =>
  (nomatch h.symm.trans e)

theorem marksNothing_null : MarksNothing .null := by
  refine ⟨rfl, ?_⟩
  rintro _ ⟨⟩
  trivial

theorem marksNothing_string (s : String) : MarksNothing (.string s) := ⟨rfl, readsHandles_of_none rfl⟩

/-- An array whose items are no truth values is no root marker. -/
theorem rootOf?_array {items : List Json} (h : ∀ v ∈ items, v.bool? = none) :
    Context.rootOf? (.array items) = none := by
  match items, h with
  | [], _ => rfl
  | [v], h =>
    have flag : v.bool? = none := h v List.mem_cons_self
    unfold Context.rootOf?
    show (Json.required Json.bool? (some v)).map Context.root = none
    rw [Json.required, Option.bind_some, flag]
    rfl
  | _ :: _ :: _, _ => rfl

theorem allHandles_of_ofItems? : ∀ {items : List Json} {cs : List Context},
    (∀ v ∈ items, v.ReadsHandles) → Context.ofItems? items = some cs → Context.AllHandles cs
  | [], _, _, h => by cases h; trivial
  | v :: rest, _, handles, h => by
    rw [List.forall_mem_cons] at handles
    unfold Context.ofItems? at h
    split at h
    · next c _ first others =>
      cases h
      exact ⟨handles.1 c first, allHandles_of_ofItems? handles.2 others⟩
    · cases h

theorem marksNothing_array {items : List Json} (h : ∀ v ∈ items, v.MarksNothing) :
    MarksNothing (.array items) := by
  refine ⟨rfl, fun c read => ?_⟩
  unfold Context.ofJson? at read
  rw [rootOf?_array fun v hv => (h v hv).1, Option.none_or] at read
  obtain ⟨cs, all, rfl⟩ := Option.map_eq_some_iff.mp read
  exact allHandles_of_ofItems? (fun v hv => (h v hv).2) all

end Json

end PageQuery
