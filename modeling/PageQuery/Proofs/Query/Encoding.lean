/-
# Fetchers, contexts and results in JSON

Decoding undoes encoding. A context is read as the first shape that fits, so no context may be written
in a shape that is tried before its own: an array of contexts has no truth value for its first item
and is no root marker; the fields of a fetcher, of a handle and of a root marker have different names.
A result set is written as the context that it serves as, and so is read back as that context.

What is encoded must be a value of the decoder's range: handles of 64 bits, indices of signed 64 bits,
and arguments whose objects list their fields in ascending order.

Key definitions: `Context.Fits`, `Fetcher.Fits`, `ResultSet.Fits`.
Key theorems: `Operation.ofFields?_fieldsAround`, `Context.ofJson?_toJson`, `Context.fits_iff`,
`Context.ofJson?_toJson_results`, `Context.decoded_of_encoded`.
-/
import PageQuery.Query.ResultSet
import PageQuery.Proofs.Json.Canonical

namespace PageQuery

/-! ### Numbers and lists -/

namespace Json

theorem nat64?_ofNat {n : Nat} (h : n < 2 ^ 64) : (ofNat n).nat64? = some n := by
  have top : Number.maxNat = 18446744073709551615 := by decide
  have bounds : 0 ≤ (n : Int) ∧ (n : Int) ≤ Number.maxNat := by omega
  rw [ofNat, nat64?, Number.nat64?, if_pos bounds, Int.toNat_natCast]

theorem int64?_ofInt {n : Int} (low : Number.minInt ≤ n) (high : n ≤ Number.maxInt) :
    (ofInt n).int64? = some n := by
  rw [ofInt, int64?, Number.int64?, if_pos ⟨low, high⟩]

/-- A list is read back from an array if each of its items is. -/
theorem listOf?_map {α : Type} {read : Json → Option α} {encode : α → Json} {as : List α}
    (h : ∀ a ∈ as, read (encode a) = some a) : listOf? read (.array (as.map encode)) = some as := by
  rw [listOf?]
  induction as with
  | nil => rfl
  | cons a rest ih =>
    rw [List.forall_mem_cons] at h
    rw [List.map_cons, List.mapM_cons, h.1, ih h.2]
    rfl

theorem lt_of_nat64? {v : Json} {n : Nat} (h : v.nat64? = some n) : n < 2 ^ 64 := by
  have top : Number.maxNat = 18446744073709551615 := by decide
  match v, h with
  | .number (.int k), h =>
    rw [nat64?, Number.nat64?] at h
    split_ifs at h with bounds
    obtain rfl := Option.some.inj h
    omega

theorem bounds_of_int64? {v : Json} {n : Int} (h : v.int64? = some n) :
    Number.minInt ≤ n ∧ n ≤ Number.maxInt := by
  match v, h with
  | .number (.int k), h =>
    rw [int64?, Number.int64?] at h
    split_ifs at h with bounds
    exact Option.some.inj h ▸ bounds

theorem of_mem_mapM {α : Type} {read : Json → Option α} {P : α → Prop}
    (h : ∀ v a, read v = some a → P a) : ∀ {items : List Json} {as : List α},
      items.mapM read = some as → ∀ a ∈ as, P a
  | [], _, all => by cases all; nofun
  | v :: rest, as, all => by
    rw [List.mapM_cons] at all
    obtain ⟨a, ha, all⟩ := Option.bind_eq_some_iff.mp all
    obtain ⟨more, hm, all⟩ := Option.bind_eq_some_iff.mp all
    cases all
    exact List.forall_mem_cons.mpr ⟨h v a ha, of_mem_mapM h hm⟩

/-- The items of a list that was read are such as its items are read. -/
theorem of_mem_listOf? {α : Type} {read : Json → Option α} {P : α → Prop}
    (h : ∀ v a, read v = some a → P a) {v : Json} {as : List α} (all : listOf? read v = some as) :
    ∀ a ∈ as, P a := by
  match v, all with
  | .array _, all => exact of_mem_mapM h all

end Json

/-! ### Values of the decoder's range -/

/-- A handle of 64 bits. -/
def NodeId.Fits (n : NodeId) : Prop := n.index < 2 ^ 64

/-- A handle of 64 bits. -/
def InstanceId.Fits (i : InstanceId) : Prop := i.index < 2 ^ 64

/-- The index is of signed 64 bits. -/
def Query.Fits (q : Query) : Prop := ∀ i ∈ q.at?, Number.minInt ≤ i ∧ i ≤ Number.maxInt

/-- A query with an index in range, or a call with canonical arguments. -/
def Operation.Fits : Operation → Prop
  | .query q => q.Fits
  | .call c => ∀ v ∈ c.args, v.IsCanonical

mutual

/-- All handles, indices and arguments are of the decoder's range. -/
def Context.Fits : Context → Prop
  | .root _ => True
  | .fetcher context operation => Context.Fits context ∧ operation.Fits
  | .node n => n.Fits
  | .nodes ns => ∀ n ∈ ns, n.Fits
  | .components is => ∀ i ∈ is, i.Fits
  | .array items => Context.AllFit items
  | .null => True

def Context.AllFit : List Context → Prop
  | [] => True
  | c :: rest => Context.Fits c ∧ Context.AllFit rest

end

/-- The context and the operation are of the decoder's range. -/
def Fetcher.Fits (f : Fetcher) : Prop := f.context.Fits ∧ f.operation.Fits

mutual

/-- All handles are of 64 bits. -/
def ResultSet.Fits : ResultSet → Prop
  | .null => True
  | .nodes ns => ∀ n ∈ ns, n.Fits
  | .components is => ∀ i ∈ is, i.Fits
  | .array items => ResultSet.AllFit items

def ResultSet.AllFit : List ResultSet → Prop
  | [] => True
  | r :: rest => ResultSet.Fits r ∧ ResultSet.AllFit rest

end

@[simp] theorem ResultSet.allFit_iff {items : List ResultSet} : AllFit items ↔ ∀ r ∈ items, r.Fits := by
  induction items with
  | nil => simp [AllFit]
  | cons r rest ih => rw [AllFit, ih, List.forall_mem_cons]

mutual

/-- The context of a result set has the handles of the result set. -/
theorem ResultSet.toContext_fits : (r : ResultSet) → r.Fits → r.toContext.Fits
  | .null, _ => trivial
  | .nodes [], _ => nofun
  | .nodes [n], h => h n List.mem_cons_self
  | .nodes (_ :: _ :: _), h => h
  | .components _, h => h
  | .array items, h => ResultSet.itemsToContext_fit items h

theorem ResultSet.itemsToContext_fit :
    (items : List ResultSet) → AllFit items → Context.AllFit (itemsToContext items)
  | [], _ => trivial
  | r :: rest, ⟨h, more⟩ => ⟨ResultSet.toContext_fits r h, ResultSet.itemsToContext_fit rest more⟩

end

/-! ### Handles and operations read back -/

theorem NodeId.ofJson?_toJson {n : NodeId} (h : n.Fits) : NodeId.ofJson? n.toJson = some n := by
  rw [ofJson?, toJson, Json.nat64?_ofNat h]
  rfl

theorem InstanceId.ofJson?_toJson {i : InstanceId} (h : i.Fits) :
    InstanceId.ofJson? i.toJson = some i := by
  rw [ofJson?, toJson, Json.nat64?_ofNat h]
  rfl

theorem Query.ofJson?_toJson {q : Query} (h : q.Fits) : Query.ofJson? q.toJson = some q := by
  obtain ⟨selector, multi, at?⟩ := q
  cases at? with
  | none => rfl
  | some i =>
    obtain ⟨low, high⟩ := h i rfl
    have index : Json.optional Json.int64? (some (.ofInt i)) = some (some i) := by
      show (Json.ofInt i).int64?.map some = some (some i)
      rw [Json.int64?_ofInt low high, Option.map_some]
    have parts : (Query.mk selector multi (some i)).toJson.parts? false ["selector", "multi", "at"] =
        some [some (.string selector), some (.bool multi), some (.ofInt i)] := rfl
    rw [ofJson?, parts]
    show (Json.optional Json.int64? (some (.ofInt i))).bind _ = _
    rw [index]
    rfl

theorem NodeId.fits_of_ofJson? {v : Json} {n : NodeId} (h : NodeId.ofJson? v = some n) : n.Fits := by
  obtain ⟨k, hk, rfl⟩ := Option.map_eq_some_iff.mp h
  exact Json.lt_of_nat64? hk

theorem InstanceId.fits_of_ofJson? {v : Json} {i : InstanceId} (h : InstanceId.ofJson? v = some i) :
    i.Fits := by
  obtain ⟨k, hk, rfl⟩ := Option.map_eq_some_iff.mp h
  exact Json.lt_of_nat64? hk

theorem Query.fits_of_ofJson? {v : Json} {q : Query} (h : Query.ofJson? v = some q) : q.Fits := by
  obtain ⟨parts, -, h⟩ := Option.bind_eq_some_iff.mp h
  split at h
  · obtain ⟨selector, -, h⟩ := Option.bind_eq_some_iff.mp h
    obtain ⟨multi, -, h⟩ := Option.bind_eq_some_iff.mp h
    obtain ⟨at?, index, h⟩ := Option.bind_eq_some_iff.mp h
    cases h
    rintro i rfl
    unfold Json.optional at index
    split at index
    · cases index
    · cases index
    · obtain ⟨_, written, same⟩ := Option.map_eq_some_iff.mp index
      exact Json.bounds_of_int64? (Option.some.inj same ▸ written)
  · cases h

namespace Operation

variable {o : Operation} {v : Json}

theorem fits_of_ofFields? {fields : List (String × Json)} (h : ofFields? fields = some o) :
    o.Fits := by
  rw [ofFields?, Option.or_eq_some_iff] at h
  rcases h with h | ⟨-, h⟩
  · obtain ⟨q, read, rfl⟩ := Option.map_eq_some_iff.mp h
    obtain ⟨v, -, read⟩ := Option.bind_eq_some_iff.mp read
    exact Query.fits_of_ofJson? read
  · obtain ⟨parts, -, h⟩ := Option.bind_eq_some_iff.mp h
    split at h
    · obtain ⟨name, -, h⟩ := Option.bind_eq_some_iff.mp h
      obtain ⟨args, -, h⟩ := Option.bind_eq_some_iff.mp h
      cases h
      intro v hv
      obtain ⟨w, -, rfl⟩ := List.mem_map.mp hv
      exact w.isCanonical_canonical
    · cases h

/-- The operation is read from among the fields of a fetcher: the fields of a call have no query. -/
theorem ofFields?_fieldsAround (h : o.Fits) : ofFields? (o.fieldsAround v) = some o := by
  cases o with
  | query q =>
    have only : Json.onlyField? "query" (fieldsAround v (.query q)) = some q.toJson := rfl
    have read : queryOf? (fieldsAround v (.query q)) = some (.query q) := by
      rw [queryOf?, only, Option.bind_some, Query.ofJson?_toJson h, Option.map_some]
    rw [ofFields?, read, Option.some_or]
  | call c =>
    obtain ⟨name, args⟩ := c
    have unread : queryOf? (fieldsAround v (.call ⟨name, args⟩)) = none := rfl
    have same : args.map Json.canonical = args := by
      rw [List.map_congr_left fun v hv => Json.canonical_of_isCanonical v (h v hv), List.map_id']
    have read : callOf? (fieldsAround v (.call ⟨name, args⟩)) =
        some (.call ⟨name, args.map Json.canonical⟩) := rfl
    rw [ofFields?, unread, Option.none_or, read, same]

/-- The context of a fetcher is the one written in its fields. -/
@[simp] theorem inFields?_fieldsAround : Context.inFields? (o.fieldsAround v) = Context.ofJson? v := by
  cases o <;> simp [fieldsAround, Context.inFields?]

theorem fetcherOf?_fieldsAround (h : o.Fits) {c : Context} :
    Context.fetcherOf? (o.fieldsAround v) (some c) = some (.fetcher c o) := by
  have once : Fields.count "context" (o.fieldsAround v) = 1 := by cases o <;> rfl
  simp only [Context.fetcherOf?, once, ofFields?_fieldsAround h]

@[simp] theorem rootOf?_fieldsAround : Context.rootOf? (.object (o.fieldsAround v)) = none := by
  cases o <;> rfl

end Operation

/-! ### Contexts and fetchers read back -/

namespace Context

/-- No context is written as a truth value. -/
@[simp] theorem bool?_toJson (c : Context) : c.toJson.bool? = none := by
  cases c <;> simp [toJson, Json.bool?]

/-- An array of contexts is no root marker in the form of an array. -/
@[simp] theorem rootOf?_itemsToJson (items : List Context) :
    rootOf? (.array (itemsToJson items)) = none := by
  match items with
  | [] => rfl
  | [c] =>
    show (c.toJson.bool?).map Context.root = none
    rw [bool?_toJson, Option.map_none]
  | _ :: _ :: _ => rfl

mutual

/-- A context is read back from its JSON. -/
theorem ofJson?_toJson : (c : Context) → c.Fits → ofJson? c.toJson = some c
  | .root _, _ => rfl
  | .fetcher c o, ⟨hc, ho⟩ => by
    rw [toJson, ofJson?, Operation.rootOf?_fieldsAround, Operation.inFields?_fieldsAround,
      ofJson?_toJson c hc, Operation.fetcherOf?_fieldsAround ho]
    rfl
  | .node n, h => by
    have read : handleOf? [("node", n.toJson)] = ((NodeId.ofJson? n.toJson).map .node).or none := rfl
    rw [toJson, ofJson?]
    show handleOf? [("node", n.toJson)] = some (.node n)
    rw [read, NodeId.ofJson?_toJson h]
    rfl
  | .nodes ns, h => by
    have all := Json.listOf?_map fun n hn => NodeId.ofJson?_toJson (h n hn)
    rw [toJson, ofJson?]
    show ((Json.listOf? NodeId.ofJson? (.array (ns.map NodeId.toJson))).map Context.nodes).or none = _
    rw [all]
    rfl
  | .components is, h => by
    have all := Json.listOf?_map fun i hi => InstanceId.ofJson?_toJson (h i hi)
    rw [toJson, ofJson?]
    show (Json.listOf? InstanceId.ofJson? (.array (is.map InstanceId.toJson))).map
      Context.components = _
    rw [all]
    rfl
  | .array items, h => by
    rw [toJson, ofJson?, rootOf?_itemsToJson, Option.none_or, ofItems?_itemsToJson items h]
    rfl
  | .null, _ => rfl

theorem ofItems?_itemsToJson :
    (items : List Context) → AllFit items → ofItems? (itemsToJson items) = some items
  | [], _ => rfl
  | c :: rest, ⟨h, more⟩ => by
    rw [itemsToJson, ofItems?, ofJson?_toJson c h, ofItems?_itemsToJson rest more]

end

theorem fits_of_handleOf? {fields : List (String × Json)} {c : Context}
    (h : handleOf? fields = some c) : c.Fits := by
  have one : ∀ v n, NodeId.ofJson? v = some n → n.Fits := fun v n h => NodeId.fits_of_ofJson? h
  rw [handleOf?, Option.or_eq_some_iff, Option.or_eq_some_iff] at h
  obtain h | ⟨-, h | ⟨-, h⟩⟩ := h
  all_goals
    obtain ⟨_, read, rfl⟩ := Option.map_eq_some_iff.mp h
    obtain ⟨v, -, read⟩ := Option.bind_eq_some_iff.mp read
  · exact one v _ read
  · exact Json.of_mem_listOf? one read
  · exact Json.of_mem_listOf? (fun v i h => InstanceId.fits_of_ofJson? h) read

theorem fits_of_fetcherOf? {fields : List (String × Json)} {inner : Option Context} {c : Context}
    (fits : ∀ c, inner = some c → c.Fits) (h : fetcherOf? fields inner = some c) : c.Fits := by
  unfold fetcherOf? at h
  split at h
  · rename_i context operation _ read
    cases h
    exact ⟨fits context rfl, Operation.fits_of_ofFields? read⟩
  · cases h

theorem fits_of_rootOf? {v : Json} {c : Context} (h : rootOf? v = some c) : c.Fits := by
  obtain ⟨parts, -, h⟩ := Option.bind_eq_some_iff.mp h
  split at h
  · obtain ⟨_, -, rfl⟩ := Option.map_eq_some_iff.mp h
    trivial
  · cases h

mutual

/-- What is read as a context is of the decoder's range. -/
theorem fits_of_ofJson? : (v : Json) → (c : Context) → ofJson? v = some c → c.Fits
  | .null, _, h => by cases h; trivial
  | .array items, c, h => by
    rw [ofJson?, Option.or_eq_some_iff] at h
    rcases h with h | ⟨-, h⟩
    · exact fits_of_rootOf? h
    · obtain ⟨cs, all, rfl⟩ := Option.map_eq_some_iff.mp h
      exact allFit_of_ofItems? items cs all
  | .object fields, c, h => by
    rw [ofJson?, Option.or_eq_some_iff, Option.or_eq_some_iff] at h
    rcases h with h | ⟨-, h | ⟨-, h⟩⟩
    · exact fits_of_rootOf? h
    · exact fits_of_fetcherOf? (fits_of_inFields? fields) h
    · exact fits_of_handleOf? h

theorem allFit_of_ofItems? :
    (items : List Json) → (cs : List Context) → ofItems? items = some cs → AllFit cs
  | [], _, h => by cases h; trivial
  | v :: rest, cs, h => by
    rw [ofItems?] at h
    split at h
    · rename_i c more hc hm
      cases h
      exact ⟨fits_of_ofJson? v c hc, allFit_of_ofItems? rest more hm⟩
    · cases h

theorem fits_of_inFields? :
    (fields : List (String × Json)) → (c : Context) → inFields? fields = some c → c.Fits
  | [], _, h => by cases h
  | (k, v) :: rest, c, h => by
    rw [inFields?] at h
    split_ifs at h
    · exact fits_of_ofJson? v c h
    · exact fits_of_inFields? rest c h

end

/-- The contexts of the decoder's range are those that it gives. -/
theorem fits_iff {c : Context} : c.Fits ↔ ∃ v, ofJson? v = some c :=
  ⟨fun h => ⟨c.toJson, ofJson?_toJson c h⟩, fun ⟨v, h⟩ => fits_of_ofJson? v c h⟩

/-- A result set is read back as the context that it serves as. -/
theorem ofJson?_toJson_results {r : ResultSet} (h : r.Fits) :
    ofJson? r.toJson = some r.toContext := by
  rw [← r.toContext_toJson, ofJson?_toJson _ (r.toContext_fits h)]

end Context

theorem Fetcher.ofJson?_toJson {f : Fetcher} (h : f.Fits) : Fetcher.ofJson? f.toJson = some f := by
  rw [toJson, ofJson?, Operation.inFields?_fieldsAround, Context.ofJson?_toJson _ h.1,
    Operation.fetcherOf?_fieldsAround h.2]

/-- Decoding undoes encoding, of contexts and of fetchers at any depth; and a result set is written in
one way, directly, serialized or as a context, and read back as that context. No context that decoding
gives is left out. -/
theorem Context.decoded_of_encoded :
    (∀ c : Context, c.Fits → Context.ofJson? c.toJson = some c) ∧
      (∀ f : Fetcher, f.Fits → Fetcher.ofJson? f.toJson = some f) ∧
      (∀ r : ResultSet, r.toJson = r.serialized ∧ r.serialized = r.toContext.toJson ∧
        (r.Fits → Context.ofJson? r.toJson = some r.toContext)) ∧
      ∀ c : Context, c.Fits ↔ ∃ v, Context.ofJson? v = some c := by
  refine ⟨Context.ofJson?_toJson, fun f h => Fetcher.ofJson?_toJson h, fun r => ?_,
    fun c => Context.fits_iff⟩
  exact ⟨r.toContext_toJson.symm, rfl, Context.ofJson?_toJson_results⟩

/-- A call on the last of the items under an array of contexts, and an array of results. -/
theorem Context.decoded_of_encoded_nested :
    let inner : Context := .array [.null, .nodes [⟨4⟩, ⟨5⟩], .array [.components [], .root false]]
    let f : Fetcher := ⟨.fetcher inner (.query ⟨"li", true, some (-1)⟩),
      .call ⟨"highlight", [.ofInt 500, .object [("a", .null), ("b", .ofNat 7)]]⟩⟩
    let r : ResultSet := .array [.nodes [⟨3⟩], .array [.null, .components [⟨2⟩]]]
    f.toContext.Fits ∧ f.Fits ∧ r.Fits ∧ Context.ofJson? f.toContext.toJson = some f.toContext ∧
      Fetcher.ofJson? f.toJson = some f ∧ Context.ofJson? r.toJson = some r.toContext := by
  intro inner f r
  have hi : inner.Fits := by
    simp [inner, Context.Fits, Context.AllFit, NodeId.Fits]
  have ho : Query.Fits ⟨"li", true, some (-1)⟩ := by
    simp only [Query.Fits, Option.mem_def, Option.some.injEq, forall_eq']
    decide
  have lt : "a" < "b" := by decide
  have ha : f.operation.Fits := by
    simpa [f, Operation.Fits, Json.IsCanonical, Json.FieldsCanonical, Fields.Ascending, Json.ofInt,
      Json.ofNat] using lt
  have hr : r.Fits := by
    simp [r, ResultSet.Fits, ResultSet.AllFit, NodeId.Fits, InstanceId.Fits]
  obtain ⟨contexts, fetchers, results, -⟩ := Context.decoded_of_encoded
  exact ⟨⟨⟨hi, ho⟩, ha⟩, ⟨⟨hi, ho⟩, ha⟩, hr, contexts _ ⟨⟨hi, ho⟩, ha⟩, fetchers f ⟨⟨hi, ho⟩, ha⟩,
    (results r).2.2 hr⟩

end PageQuery
