/-
# Links along rows are links to the next sibling

While instances are made, each is put at the end of its parent's row, and when all have been made each
row is passed along once, an instance and the next one at a time. A row holds the instances below one
parent in ascending order, so that two of them are next to each other exactly when none below that parent
has been made between them. So each instance is linked to the first later one with its parent, and no
link is overwritten by another.

Key definitions: `Arena.links`, `Arena.linkOf?`, `RenderedInstance.row`, `RenderedInstance.rows`,
`RenderedInstance.record`.
Key theorems: `RenderedInstance.rows_concat`, `RenderedInstance.mem_links_rows`,
`RenderedInstance.getElem?_linked`.
-/
import PageQuery.Fixture.Arena
import PageQuery.Proofs.Fixture.Identity

namespace PageQuery

namespace Arena

/-! ### Links -/

/-- The links that are made along rows, in order. -/
def links (rows : List (List InstanceId)) : List (InstanceId × InstanceId) :=
  rows.flatMap fun row => row.zip row.tail

/-- Links made one after another. -/
def linkAll (instances : List InstanceRecord) (links : List (InstanceId × InstanceId)) :
    List InstanceRecord :=
  links.foldl (fun instances pair => instances.modify pair.1.index (·.linked pair.2)) instances

theorem linked_eq_linkAll (instances : List InstanceRecord) (rows : List (List InstanceId)) :
    linked instances rows = linkAll instances (links rows) :=
  (List.foldl_flatMap ..).symm

/-- The last of some links from the instance at a place. -/
def linkOf? (place : Nat) : List (InstanceId × InstanceId) → Option InstanceId
  | [] => none
  | (i, next) :: rest => (linkOf? place rest).or (if i.index = place then some next else none)

theorem mem_of_linkOf? {place : Nat} {next : InstanceId} : ∀ {links : List (InstanceId × InstanceId)},
    linkOf? place links = some next → (⟨place⟩, next) ∈ links
  | (i, other) :: rest, h => by
    rcases Option.or_eq_some_iff.mp h with later | ⟨-, here⟩
    · exact List.mem_cons_of_mem _ (mem_of_linkOf? later)
    · obtain ⟨rfl, same⟩ := Option.ite_none_right_eq_some.mp here
      exact Option.some.inj same ▸ List.mem_cons_self

theorem not_mem_of_linkOf?_eq_none {place : Nat} {next : InstanceId} :
    ∀ {links : List (InstanceId × InstanceId)}, linkOf? place links = none → (⟨place⟩, next) ∉ links
  | (i, other) :: rest, h, mem => by
    obtain ⟨later, here⟩ := Option.or_eq_none_iff.mp h
    rcases List.mem_cons.mp mem with same | mem
    · cases same
      cases (if_pos rfl).symm.trans here
    · exact not_mem_of_linkOf?_eq_none later mem

/-- Links change nothing but the links, and of several links from one instance the last one stays. -/
theorem getElem?_linkAll {place : Nat} : ∀ {links : List (InstanceId × InstanceId)}
    {instances : List InstanceRecord}, (linkAll instances links)[place]? =
      (instances[place]?).map fun i => (linkOf? place links).elim i i.linked
  | [], instances => by
    show instances[place]? = (instances[place]?).map fun i => i
    rw [Option.map_id']
  | (i, next) :: rest, instances => by
    have later := @getElem?_linkAll place rest (instances.modify i.index (·.linked next))
    rw [List.getElem?_modify] at later
    refine later.trans ?_
    cases instances[place]? with
    | none => rfl
    | some x =>
      by_cases here : i.index = place
      · cases e : linkOf? place rest <;> simp [linkOf?, here, e, InstanceRecord.linked]
      · cases e : linkOf? place rest <;> simp [linkOf?, here, e]

end Arena

open Arena

/-- What stands behind an instance of an arena: an element is known by when it was made. -/
def RenderedBacking.inArena : RenderedBacking → Backing
  | .element serial => .node ⟨serial⟩
  | .object key => .object key

namespace RenderedInstance

variable {instances : List RenderedInstance} {x : RenderedInstance} {i j : InstanceId}

/-! ### Rows -/

/-- The instances below one, in the order in which they were made. -/
def row (instances : List RenderedInstance) (i : InstanceId) : List InstanceId :=
  ((List.range instances.length).filter fun k => (instances[k]?).bind (·.parent?) = some i).map
    InstanceId.mk

/-- The rows of all instances. -/
def rows (instances : List RenderedInstance) : List (List InstanceId) :=
  (List.range instances.length).map fun k => row instances ⟨k⟩

theorem getElem?_rows (k : Nat) :
    (rows instances)[k]? = if k < instances.length then some (row instances ⟨k⟩) else none := by
  rw [rows, List.getElem?_map]
  by_cases inside : k < instances.length <;> simp [inside]

theorem mem_row : j ∈ row instances i ↔ parentAt instances.toArray j.index = some i := by
  rw [row, List.mem_map, parentAt, List.getElem?_toArray]
  constructor
  · rintro ⟨k, mem, rfl⟩
    exact of_decide_eq_true (List.mem_filter.mp mem).2
  · intro parent
    obtain ⟨y, there, -⟩ := Option.bind_eq_some_iff.mp parent
    obtain ⟨inside, -⟩ := List.getElem?_eq_some_iff.mp there
    exact ⟨j.index, List.mem_filter.mpr ⟨List.mem_range.mpr inside, decide_eq_true parent⟩, rfl⟩

/-- Instances stand in a row in the order in which they were made. -/
theorem row_ascending : (row instances i).Pairwise fun j k => j.index < k.index :=
  List.pairwise_map.mpr (List.pairwise_lt_range.filter _)

/-- One more instance comes to stand at the end of its parent's row. -/
theorem row_concat : row (instances ++ [x]) i =
    row instances i ++ if x.parent? = some i then [⟨instances.length⟩] else [] := by
  have before : ∀ k ∈ List.range instances.length, decide (((instances ++ [x])[k]?).bind (·.parent?) = some i) =
      decide ((instances[k]?).bind (·.parent?) = some i) := by
    intro k inside
    rw [List.getElem?_append_left (List.mem_range.mp inside)]
  have last : (instances ++ [x])[instances.length]? = some x := List.getElem?_concat_length
  rw [row, row, List.length_append, List.length_singleton, List.range_succ, List.filter_append,
    List.map_append, List.filter_congr before]
  by_cases here : x.parent? = some i <;> simp [here]

/-- Every instance with a parent was made after it. -/
def Grounded (instances : List RenderedInstance) : Prop :=
  ∀ y ∈ instances, ∀ parent ∈ y.parent?, parent.index < instances.length

theorem Grounded.row_length (grounded : Grounded instances) : row instances ⟨instances.length⟩ = [] := by
  refine List.eq_nil_iff_forall_not_mem.mpr fun j mem => ?_
  obtain ⟨y, there, parent⟩ := Option.bind_eq_some_iff.mp (mem_row.mp mem)
  rw [List.getElem?_toArray] at there
  exact Nat.lt_irrefl _ (grounded y (List.mem_of_getElem? there) _ parent)

/-- The rows with one more instance: it has an empty row, and its parent's row has it at the end. -/
theorem rows_concat (grounded : Grounded instances) : rows (instances ++ [x]) =
    match x.parent? with
    | some parent =>
      (rows instances ++ [[]]).modify parent.index (· ++ [(⟨instances.length⟩ : InstanceId)])
    | none => rows instances ++ [[]] := by
  have before : ∀ k : Nat, (rows instances ++ [[]])[k]? =
      if k < instances.length + 1 then some (row instances ⟨k⟩) else none := by
    intro k
    have size : (rows instances).length = instances.length := by simp [rows]
    rcases Nat.lt_trichotomy k instances.length with lt | rfl | gt
    · rw [List.getElem?_append_left (by omega), getElem?_rows, if_pos lt, if_pos (by omega)]
    · rw [List.getElem?_append_right (by omega), if_pos (by omega), size, Nat.sub_self,
        grounded.row_length]
      rfl
    · rw [List.getElem?_eq_none (by simp [size]; omega), if_neg (by omega)]
  refine List.ext_getElem? fun k => ?_
  rw [getElem?_rows, List.length_append, List.length_singleton, row_concat]
  cases x.parent? with
  | none =>
    dsimp only
    rw [before]
    simp
  | some parent =>
    dsimp only
    rw [List.getElem?_modify, before]
    obtain ⟨p⟩ := parent
    by_cases inside : k < instances.length + 1
    · by_cases here : p = k <;> simp [inside, here]
    · simp [inside]

/-! ### Neighbours in rows -/

/-- In an ascending list, later items are those with a greater index. -/
theorem lt_iff_of_ascending {ids : List InstanceId} (ascending : ids.Pairwise fun j k => j.index < k.index)
    {m n : Nat} (first : ids[m]? = some i) (second : ids[n]? = some j) : m < n ↔ i.index < j.index := by
  have up : ∀ {m n : Nat} {k l : InstanceId}, ids[m]? = some k → ids[n]? = some l → m < n →
      k.index < l.index := by
    intro m n k l hm hn lt
    obtain ⟨inside, rfl⟩ := List.getElem?_eq_some_iff.mp hm
    obtain ⟨inside', rfl⟩ := List.getElem?_eq_some_iff.mp hn
    exact List.pairwise_iff_getElem.mp ascending m n inside inside' lt
  refine ⟨up first second, fun lt => ?_⟩
  rcases Nat.lt_trichotomy m n with before | rfl | after
  · exact before
  · rw [Option.some.inj (first.symm.trans second)] at lt
    exact absurd lt (Nat.lt_irrefl _)
  · exact absurd lt (Nat.lt_asymm (up second first after))

/-- Two items of an ascending list are next to each other exactly when none of its items is between. -/
theorem mem_zip_tail {ids : List InstanceId} (ascending : ids.Pairwise fun j k => j.index < k.index) :
    (i, j) ∈ ids.zip ids.tail ↔ i ∈ ids ∧ j ∈ ids ∧ i.index < j.index ∧
      ∀ k ∈ ids, i.index < k.index → ¬k.index < j.index := by
  have order {m n : Nat} {k l : InstanceId} (first : ids[m]? = some k) (second : ids[n]? = some l) :=
    lt_iff_of_ascending ascending first second
  have next : (i, j) ∈ ids.zip ids.tail ↔ ∃ m, ids[m]? = some i ∧ ids[m + 1]? = some j := by
    rw [List.mem_iff_getElem?]
    simp only [List.getElem?_zip_eq_some, List.getElem?_tail]
  rw [next]
  constructor
  · rintro ⟨m, first, second⟩
    refine ⟨List.mem_of_getElem? first, List.mem_of_getElem? second,
      (order first second).mp (Nat.lt_succ_self m), fun k mem low high => ?_⟩
    obtain ⟨n, there⟩ := List.mem_iff_getElem?.mp mem
    have above := (order first there).mpr low
    have below := (order there second).mpr high
    omega
  · rintro ⟨mem, mem', lt, none⟩
    obtain ⟨m, first⟩ := List.mem_iff_getElem?.mp mem
    obtain ⟨n, second⟩ := List.mem_iff_getElem?.mp mem'
    have before := (order first second).mpr lt
    refine ⟨m, first, ?_⟩
    by_cases same : n = m + 1
    · exact same ▸ second
    · obtain ⟨inside, -⟩ := List.getElem?_eq_some_iff.mp second
      have there := List.getElem?_eq_getElem (l := ids) (i := m + 1) (by omega)
      exact absurd ((order there second).mp (by omega))
        (none _ (List.mem_of_getElem? there) ((order first there).mp (Nat.lt_succ_self m)))

/-- **Along the rows, each instance is linked to its next sibling and to nothing else.** -/
theorem mem_links_rows (grounded : Grounded instances) : (i, j) ∈ links (rows instances) ↔
    nextSibling? instances.toArray i.index = some j.index := by
  rw [nextSibling?_eq_some_iff, links, List.mem_flatMap]
  constructor
  · rintro ⟨ids, mem, pair⟩
    obtain ⟨k, -, rfl⟩ := List.mem_map.mp mem
    obtain ⟨first, second, lt, between⟩ := (mem_zip_tail row_ascending).mp pair
    exact ⟨⟨k⟩, mem_row.mp first, mem_row.mp second, lt,
      fun n low high same => between ⟨n⟩ (mem_row.mpr same) low high⟩
  · rintro ⟨parent, first, second, lt, between⟩
    obtain ⟨y, there, up⟩ := Option.bind_eq_some_iff.mp first
    rw [List.getElem?_toArray] at there
    have inside := grounded y (List.mem_of_getElem? there) parent up
    refine ⟨row instances parent, List.mem_map.mpr ⟨parent.index, List.mem_range.mpr inside, rfl⟩, ?_⟩
    exact (mem_zip_tail row_ascending).mpr ⟨mem_row.mpr first, mem_row.mpr second, lt,
      fun k mem low high => between k.index low high (mem_row.mp mem)⟩

theorem linkOf?_rows (grounded : Grounded instances) (place : Nat) :
    linkOf? place (links (rows instances)) =
      (nextSibling? instances.toArray place).map InstanceId.mk := by
  cases found : linkOf? place (links (rows instances)) with
  | some next =>
    have link := (mem_links_rows grounded).mp (mem_of_linkOf? found)
    exact (congrArg (Option.map InstanceId.mk) link).symm
  | none =>
    cases link : nextSibling? instances.toArray place with
    | none => rfl
    | some k =>
      exact absurd ((mem_links_rows (i := ⟨place⟩) (j := ⟨k⟩) grounded).mpr link)
        (not_mem_of_linkOf?_eq_none found)

/-! ### Instances with their links -/

/-- An instance as it is made, without a link. -/
def record (i : RenderedInstance) : InstanceRecord :=
  ⟨i.parent?, none, i.kind, i.name?, i.props, i.backing?.map RenderedBacking.inArena⟩

/-- **Passing along the rows links every instance to its next sibling.** -/
theorem getElem?_linked (grounded : Grounded instances) (place : Nat) :
    (linked (instances.map record) (rows instances))[place]? = (instances[place]?).map fun i =>
      { i.record with next? := (nextSibling? instances.toArray place).map InstanceId.mk } := by
  rw [linked_eq_linkAll, getElem?_linkAll, linkOf?_rows grounded, List.getElem?_map, Option.map_map]
  refine congrArg (fun change => (instances[place]?).map change) (funext fun i => ?_)
  cases nextSibling? instances.toArray place <;> rfl

end RenderedInstance

end PageQuery
