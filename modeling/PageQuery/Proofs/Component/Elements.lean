/-
# Elements and structural search, read off the keys

The nodes that an instance owns, and what a structural selector finds in the elements of some
instances, depend on the page alone. Both are given here by the keys of identities, without a table,
and the searches that ask for identities are shown to find just that.

Key definitions: `Page.elements`, `Page.foundWithin`.
Key theorems: `Page.elementsOf_answers`, `Page.searchWithin_finds`, `Page.of_mem_foundWithin`,
`Page.of_foundWithin_error`.
-/
import PageQuery.Proofs.Component.Identity
import PageQuery.Proofs.Results

namespace PageQuery

variable {ids : Identities}

namespace Page

variable (page : Page)

theorem searchFromEach_eq (selector : String) : ∀ nodes : List NodeId,
    page.searchFromEach selector nodes = collect (page.search · selector) nodes
  | [] => rfl
  | n :: rest => by
    unfold searchFromEach collect
    rw [searchFromEach_eq selector rest]
    cases page.search n selector with
    | error e => rfl
    | ok found => cases collect (page.search · selector) rest <;> rfl

/-! ### Elements -/

/-- The nodes that an instance owns, in document order. -/
def elements (i : InstanceId) : List NodeId :=
  page.nodes.filter fun n => (page.ownerChain n).any fun owner => page.SameIdentity owner i

theorem anyIdentified_answers {accept : Identity → Bool} {p : InstanceId → Bool}
    (h : ∀ later t i, ids.Grows later → later.Names (page.identityKey i) t → accept t = p i) :
    ∀ instances : List InstanceId, Answers ids (page.anyIdentified accept instances) (instances.any p)
  | [] => Answers.pure false
  | i :: rest => by
    unfold anyIdentified
    refine (Gives.identify page i).bind fun later t g named => ?_
    rw [h later t i g named, List.any_cons]
    cases p i with
    | true => exact Answers.pure true
    | false => exact (anyIdentified_answers h rest).grow g

theorem ownedAmong_answers {target : Identity} {i : InstanceId}
    (named : ids.Names (page.identityKey i) target) : ∀ nodes : List NodeId,
    Answers ids (page.ownedAmong target nodes)
      (nodes.filter fun n => (page.ownerChain n).any fun owner => page.SameIdentity owner i)
  | [] => Answers.pure []
  | n :: rest => by
    have same : ∀ later t j, ids.Grows later → later.Names (page.identityKey j) t →
        (t == target) = decide (page.SameIdentity j i) := fun later t j g ht => by
      rw [Bool.eq_iff_iff, beq_iff_eq, decide_eq_true_iff]
      exact ht.eq_iff (named.grow g)
    unfold ownedAmong
    refine (page.anyIdentified_answers same (page.ownerChain n)).bind ?_
    refine (ownedAmong_answers named rest).bind ?_
    rw [List.filter_cons]
    exact Answers.pure _

/-- Whatever was asked before, the elements are those that the keys give. -/
theorem elementsOf_answers (i : InstanceId) : Answers ids (page.elementsOf i) (page.elements i) :=
  (Gives.identify page i).bind fun _ _ _ named => page.ownedAmong_answers named page.nodes

theorem elementsOfEach_answers : ∀ instances : List InstanceId,
    Answers ids (page.elementsOfEach instances) (instances.flatMap page.elements)
  | [] => Answers.pure []
  | i :: rest => (page.elementsOf_answers i).bind ((elementsOfEach_answers rest).bind (Answers.pure _))

theorem elementsOfAll_answers (instances : List InstanceId) :
    Answers ids (page.elementsOfAll instances) (NodeId.ascending (instances.flatMap page.elements)) :=
  (page.elementsOfEach_answers instances).bind (Answers.pure _)

/-! ### Structural search -/

/-- What a structural selector finds in the elements of an instance. -/
def foundIn (selector : String) (i : InstanceId) : Except QueryError (List NodeId) :=
  (page.searchInElements selector (page.elements i)).mapError .search

/-- What a structural selector finds in the elements of some instances, ascending. -/
def foundWithin (selector : String) (instances : List InstanceId) : Except QueryError (List NodeId) :=
  (collect (page.foundIn selector) instances).map NodeId.ascending

theorem orSearchFailure_finds {α : Type} (r : Except SearchError α) :
    Finds ids (orSearchFailure r) (r.mapError .search) := by
  cases r with
  | ok a => exact Finds.pure a
  | error e => exact Finds.throw _

theorem searchWithinEach_finds (selector : String) : ∀ instances : List InstanceId,
    Finds ids (page.searchWithinEach selector instances) (collect (page.foundIn selector) instances)
  | [] => Finds.pure []
  | i :: rest => Finds.bind_lift (page.elementsOf_answers i) <|
    Finds.bind (orSearchFailure_finds _) fun _ _ => (searchWithinEach_finds selector rest).map

/-- Whatever was asked before, the search finds what the keys give. -/
theorem searchWithin_finds (selector : String) (instances : List InstanceId) :
    Finds ids (page.searchWithin instances selector) (page.foundWithin selector instances) :=
  (page.searchWithinEach_finds selector instances).map

section found

variable {page} {selector : String} {instances : List InstanceId} {i : InstanceId} {found : List NodeId}
  {n : NodeId}

/-- What is found in components lies in an element of one, and a search of the document finds it. -/
theorem of_mem_foundWithin (h : page.foundWithin selector instances = .ok found) (mem : n ∈ found) :
    ∃ i ∈ instances, (∃ e ∈ page.elements i, page.isWithin n e = true) ∧
      ∃ scope hits, page.search scope selector = .ok hits ∧ n ∈ hits := by
  obtain ⟨all, collected, rfl⟩ := map_ok_iff.mp h
  obtain ⟨i, hi, here, alone, mem⟩ := (mem_of_collect collected n).mp (NodeId.mem_ascending.mp mem)
  obtain ⟨hits, searches, rfl⟩ := map_ok_iff.mp (mapError_ok_iff.mp alone)
  obtain ⟨hit, within⟩ := List.mem_filter.mp mem
  rw [searchFromEach_eq] at searches
  obtain ⟨scope, -, searched⟩ := (mem_of_collect searches n).mp hit
  exact ⟨i, hi, List.any_eq_true.mp within, scope, searched⟩

theorem inside_of_foundWithin (h : page.foundWithin selector [i] = .ok found) :
    ∀ n ∈ found, ∃ e ∈ page.elements i, page.isWithin n e = true := by
  intro n mem
  obtain ⟨j, single, inside, -⟩ := of_mem_foundWithin h mem
  exact List.mem_singleton.mp single ▸ inside

/-- A search in the elements of instances fails for the reason that one of the document fails. -/
theorem of_foundWithin_error {x : QueryError} (h : page.foundWithin selector instances = .error x) :
    ∃ scope e, page.search scope selector = .error e ∧ x = .search e := by
  obtain ⟨i, -, fails⟩ := of_collect_error (map_error_iff.mp h)
  obtain ⟨e, within, rfl⟩ := mapError_error_iff.mp fails
  have each := map_error_iff.mp within
  rw [searchFromEach_eq] at each
  obtain ⟨scope, -, here⟩ := of_collect_error each
  exact ⟨scope, e, here, rfl⟩

end found

end Page

end PageQuery
