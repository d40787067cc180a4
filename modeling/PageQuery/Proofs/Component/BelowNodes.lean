/-
# Components below nodes

A search for components below some nodes takes the hosts of those inside the runtime as its scope and,
if there are others, keeps the results of a search everywhere that own a node strictly inside one of
them. It too filters the outline of the page: an instance stays if it lies below one of the nodes.

Not every failure comes from what would be found: one node without a host is enough for the search
everywhere to be made, and that one fails at a match anywhere on the page.

Key definitions: `Page.OwnsInside`, `Page.LiesBelow`, `Page.belowNodes`.
Key theorems: `Page.findBelowNodes_finds`, `Page.mem_of_belowNodes`, `Page.belowNodes_ok_iff`.
-/
import PageQuery.Proofs.Component.Descendants

namespace PageQuery

namespace Page

variable (page : Page)

/-- The instance owns a node strictly inside the other. -/
def OwnsInside (i : InstanceId) (outer : NodeId) : Prop :=
  ∃ e ∈ page.elements i, e ≠ outer ∧ page.isWithin e outer

instance (i : InstanceId) (outer : NodeId) : Decidable (page.OwnsInside i outer) :=
  inferInstanceAs (Decidable (∃ e ∈ page.elements i, e ≠ outer ∧ page.isWithin e outer))

/-- The nodes that no instance renders. -/
def outsideOf (nodes : List NodeId) : List NodeId := nodes.filter fun n => (page.host? n).isNone

/-- The hosts of the other ones. -/
def hostsOf (nodes : List NodeId) : List InstanceId := nodes.filterMap page.host?

/-- What a search for components below nodes finds, read off the keys. -/
def belowNodes (matcher : PropertyMatcher) (nodes : List NodeId) (query : ComponentQuery) :
    Except QueryError (List InstanceId) :=
  (page.descendants matcher (.below (page.hostsOf nodes)) query).bind fun belowHosts =>
    if (page.outsideOf nodes).isEmpty then .ok belowHosts
    else (page.descendants matcher .everywhere query).map fun candidates =>
      candidates.filter fun i => (belowHosts.any fun b => page.SameIdentity i b) ||
        (page.outsideOf nodes).any fun o => page.OwnsInside i o

/-! ### The search finds what the keys give -/

variable {page} {ids : Identities} {matcher : PropertyMatcher} {query : ComponentQuery}

theorem rendersInside_answers (outside : List NodeId) (i : InstanceId) :
    Answers ids (page.rendersInside outside i) (outside.any fun o => page.OwnsInside i o) := by
  have asked : Answers ids (page.rendersInside outside i)
      ((page.elements i).any fun e => outside.any fun o => e ≠ o && page.isWithin e o) :=
    (page.elementsOf_answers i).bind (Answers.pure _)
  have same : ((page.elements i).any fun e => outside.any fun o => e ≠ o && page.isWithin e o) =
      outside.any fun o => page.OwnsInside i o := by
    rw [Bool.eq_iff_iff, List.any_eq_true, List.any_eq_true]
    simp only [List.any_eq_true, decide_eq_true_iff, Bool.and_eq_true]
    constructor
    · rintro ⟨e, he, o, ho, h⟩
      exact ⟨o, ho, e, he, h⟩
    · rintro ⟨o, ho, e, he, h⟩
      exact ⟨e, he, o, ho, h⟩
  exact same ▸ asked

theorem keepBelow_answers {belowHosts : List InstanceId} {identities : List Identity}
    (outside : List NodeId) : ∀ {ids : Identities} (candidates : List InstanceId),
      List.Forall₂ ids.Names (belowHosts.map page.identityKey) identities →
      Answers ids (page.keepBelow identities outside candidates)
        (candidates.filter fun i => (belowHosts.any fun b => page.SameIdentity i b) ||
          outside.any fun o => page.OwnsInside i o)
  | _, [], _ => Answers.pure []
  | ids, i :: rest, named => by
    unfold keepBelow
    refine (Gives.identify page i).bind fun later t g ht => ?_
    have known : identities.contains t = belowHosts.any fun b => page.SameIdentity i b := by
      rw [Identities.contains_of_names (Identities.names_grow g named) ht, Bool.eq_iff_iff,
        List.contains_iff_mem, List.mem_map, List.any_eq_true]
      simp only [decide_eq_true_iff]
      exact exists_congr fun b => and_congr_right fun _ => eq_comm
    have rests := keepBelow_answers outside rest (Identities.names_grow g named)
    rw [known, List.filter_cons]
    cases belowHosts.any fun b => page.SameIdentity i b with
    | true => exact (Answers.pure true).bind (rests.bind (Answers.pure _))
    | false =>
      rw [Bool.false_or]
      exact (rendersInside_answers outside i).bind (rests.bind (Answers.pure _))

/-- **Whatever was asked before, a search below nodes finds what the keys give.** -/
theorem findBelowNodes_finds (nodes : List NodeId) :
    Finds ids (page.findBelowNodes matcher nodes query) (page.belowNodes matcher nodes query) := by
  unfold findBelowNodes belowNodes
  refine Finds.bind (findDescendants_finds _) fun belowHosts _ => ?_
  show Finds ids (if (page.outsideOf nodes).isEmpty then _ else _) _
  split
  · exact Finds.pure belowHosts
  · refine Gives.lift_bind (Gives.identifyEach page belowHosts) fun later ts g named => ?_
    refine Gives.search_bind (findDescendants_finds .everywhere) (fun last candidates k eq => ?_)
      fun _ _ e _ eq => ?_
    · rw [← eq]
      exact Finds.lift (keepBelow_answers (page.outsideOf nodes) candidates (Identities.names_grow k named))
    · rw [← eq]; rfl

/-! ### What is found, and when -/

/-- The instance is below the host of the node or, if no instance renders the node, owns a node strictly
inside. -/
def LiesBelow (page : Page) (i : InstanceId) (n : NodeId) : Prop :=
  match page.host? n with
  | some host => ∃ a ∈ page.owners.after i, page.SameIdentity a host
  | none => page.OwnsInside i n

theorem isBelow_hostsOf {nodes : List NodeId} {i : InstanceId} :
    page.IsBelow (.below (page.hostsOf nodes)) i ↔
      ∃ n ∈ nodes, (page.host? n).isSome ∧ page.LiesBelow i n := by
  unfold IsBelow hostsOf LiesBelow
  simp only [List.mem_filterMap]
  constructor
  · rintro ⟨a, ha, host, ⟨n, hn, e⟩, same⟩
    exact ⟨n, hn, by rw [e]; rfl, by rw [e]; exact ⟨a, ha, same⟩⟩
  · rintro ⟨n, hn, some, below⟩
    obtain ⟨host, e⟩ := Option.isSome_iff_exists.mp some
    rw [e] at below
    obtain ⟨a, ha, same⟩ := below
    exact ⟨a, ha, host, ⟨n, hn, e⟩, same⟩

theorem ownsInside_outsideOf {nodes : List NodeId} {i : InstanceId} :
    ((page.outsideOf nodes).any fun o => page.OwnsInside i o) = true ↔
      ∃ n ∈ nodes, (page.host? n).isNone ∧ page.LiesBelow i n := by
  unfold outsideOf LiesBelow
  simp only [List.any_eq_true, List.mem_filter, decide_eq_true_iff, and_assoc]
  refine exists_congr fun n => and_congr_right fun _ => and_congr_right fun none => ?_
  rw [Option.isNone_iff_eq_none.mp none]

theorem liesBelow_iff {nodes : List NodeId} {i : InstanceId} :
    (∃ n ∈ nodes, page.LiesBelow i n) ↔
      page.IsBelow (.below (page.hostsOf nodes)) i ∨
        ((page.outsideOf nodes).any fun o => page.OwnsInside i o) = true := by
  rw [isBelow_hostsOf, ownsInside_outsideOf]
  constructor
  · rintro ⟨n, hn, h⟩
    cases e : page.host? n with
    | some host => exact Or.inl ⟨n, hn, by rw [e]; rfl, h⟩
    | none => exact Or.inr ⟨n, hn, by rw [e]; rfl, h⟩
  · rintro (⟨n, hn, -, h⟩ | ⟨n, hn, -, h⟩) <;> exact ⟨n, hn, h⟩

/-- All a search below nodes can do: with hosts alone it is a search below these, and with nodes that
have none it keeps what is below the hosts or owns a node inside from a search everywhere. -/
theorem belowNodes_cases {nodes : List NodeId} {found : List InstanceId} :
    page.belowNodes matcher nodes query = .ok found ↔
      (page.outsideOf nodes = [] ∧
        page.descendants matcher (.below (page.hostsOf nodes)) query = .ok found) ∨
      (page.outsideOf nodes ≠ [] ∧ ∃ belowHosts candidates,
        page.descendants matcher (.below (page.hostsOf nodes)) query = .ok belowHosts ∧
        page.descendants matcher .everywhere query = .ok candidates ∧
        candidates.filter (fun i => (belowHosts.any fun b => page.SameIdentity i b) ||
          (page.outsideOf nodes).any fun o => page.OwnsInside i o) = found) := by
  unfold belowNodes
  rw [bind_ok_iff]
  by_cases none : page.outsideOf nodes = []
  · simp [none]
  · simp [none]

/-- An identity stands once in the outline: sharing one with a result is being one. -/
theorem any_sameIdentity_iff {scope : Scope} {found : List InstanceId}
    (h : page.descendants matcher scope query = .ok found) {i : InstanceId} (hi : i ∈ page.outline) :
    (found.any fun b => decide (page.SameIdentity i b)) = true ↔ i ∈ found := by
  simp only [List.any_eq_true, decide_eq_true_iff]
  constructor
  · rintro ⟨b, hb, same⟩
    have inOutline := ((mem_of_descendants h).mp hb).1
    exact List.inj_on_of_nodup_map page.outline_keys_nodup hi inOutline same ▸ hb
  · exact fun hb => ⟨i, hb, rfl⟩

/-- What a search below nodes finds is the outline less what does not match or lies below none of
them. -/
theorem mem_of_belowNodes {nodes : List NodeId} {found : List InstanceId}
    (h : page.belowNodes matcher nodes query = .ok found) {i : InstanceId} :
    i ∈ found ↔ i ∈ page.outline ∧ page.isMatch matcher query i ∧ ∃ n ∈ nodes, page.LiesBelow i n := by
  rw [liesBelow_iff]
  rcases belowNodes_cases.mp h with ⟨none, e⟩ | ⟨-, belowHosts, candidates, e, e', kept⟩
  · rw [none, mem_of_descendants e]
    simp [Accepts]
  · rw [← kept, List.mem_filter, mem_of_descendants e', Bool.or_eq_true]
    constructor
    · rintro ⟨⟨hi, hm, -⟩, below | owns⟩
      · have found := (any_sameIdentity_iff e hi).mp below
        exact ⟨hi, hm, Or.inl ((mem_of_descendants e).mp found).2.2⟩
      · exact ⟨hi, hm, Or.inr owns⟩
    · rintro ⟨hi, hm, below | owns⟩
      · have found := (mem_of_descendants e).mpr ⟨hi, hm, below⟩
        exact ⟨⟨hi, hm, trivial⟩, Or.inl ((any_sameIdentity_iff e hi).mpr found)⟩
      · exact ⟨⟨hi, hm, trivial⟩, Or.inr owns⟩

/-- What a search below nodes finds stands in the order of the outline. -/
theorem belowNodes_sublist {nodes : List NodeId} {found : List InstanceId}
    (h : page.belowNodes matcher nodes query = .ok found) : found.Sublist page.outline := by
  rcases belowNodes_cases.mp h with ⟨-, e⟩ | ⟨-, belowHosts, candidates, -, e', kept⟩
  · rw [eq_of_descendants e]
    exact List.filter_sublist
  · rw [← kept, eq_of_descendants e']
    exact List.filter_sublist.trans List.filter_sublist

/-- Where each node has a host, below one of them is below one of the hosts. -/
theorem exists_liesBelow_of_hosted {nodes : List NodeId} (hosted : page.outsideOf nodes = [])
    {i : InstanceId} : (∃ n ∈ nodes, (page.host? n).isNone ∨ page.LiesBelow i n) ↔
      page.IsBelow (.below (page.hostsOf nodes)) i := by
  rw [isBelow_hostsOf]
  refine exists_congr fun n => and_congr_right fun hn => ?_
  have isSome : ¬(page.host? n).isNone := List.filter_eq_nil_iff.mp hosted n hn
  rw [or_iff_right isSome, and_iff_right]
  rwa [Option.isNone_iff_eq_none, ← ne_eq, ← Option.isSome_iff_ne_none] at isSome

/-- A search below nodes succeeds exactly when it can read the matches below their hosts and, if one of
the nodes has no host, all matches. -/
theorem belowNodes_ok_iff {nodes : List NodeId} :
    (∃ found, page.belowNodes matcher nodes query = .ok found) ↔
      ∀ i ∈ page.outline, page.isMatch matcher query i →
        (∃ n ∈ nodes, (page.host? n).isNone ∨ page.LiesBelow i n) → page.IsReadable i := by
  simp only [belowNodes_cases]
  by_cases none : page.outsideOf nodes = []
  · have hosts : (∃ found, page.descendants matcher (.below (page.hostsOf nodes)) query = .ok found) ↔ _ :=
      descendants_ok_iff
    simp only [none, exists_liesBelow_of_hosted none, true_and, ne_eq, not_true_eq_false, false_and, or_false]
    rw [hosts]
    exact forall₂_congr fun i _ => and_imp
  · obtain ⟨o, ho⟩ := List.exists_mem_of_ne_nil _ none
    obtain ⟨ho, lost⟩ := List.mem_filter.mp ho
    have every : ∀ i, ∃ n ∈ nodes, (page.host? n).isNone ∨ page.LiesBelow i n :=
      fun _ => ⟨o, ho, Or.inl lost⟩
    simp only [none, every, false_and, false_or, ne_eq, not_false_eq_true, true_and, forall_const]
    constructor
    · rintro ⟨_, _, candidates, -, e, -⟩ i hi m
      exact descendants_ok_iff.mp ⟨candidates, e⟩ i hi ⟨m, trivial⟩
    · intro readable
      have reads : ∀ scope, ∃ found, page.descendants matcher scope query = .ok found := fun scope =>
        descendants_ok_iff.mpr fun i hi accepted => readable i hi accepted.1
      obtain ⟨belowHosts, e⟩ := reads (.below (page.hostsOf nodes))
      obtain ⟨candidates, e'⟩ := reads .everywhere
      exact ⟨_, belowHosts, candidates, e, e', rfl⟩

end Page

end PageQuery
