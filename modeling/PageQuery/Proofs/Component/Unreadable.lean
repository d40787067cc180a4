/-
# Components that cannot be read

A search for components fails at a match whose props cannot be read. A search in a scope asks first
whether the match lies in the scope, so what lies outside does not make it fail. Nor does a search below
nodes that all have hosts, which is one in the scope of these.

A node without a host changes this. For its sake the search looks everywhere, and it leaves out what lies
below none of the nodes only when all matches have been read. So a match that cannot be read makes it
fail wherever it stands, also one that lies below none of the nodes and would not have been found.

Key definitions: `Page.Unreadable`, `asidePage`.
Key theorems: `Page.of_belowNodes_error`, `Page.findBelowNodes_fails`.
-/
import PageQuery.Proofs.Component.BelowNodes

namespace PageQuery

namespace Page

/-- A match above a node whose props cannot be read. -/
structure Unreadable (page : Page) (matcher : PropertyMatcher) (query : ComponentQuery)
    (i : InstanceId) : Prop where
  known : i ∈ page.outline
  matched : page.isMatch matcher query i = true
  unread : ¬page.IsReadable i

/-- The error that names a query and an instance's kind. -/
def unreadableError (page : Page) (query : ComponentQuery) (i : InstanceId) : QueryError :=
  .unreadableComponent query.name (page.kind i)

variable {page : Page} {matcher : PropertyMatcher} {query : ComponentQuery} {nodes : List NodeId}
  {scope : Scope} {e : QueryError}

theorem exists_unreadable_of_descendants_error
    (h : page.descendants matcher scope query = .error e) :
    ∃ i, page.Unreadable matcher query i ∧ e = page.unreadableError query i ∧
      page.IsBelow scope i := by
  obtain ⟨i, known, ⟨matched, below⟩, unread, rfl⟩ := of_descendants_error h
  exact ⟨i, ⟨known, matched, unread⟩, rfl, below⟩

/-- A search below nodes that fails names an unreadable match that lies below one of them, or any
unreadable match if one of them has no host. -/
theorem of_belowNodes_error (h : page.belowNodes matcher nodes query = .error e) :
    ∃ i, page.Unreadable matcher query i ∧ e = page.unreadableError query i ∧
      ∃ n ∈ nodes, page.host? n = none ∨ page.LiesBelow i n := by
  unfold belowNodes at h
  cases hosted : page.descendants matcher (.below (page.hostsOf nodes)) query with
  | error x =>
    rw [hosted] at h
    obtain rfl : x = e := Except.error.inj h
    obtain ⟨i, unreadable, rfl, below⟩ := exists_unreadable_of_descendants_error hosted
    obtain ⟨n, hn, -, lies⟩ := isBelow_hostsOf.mp below
    exact ⟨i, unreadable, rfl, n, hn, .inr lies⟩
  | ok belowHosts =>
    rw [hosted, ok_bind] at h
    by_cases none : (page.outsideOf nodes).isEmpty
    · rw [if_pos none] at h
      cases h
    · rw [if_neg none, map_error_iff] at h
      obtain ⟨i, unreadable, rfl, -⟩ := exists_unreadable_of_descendants_error h
      have outside : page.outsideOf nodes ≠ [] := fun nil => none (List.isEmpty_iff.mpr nil)
      obtain ⟨o, mem⟩ := List.exists_mem_of_ne_nil _ outside
      obtain ⟨ho, bare⟩ := List.mem_filter.mp mem
      exact ⟨i, unreadable, rfl, o, ho, .inl (Option.isNone_iff_eq_none.mp bare)⟩

/-- **Where a match that cannot be read makes a search fail.** A search below nodes fails exactly when
there is one that lies below one of the nodes or, if one of the nodes has no host, when there is one at
all, and the error names it. If all nodes have hosts it lies below one of them, as that of a search in a
scope lies in the scope. -/
theorem findBelowNodes_fails (page : Page) (matcher : PropertyMatcher) (query : ComponentQuery)
    (nodes : List NodeId) (ids : Identities) :
    let result := (page.findBelowNodes matcher nodes query ids).1
    ((∃ e, result = .error e) ↔ ∃ i, page.Unreadable matcher query i ∧
        ∃ n ∈ nodes, page.host? n = none ∨ page.LiesBelow i n) ∧
      (∀ e, result = .error e → ∃ i, page.Unreadable matcher query i ∧
        e = page.unreadableError query i ∧ ∃ n ∈ nodes, page.host? n = none ∨ page.LiesBelow i n) ∧
      ((∀ n ∈ nodes, page.host? n ≠ none) → ∀ e, result = .error e →
        ∃ i, page.Unreadable matcher query i ∧ e = page.unreadableError query i ∧
          ∃ n ∈ nodes, page.LiesBelow i n) ∧
      ∀ scope e, (page.findDescendants matcher scope query ids).1 = .error e →
        ∃ i, page.Unreadable matcher query i ∧ e = page.unreadableError query i ∧
          page.IsBelow scope i := by
  intro result
  have same : result = page.belowNodes matcher nodes query :=
    (findBelowNodes_finds nodes ids (.refl ids)).2
  rw [same]
  refine ⟨⟨fun ⟨e, fails⟩ => ?_, fun ⟨i, unreadable, n, hn, near⟩ => ?_⟩,
    fun e => of_belowNodes_error, fun hosted e fails => ?_, fun scope e fails => ?_⟩
  · obtain ⟨i, unreadable, -, near⟩ := of_belowNodes_error fails
    exact ⟨i, unreadable, near⟩
  · have near : ∃ n ∈ nodes, (page.host? n).isNone ∨ page.LiesBelow i n :=
      ⟨n, hn, near.imp_left Option.isNone_iff_eq_none.mpr⟩
    cases outcome : page.belowNodes matcher nodes query with
    | ok found =>
      have readable := belowNodes_ok_iff.mp ⟨found, outcome⟩ i unreadable.known unreadable.matched near
      exact absurd readable unreadable.unread
    | error e => exact ⟨e, rfl⟩
  · obtain ⟨i, unreadable, named, n, hn, bare | lies⟩ := of_belowNodes_error fails
    · exact absurd bare (hosted n hn)
    · exact ⟨i, unreadable, named, n, hn, lies⟩
  · rw [findDescendants_eq] at fails
    exact exists_unreadable_of_descendants_error fails

/-- A body with an aside that is in no component, and next to it the element of a card that is a memo. -/
def asidePage : Page := Page.ofTables ⟨0⟩
  #[⟨some "body", [], none, "", none, .zero⟩, ⟨some "aside", [], some 0, "", none, .zero⟩,
    ⟨some "div", [], some 0, "", some 1, .zero⟩]
  #[⟨none, none, .memo, some "Card", .null, none⟩,
    ⟨some 0, none, .host, none, .null, some (.node ⟨2⟩)⟩]

/-- Nothing at all lies below the aside, and still the search below it fails at the card. -/
theorem findBelowNodes_fails_aside :
    (asidePage.findBelowNodes Predicate.matches [⟨1⟩] (.named "Card") .empty).1 =
        .error (.unreadableComponent "Card" .memo) ∧ ∀ i, ¬asidePage.LiesBelow i ⟨1⟩ := by
  have empty : ∀ n ∈ asidePage.nodes, ¬(n ≠ ⟨1⟩ ∧ asidePage.isWithin n ⟨1⟩ = true) := by decide +kernel
  refine ⟨by decide +kernel, fun i => ?_⟩
  rintro ⟨n, owned, inside⟩
  exact empty n (List.mem_of_mem_filter owned) inside

end Page

end PageQuery
