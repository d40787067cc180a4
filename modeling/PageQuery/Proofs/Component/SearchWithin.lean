/-
# What a search in components selects

A structural selector selects nodes wherever they stand, and a search of the document finds those
strictly below its scope. To find the elements of a component themselves, a search in the component
starts from their parents, and then leaves out what lies in no element. Only the root has no parent,
and there a search finds its scope, too, so nothing is missed, and whatever shares a parent with an
element is dropped again.

That the document is searched so is assumed here of a page (`Page.SearchesBelow`) and holds of the
pages of fixtures.

Key definitions: `SelectorMeaning`, `Page.SearchesBelow`.
Key theorems: `Page.SearchesBelow.foundWithin_ok_iff`, `Page.SearchesBelow.mem_of_foundWithin`,
`Fixture.searchesBelow`, `Page.searchWithin_inside`.
-/
import PageQuery.Proofs.Component.Elements
import PageQuery.Proofs.Component.Outline
import PageQuery.Proofs.Fixture.Numbering

namespace PageQuery

/-- Which structural selectors are valid, and which nodes each selects, wherever they stand. -/
structure SelectorMeaning where
  valid : String → Prop
  selects : String → NodeId → Prop

namespace Page

/-- A node of the page, or one around it. -/
def IsScope (page : Page) (scope : NodeId) : Prop := ∃ n ∈ page.nodes, page.isWithin n scope = true

/-- Only the root has no parent. A search fails if its selector is invalid, whatever the scope, and else
finds what is selected strictly below the scope; the root may find itself. -/
structure SearchesBelow (page : Page) (meaning : SelectorMeaning) : Prop where
  root_of_parentless : ∀ n ∈ page.nodes, page.parent? n = none → n = page.root
  ok_iff : ∀ scope selector, page.IsScope scope →
    ((∃ found, page.search scope selector = .ok found) ↔ meaning.valid selector)
  mem_iff : ∀ scope selector found, page.IsScope scope → page.search scope selector = .ok found →
    ∀ n, n ∈ found ↔ meaning.selects selector n ∧ page.isWithin n scope = true ∧
      (n ≠ scope ∨ scope = page.root)

variable {page : Page} {meaning : SelectorMeaning} {selector : String}
  {e n : NodeId} {elements found : List NodeId} {instances : List InstanceId} {i : InstanceId}

theorem mem_nodes_of_mem_elements (mem : e ∈ page.elements i) : e ∈ page.nodes :=
  List.mem_of_mem_filter mem

/-! ### From the parents of elements -/

/-- Where a search starts to find a node: at its parent or, if it has none, at the node. -/
def searchStart (page : Page) (e : NodeId) : NodeId := (page.parent? e).getD e

/-- The nodes from which elements are searched. -/
def searchStarts (page : Page) (elements : List NodeId) : List NodeId :=
  NodeId.ascending (elements.map page.searchStart)

@[simp] theorem mem_searchStarts {start : NodeId} :
    start ∈ page.searchStarts elements ↔ ∃ e ∈ elements, page.searchStart e = start := by
  rw [searchStarts, NodeId.mem_ascending, List.mem_map]

theorem searchInElements_eq (page : Page) (selector : String) (elements : List NodeId) :
    page.searchInElements selector elements =
      (collect (page.search · selector) (page.searchStarts elements)).map fun hits =>
        hits.filter fun hit => elements.any (page.isWithin hit) := by
  rw [← searchFromEach_eq]
  rfl

namespace SearchesBelow

/-- From where the search for an element starts, it can find everything within the element. -/
theorem searchStart_spec (h : page.SearchesBelow meaning) (inside : e ∈ page.nodes) :
    page.IsScope (page.searchStart e) ∧ ∀ n, page.isWithin n e = true →
      page.isWithin n (page.searchStart e) = true ∧
        (n ≠ page.searchStart e ∨ page.searchStart e = page.root) := by
  unfold searchStart
  cases parent : page.parent? e with
  | none =>
    -- Nothing is around the element, so it is the root, which is a candidate of its own search.
    have root := h.root_of_parentless e inside parent
    exact ⟨⟨e, inside, isWithin_self e⟩, fun n within => ⟨within, .inr root⟩⟩
  | some outer =>
    have above : outer ∈ page.parents.after e := by
      rw [page.parents.after_of_next parent]
      exact List.mem_cons_self
    refine ⟨⟨e, inside, (mem_parents_after_iff.mp above).2⟩, fun n within => ?_⟩
    obtain ⟨differ, below⟩ := mem_parents_after_iff.mp (mem_parents_after_of_isWithin within above)
    exact ⟨below, .inl differ⟩

theorem isScope_of_mem_searchStarts (h : page.SearchesBelow meaning)
    (inside : ∀ e ∈ elements, e ∈ page.nodes) {start : NodeId}
    (mem : start ∈ page.searchStarts elements) : page.IsScope start := by
  obtain ⟨e, he, rfl⟩ := mem_searchStarts.mp mem
  exact (h.searchStart_spec (inside e he)).1

/-- A search in elements succeeds if there are none or the selector is valid. -/
theorem searchInElements_ok_iff (h : page.SearchesBelow meaning)
    (inside : ∀ e ∈ elements, e ∈ page.nodes) :
    (∃ found, page.searchInElements selector elements = .ok found) ↔
      elements ≠ [] → meaning.valid selector := by
  have succeeds : (∃ found, page.searchInElements selector elements = .ok found) ↔
      ∀ start ∈ page.searchStarts elements, ∃ found, page.search start selector = .ok found := by
    simp only [searchInElements_eq, map_ok_iff, ← collect_ok_iff]
    constructor
    · rintro ⟨_, hits, ok, _⟩
      exact ⟨hits, ok⟩
    · rintro ⟨hits, ok⟩
      exact ⟨_, hits, ok, rfl⟩
  have alike : ∀ start ∈ page.searchStarts elements,
      ((∃ found, page.search start selector = .ok found) ↔ meaning.valid selector) :=
    fun start mem => h.ok_iff _ _ (h.isScope_of_mem_searchStarts inside mem)
  rw [succeeds]
  constructor
  · intro all owned
    obtain ⟨e, he⟩ := List.exists_mem_of_ne_nil _ owned
    have start : page.searchStart e ∈ page.searchStarts elements := mem_searchStarts.mpr ⟨e, he, rfl⟩
    exact (alike _ start).mp (all _ start)
  · intro valid start mem
    obtain ⟨e, he, -⟩ := mem_searchStarts.mp mem
    exact (alike start mem).mpr (valid (List.ne_nil_of_mem he))

/-- A search in elements finds what is selected within one of them. -/
theorem mem_of_searchInElements (h : page.SearchesBelow meaning)
    (inside : ∀ e ∈ elements, e ∈ page.nodes)
    (ok : page.searchInElements selector elements = .ok found) :
    n ∈ found ↔ meaning.selects selector n ∧ ∃ e ∈ elements, page.isWithin n e = true := by
  rw [searchInElements_eq] at ok
  obtain ⟨hits, searches, rfl⟩ := map_ok_iff.mp ok
  rw [List.mem_filter, List.any_eq_true, mem_of_collect searches]
  constructor
  · rintro ⟨⟨start, mem, found, searched, hit⟩, within⟩
    have scope := h.isScope_of_mem_searchStarts inside mem
    exact ⟨((h.mem_iff _ _ _ scope searched n).mp hit).1, within⟩
  · rintro ⟨selected, e, he, within⟩
    have start : page.searchStart e ∈ page.searchStarts elements := mem_searchStarts.mpr ⟨e, he, rfl⟩
    obtain ⟨scope, finds⟩ := h.searchStart_spec (inside e he)
    obtain ⟨found, searched⟩ := collect_ok_iff.mp ⟨hits, searches⟩ _ start
    have hit := (h.mem_iff _ _ _ scope searched n).mpr ⟨selected, finds n within⟩
    exact ⟨⟨_, start, found, searched, hit⟩, e, he, within⟩

/-! ### In the elements of instances -/

/-- A search in components succeeds if none of them has elements or the selector is valid. -/
theorem foundWithin_ok_iff (h : page.SearchesBelow meaning) :
    (∃ found, page.foundWithin selector instances = .ok found) ↔
      (∃ i ∈ instances, page.elements i ≠ []) → meaning.valid selector := by
  have each : (∃ found, page.foundWithin selector instances = .ok found) ↔
      ∀ i ∈ instances, ∃ found, page.searchInElements selector (page.elements i) = .ok found := by
    have alone : ∀ i found, page.foundIn selector i = .ok found ↔
        page.searchInElements selector (page.elements i) = .ok found := fun i found => mapError_ok_iff
    simp only [← alone, ← collect_ok_iff, foundWithin, map_ok_iff]
    constructor
    · rintro ⟨_, all, ok, _⟩
      exact ⟨all, ok⟩
    · rintro ⟨all, ok⟩
      exact ⟨_, all, ok, rfl⟩
  rw [each]
  simp only [h.searchInElements_ok_iff fun e => mem_nodes_of_mem_elements]
  constructor
  · rintro all ⟨i, mem, owns⟩
    exact all i mem owns
  · intro valid i mem owns
    exact valid ⟨i, mem, owns⟩

/-- A search in components finds what is selected within their elements. -/
theorem mem_of_foundWithin (h : page.SearchesBelow meaning)
    (ok : page.foundWithin selector instances = .ok found) :
    n ∈ found ↔ meaning.selects selector n ∧
      ∃ i ∈ instances, ∃ e ∈ page.elements i, page.isWithin n e = true := by
  obtain ⟨all, finds, rfl⟩ := map_ok_iff.mp ok
  rw [NodeId.mem_ascending, mem_of_collect finds]
  constructor
  · rintro ⟨i, mem, found, alone, hit⟩
    obtain ⟨selected, e, he, within⟩ :=
      (h.mem_of_searchInElements (fun e => mem_nodes_of_mem_elements) (mapError_ok_iff.mp alone)).mp hit
    exact ⟨selected, i, mem, e, he, within⟩
  · rintro ⟨selected, i, mem, e, he, within⟩
    obtain ⟨found, alone⟩ := collect_ok_iff.mp ⟨all, finds⟩ i mem
    have hit := (h.mem_of_searchInElements (n := n) (fun e => mem_nodes_of_mem_elements)
      (mapError_ok_iff.mp alone)).mpr ⟨selected, e, he, within⟩
    exact ⟨i, mem, found, alone, hit⟩

end SearchesBelow

theorem ascending_of_foundWithin (ok : page.foundWithin selector instances = .ok found) :
    found.Pairwise fun m n => m.index < n.index := by
  obtain ⟨all, -, rfl⟩ := map_ok_iff.mp ok
  exact NodeId.ascending_pairwise all

end Page

/-! ### Pages of fixtures -/

/-- On the page of a fixture, selectors are read and select in the tree that the markup reads as. -/
def FixturePage.meaning (p : FixturePage) : SelectorMeaning where
  valid selector := (Style.read? selector.toList).isSome
  selects selector n := ∃ selectors, Style.read? selector.toList = some selectors ∧
    n.index ∈ p.document.select selectors

namespace Rendering

variable {r : Rendering} {scope : NodeId}

/-- Nodes around nodes are nodes. -/
theorem index_lt_of_isScope (h : r.page.toPage.IsScope scope) : scope.index < r.page.elements.size := by
  obtain ⟨n, inside, within⟩ := h
  have outer : ∀ m ∈ r.page.toPage.parents.after n, m.index < r.page.elements.size := by
    refine r.page.toPage.parents.forall_mem_follow (fun a b leads => ?_) _ n
    rw [parents_next] at leads
    obtain ⟨q, parent, rfl⟩ := Option.map_eq_some_iff.mp leads
    obtain ⟨e, here, parent⟩ := Option.bind_eq_some_iff.mp parent
    rcases parent_spec here with ⟨-, none⟩ | ⟨q', a, -, there, same, -⟩
    · rw [none] at parent; cases parent
    · obtain rfl : q' = q := Option.some.inj (same.symm.trans parent)
      exact (Array.getElem?_eq_some_iff.mp there).1
  obtain ⟨m, lt, rfl⟩ := List.mem_map.mp inside
  rcases Page.isWithin_iff.mp within with rfl | above
  · exact List.mem_range.mp lt
  · exact outer scope above

theorem searchesBelow (r : Rendering) : r.page.toPage.SearchesBelow r.page.meaning where
  root_of_parentless n inside parentless := by
    obtain ⟨m, lt, rfl⟩ := List.mem_map.mp inside
    obtain ⟨e, here⟩ : ∃ e, r.page.elements[m]? = some e :=
      ⟨_, Array.getElem?_eq_getElem (List.mem_range.mp lt)⟩
    rw [Page.parent?, parents_next, here, Option.bind_some, Option.map_eq_none_iff] at parentless
    rcases parent_spec here with ⟨rfl, -⟩ | ⟨q, -, -, -, parent, -⟩
    · rfl
    · rw [parentless] at parent; cases parent
  ok_iff scope selector h := by
    have inside := Nat.not_le.mpr (index_lt_of_isScope h)
    show (∃ found, r.page.search _ scope selector = .ok found) ↔ _
    rw [FixturePage.search, if_neg inside, FixturePage.meaning]
    cases read : Style.read? selector.toList <;> simp [read]
  mem_iff scope selector found h searched n := by
    have inside := Nat.not_le.mpr (index_lt_of_isScope h)
    replace searched : r.page.search _ scope selector = .ok found := searched
    rw [FixturePage.search, if_neg inside] at searched
    cases read : Style.read? selector.toList with
    | none => rw [read] at searched; cases searched
    | some selectors =>
      rw [read] at searched
      obtain rfl := Except.ok.inj searched
      have placed : n ∈ (r.page.document.select selectors).map NodeId.mk ↔
          n.index ∈ r.page.document.select selectors := by
        rw [List.mem_map]
        exact ⟨fun ⟨m, mem, e⟩ => e ▸ mem, fun mem => ⟨n.index, mem, rfl⟩⟩
      rw [List.mem_filter, placed]
      simp only [FixturePage.meaning, read, Option.some.injEq, exists_eq_left', Bool.and_eq_true,
        Bool.or_eq_true, decide_eq_true_iff]
      exact and_congr_right fun _ => and_comm

end Rendering

/-- **Pages of fixtures are searched below the scope.** -/
theorem Fixture.searchesBelow {f : Fixture} {p : FixturePage} (h : f.load = .ok p) :
    p.toPage.SearchesBelow p.meaning := by
  obtain ⟨r, -, rfl⟩ := exists_rendering h
  exact r.searchesBelow

/-! ### The search -/

/-- **A search in components selects just what is in their elements.** On a page searched as documents
are, whatever was asked before, it fails exactly when the selector is invalid and one of the
components has an element. Else it finds, in document order and each once, the nodes that the selector
selects and that are an element of one of the components or lie in one. -/
theorem Page.searchWithin_inside {page : Page} {meaning : SelectorMeaning}
    (h : page.SearchesBelow meaning) (instances : List InstanceId) (selector : String)
    (ids : Identities) :
    let result := (page.searchWithin instances selector ids).1
    (∀ i later, (page.elementsOf i later).1 = page.elements i) ∧
      ((∃ e, result = .error e) ↔ ¬meaning.valid selector ∧ ∃ i ∈ instances, page.elements i ≠ []) ∧
      ∀ found, result = .ok found → found.Pairwise (fun m n => m.index < n.index) ∧
        ∀ n, n ∈ found ↔ meaning.selects selector n ∧
          ∃ i ∈ instances, ∃ e ∈ page.elements i, page.isWithin n e = true := by
  intro result
  have same : result = page.foundWithin selector instances :=
    (page.searchWithin_finds selector instances ids (.refl ids)).2
  rw [same]
  refine ⟨fun i later => (page.elementsOf_answers i later (.refl later)).2, ?_, fun found ok =>
    ⟨ascending_of_foundWithin ok, fun n => h.mem_of_foundWithin ok⟩⟩
  have succeeds : (∃ found, page.foundWithin selector instances = .ok found) ↔ _ :=
    h.foundWithin_ok_iff
  cases outcome : page.foundWithin selector instances with
  | ok found =>
    have valid := succeeds.mp ⟨found, outcome⟩
    exact ⟨fun ⟨_, fails⟩ => (nomatch fails), fun ⟨invalid, owned⟩ => absurd (valid owned) invalid⟩
  | error e =>
    have fails : ¬∃ found, page.foundWithin selector instances = .ok found := by
      rw [outcome]
      exact fun ⟨_, ok⟩ => nomatch ok
    rw [succeeds] at fails
    exact ⟨fun _ => (Classical.not_imp.mp fails).symm, fun _ => ⟨e, rfl⟩⟩

/-- A list of two rows, the first with a bold word. -/
def rows : Fixture := ⟨[], [.element "ul" [] none none [
  .component "Row" .function none .null [.element "li" [] none none [.element "b" [] none none []]],
  .component "Row" .function none .null [.element "li" [] none none []]]]⟩

/-- In the first row there are its item and the bold word, but not the item of the second row, which has
the same parent. -/
theorem Page.searchWithin_inside_rows : ∃ p, rows.load = .ok p ∧ p.toPage.SearchesBelow p.meaning ∧
    (p.toPage.searchWithin [⟨2⟩] "li, b" .empty).1 = .ok [⟨5⟩, ⟨6⟩] ∧
    ∀ n, n ∈ [⟨5⟩, ⟨6⟩] ↔ p.meaning.selects "li, b" n ∧
      ∃ i ∈ [⟨2⟩], ∃ e ∈ p.toPage.elements i, p.toPage.isWithin n e = true := by
  have known : (rows.load.toOption.map fun p =>
      (p.toPage.searchWithin [⟨2⟩] "li, b" .empty).1.toOption) = some (some [⟨5⟩, ⟨6⟩]) := by
    decide +kernel
  obtain ⟨p, loaded, known⟩ := exists_ok_of_map known
  have found := toOption_some_iff.mp known
  have below := Fixture.searchesBelow loaded
  exact ⟨p, loaded, below, found, ((searchWithin_inside below [⟨2⟩] "li, b" .empty).2.2 _ found).2⟩

end PageQuery
