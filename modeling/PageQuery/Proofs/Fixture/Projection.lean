/-
# Components project nodes

Instances that own nodes lie directly above hosts, while a search for components climbs past any number
of hosts. On the page of a fixture the two agree: every host renders a node, so whatever is above a host
and is none itself has a nearest host below it, and owns the node of that one. This is so through
components and fragments in any layers, and through portals, whose nodes stand elsewhere in the
document but whose hosts are where the portal is.

All nodes of such a page lie within its root, which no instance renders. So a search for components
below the root finds what a search everywhere does.

None of this depends on the search for nodes: it holds of the page with any other in its place.

Key definitions: `Page.HostsRender`, `Page.RootSpans`, `Page.withSearch`.
Key theorems: `Page.HostsRender.exists_owned`, `Page.HostsRender.elements_ne_nil`, `Page.belowNodes_root`,
`Fixture.hostsRender`, `Fixture.rootSpans`.
-/
import PageQuery.Proofs.Component.BelowNodes
import PageQuery.Proofs.Engine.Feedback
import PageQuery.Proofs.Fixture.Hosting

namespace PageQuery

namespace Page

/-- What renders a node is a host, and a host renders a node. -/
structure HostsRender (page : Page) : Prop where
  kind : ∀ n i, page.host? n = some i → page.kind i = .host
  node : ∀ i, page.kind i = .host → ∃ n ∈ page.nodes, page.host? n = some i

/-- No instance renders the root, and every node lies within it. -/
structure RootSpans (page : Page) : Prop where
  bare : page.host? page.root = none
  within : ∀ n ∈ page.nodes, page.isWithin n page.root = true

variable {page : Page} {i : InstanceId}

@[simp] theorem not_isHost_iff {kind : InstanceKind} : (!kind.isHost) = true ↔ kind ≠ .host := by
  cases kind <;> decide

/-- Queries match no hosts. -/
theorem kind_of_isMatch {matcher : PropertyMatcher} {query : ComponentQuery}
    (matched : page.isMatch matcher query i = true) : page.kind i ≠ .host := by
  rw [isMatch, Bool.and_eq_true, Bool.and_eq_true] at matched
  exact not_isHost_iff.mp matched.1.1

theorem ownerChain_eq {n : NodeId} {host : InstanceId} (rendered : page.host? n = some host) :
    page.ownerChain n = (page.owners.after host).takeWhile fun i => !(page.kind i).isHost := by
  rw [ownerChain, rendered]

/-- The owners of a node go on at least as long as there are no hosts above its own. -/
theorem mem_ownerChain {n : NodeId} {host : InstanceId} {before above : List InstanceId}
    (rendered : page.host? n = some host) (chain : page.owners.after host = before ++ i :: above)
    (bare : ∀ j ∈ before, page.kind j ≠ .host) (kind : page.kind i ≠ .host) : i ∈ page.ownerChain n := by
  have passes : ∀ j ∈ before, (!(page.kind j).isHost) = true := fun j mem =>
    not_isHost_iff.mpr (bare j mem)
  rw [ownerChain_eq rendered, chain, List.takeWhile_append_of_pos passes, List.takeWhile_cons,
    if_pos (not_isHost_iff.mpr kind)]
  exact List.mem_append_right _ List.mem_cons_self

/-- What is above a host and is none itself owns a node: that of the nearest host below it. By recursion
along the instances upward; `before` are those passed since the last host. -/
theorem HostsRender.exists_owned (renders : page.HostsRender) (kind : page.kind i ≠ .host) :
    ∀ {chain before : List InstanceId} {host : InstanceId}, page.owners.after host = before ++ chain →
      page.owners.IsUpward chain → page.kind host = .host → (∀ j ∈ before, page.kind j ≠ .host) →
      i ∈ chain → ∃ n ∈ page.nodes, i ∈ page.ownerChain n
  | a :: above, before, host, split, up, hosts, bare, mem => by
    obtain ⟨rest, up⟩ := up.cons
    by_cases next : page.kind a = .host
    · have further : i ∈ above := by
        rcases List.mem_cons.mp mem with rfl | further
        · exact absurd next kind
        · exact further
      have start : page.owners.after a = [] ++ above := rest.symm
      exact renders.exists_owned kind start up next nofun further
    · rcases List.mem_cons.mp mem with rfl | further
      · obtain ⟨n, inside, rendered⟩ := renders.node host hosts
        exact ⟨n, inside, mem_ownerChain rendered split bare kind⟩
      · have passed : ∀ j ∈ before ++ [a], page.kind j ≠ .host := by
          intro j hj
          rcases List.mem_append.mp hj with old | new
          · exact bare j old
          · rwa [List.mem_singleton.mp new]
        exact renders.exists_owned kind (by rw [split, List.append_assoc]; rfl) up hosts passed further

/-- Instances that searches come to own a node unless they are hosts. -/
theorem HostsRender.elements_ne_nil (renders : page.HostsRender) (mem : i ∈ page.outline)
    (kind : page.kind i ≠ .host) : page.elements i ≠ [] := by
  obtain ⟨n, -, above⟩ := mem_of_mem_climbs ((flatMap_reverse_perm _).mem_iff.mp mem)
  obtain ⟨host, rendered, above⟩ : ∃ host, page.host? n = some host ∧ i ∈ page.owners.upward host := by
    unfold hostChain at above
    cases e : page.host? n with
    | none => rw [e] at above; cases above
    | some host => rw [e] at above; exact ⟨host, rfl, above⟩
  have hosts := renders.kind n host rendered
  have further : i ∈ page.owners.after host := by
    rcases List.mem_cons.mp above with rfl | further
    · exact absurd hosts kind
    · exact further
  obtain ⟨m, inside, owns⟩ := renders.exists_owned kind (List.nil_append _).symm
    (page.owners.isUpward_after host) hosts nofun further
  refine List.ne_nil_of_mem (List.mem_filter.mpr ⟨inside, List.any_eq_true.mpr ⟨i, owns, ?_⟩⟩)
  exact decide_eq_true rfl

/-- The nodes that an instance owns are those of the page but for the root. -/
theorem RootSpans.of_mem_elements (spans : page.RootSpans) {n : NodeId} (mem : n ∈ page.elements i) :
    n ≠ page.root ∧ page.isWithin n page.root = true := by
  obtain ⟨inside, owned⟩ := List.mem_filter.mp mem
  refine ⟨?_, spans.within n inside⟩
  rintro rfl
  rw [ownerChain, spans.bare] at owned
  cases owned

/-- **Below the root is everywhere.** A search for components below the root keeps what owns a node, and
everything that can be found does. -/
theorem belowNodes_root (renders : page.HostsRender) (spans : page.RootSpans)
    (matcher : PropertyMatcher) (query : ComponentQuery) :
    page.belowNodes matcher [page.root] query = page.descendants matcher .everywhere query := by
  have hosts : page.hostsOf [page.root] = [] := List.filterMap_cons_none spans.bare
  have outside : page.outsideOf [page.root] = [page.root] := by
    rw [outsideOf, List.filter_cons_of_pos (by rw [spans.bare]; rfl), List.filter_nil]
  have keeps : ∀ found, page.descendants matcher .everywhere query = .ok found →
      found.filter (fun i => decide (page.OwnsInside i page.root)) = found := by
    intro found h
    refine List.filter_eq_self.mpr fun i mem => decide_eq_true ?_
    obtain ⟨known, matched, -⟩ := (mem_of_descendants h).mp mem
    obtain ⟨n, owned⟩ := List.exists_mem_of_ne_nil _
      (renders.elements_ne_nil known (kind_of_isMatch matched))
    exact ⟨n, owned, spans.of_mem_elements owned⟩
  unfold belowNodes
  rw [hosts, outside, descendants_below_nil]
  cases found : page.descendants matcher .everywhere query with
  | error e => simp [Except.bind, Except.map]
  | ok found' =>
    have all := keeps found' found
    simpa [Except.bind, Except.map] using all

/-! ### Other searches -/

/-- The page with another search for nodes. -/
def withSearch (page : Page) (search : NodeId → String → Except SearchError (List NodeId)) : Page :=
  { page with search }

variable {search : NodeId → String → Except SearchError (List NodeId)}

@[simp] theorem withSearch_search (page : Page) : (page.withSearch search).search = search := rfl

@[simp] theorem withSearch_self (page : Page) : page.withSearch page.search = page := rfl

theorem HostsRender.withSearch (renders : page.HostsRender) : (page.withSearch search).HostsRender :=
  ⟨renders.kind, renders.node⟩

theorem RootSpans.withSearch (spans : page.RootSpans) : (page.withSearch search).RootSpans :=
  ⟨spans.bare, spans.within⟩

end Page

open Page Render

/-! ### Pages of fixtures -/

namespace Rendering

variable {r : Rendering} {s : RenderState}

/-- On a rendered page what renders a node is a host, and a host renders a node. -/
theorem hostsRender (h : Stands r.document s) (instances : r.instances = s.instances) :
    r.page.toPage.HostsRender where
  kind n i rendered := ((host?_iff h instances).mp rendered).1
  node i kind := by
    have kind : ((r.page.instances[i.index]?).map (·.kind)).getD .fragment = .host := kind
    cases there : r.page.instances[i.index]? with
    | none => rw [there] at kind; cases kind
    | some x =>
      rw [there] at kind
      have kind : x.kind = .host := kind
      have mem : r.instances[i.index]? = some x := by
        rw [← there]
        exact List.getElem?_toArray.symm
      rw [instances] at mem
      obtain ⟨serial, behind⟩ := (h.tallies.hosts.kinds x (List.mem_of_getElem? mem)).mp kind
      have back : r.page.toPage.backing? i = some (.node ⟨r.page.placeOf serial⟩) := by
        show ((r.page.instances[i.index]?).bind (·.backing?)).map _ = _
        rw [there, Option.bind_some, behind]
        rfl
      have rendered := (host?_iff h instances).mpr ⟨by
        show ((r.page.instances[i.index]?).map (·.kind)).getD .fragment = .host
        rw [there]
        exact kind, back⟩
      refine ⟨_, ?_, rendered⟩
      obtain ⟨e, here, -⟩ := Option.bind_eq_some_iff.mp rendered
      obtain ⟨inside, -⟩ := Array.getElem?_eq_some_iff.mp here
      exact List.mem_map_of_mem (List.mem_range.mpr inside)

/-- No instance renders the first node of a rendered page, and all lie within it. -/
theorem rootSpans (h : Stands r.document s) : r.page.toPage.RootSpans where
  bare := by
    obtain ⟨content, document⟩ := h.top
    show (r.page.elements[0]?).bind (·.head.host?) = none
    rw [getElem?_elements, document]
    rfl
  within n mem := by
    obtain ⟨content, document⟩ := h.top
    obtain ⟨m, inside, rfl⟩ := List.mem_map.mp mem
    exact (inDocumentOrder h.tallies.numbers.distinct ⟨_, content, document⟩).rooted m
      (List.mem_range.mp inside)

end Rendering

namespace Fixture

variable {f : Fixture} {r : Rendering}

theorem hostsRender (h : f.render = .ok r) : r.page.toPage.HostsRender := by
  obtain ⟨s, stands, instances⟩ := render_stands h
  exact Rendering.hostsRender stands instances

theorem rootSpans (h : f.render = .ok r) : r.page.toPage.RootSpans := by
  obtain ⟨s, stands, -⟩ := render_stands h
  exact Rendering.rootSpans stands

end Fixture

end PageQuery
