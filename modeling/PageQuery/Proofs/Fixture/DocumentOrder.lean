/-
# Nodes are numbered in document order

When an arena is finished, elements have been made in one order, added to others in a second one and put
into a third one, and what refers to them was rewritten apart: parents and content with the elements,
what stands behind instances with the instances. It comes out as one tree, numbered as it is met from the
top: each node but the first has an earlier parent and stands once in what that parent holds, children
ascend, and what lies within a node is numbered from it on without a gap. Nodes and hosts still point at
each other.

Key definitions: `Rendered.Within`, `Rendered.InDocumentOrder`.
Key theorems: `Rendering.within_iff`, `Rendering.children_rendered`, `Fixture.render_in_document_order`.
-/
import Mathlib.Data.List.Count
import PageQuery.Proofs.Fixture.Renumbering

namespace PageQuery

open ElementTree

/-- An element stands in some content as often as among its elements. -/
theorem ContentItem.count_element {n : NodeId} (content : List (ContentItem NodeId)) :
    content.count (.element n) = (content.filterMap (·.element?)).count n := by
  induction content with
  | nil => rfl
  | cons item rest ih =>
    cases item with
    | text x =>
      rw [List.count_cons_of_ne (by exact nofun), ih]
      rfl
    | element m =>
      show _ = (m :: rest.filterMap (·.element?)).count n
      rw [List.count_cons, List.count_cons, ih]
      by_cases same : m = n <;> simp [same]

namespace Rendered

variable (a : Rendered)

/-- What a node holds. -/
def contentAt (n : NodeId) : List (ContentItem NodeId) := (a.nodes[n.index]?).elim [] (·.content)

def parentAt? (n : NodeId) : Option NodeId := (a.nodes[n.index]?).bind (·.parent?)

/-- A node is another one or lies below it. -/
inductive Within : NodeId → NodeId → Prop
  | self (n : NodeId) : Within n n
  | up {n parent outer : NodeId} : a.parentAt? n = some parent → Within parent outer → Within n outer

/-- The nodes are a preorder numbering of one tree. -/
structure InDocumentOrder : Prop where
  top : a.nodes[0]?.map (·.parent?) = some none
  /-- Every other node has an earlier parent, in whose content it stands once. -/
  parent : ∀ n < a.nodes.length, 0 < n → ∃ q < n, a.parentAt? ⟨n⟩ = some ⟨q⟩ ∧
    (a.contentAt ⟨q⟩).count (.element ⟨n⟩) = 1
  /-- It stands nowhere else. -/
  child : ∀ q n : NodeId, .element n ∈ a.contentAt q → a.parentAt? n = some q
  ascending : ∀ q : NodeId, ((a.contentAt q).filterMap (·.element?)).Pairwise fun m n => m.index < n.index
  /-- The nodes within a node are numbered from it on without a gap. -/
  block : ∀ n < a.nodes.length, ∃ last ≤ a.nodes.length,
    ∀ m, a.Within ⟨m⟩ ⟨n⟩ ↔ n ≤ m ∧ m < last
  rooted : ∀ n < a.nodes.length, a.Within ⟨n⟩ ⟨0⟩

end Rendered

namespace Rendering

variable {r : Rendering}

/-! ### The arena of a page -/

@[simp]
theorem getElem?_nodes (n : Nat) : r.page.rendered.nodes[n]? = (r.page.elements[n]?).map r.page.hostNode := by
  show (r.page.elements.toList.map r.page.hostNode)[n]? = _
  rw [List.getElem?_map, Array.getElem?_toList]

@[simp] theorem length_nodes : r.page.rendered.nodes.length = r.page.elements.size :=
  (List.length_map _).trans Array.length_toList

@[simp]
theorem parentAt?_rendered (n : NodeId) : r.page.rendered.parentAt? n = r.page.toPage.parents.next n := by
  rw [Rendered.parentAt?, getElem?_nodes, parents_next]
  cases r.page.elements[n.index]? <;> rfl

/-- The elements that a node holds are its children. -/
@[simp] theorem children_rendered (q : NodeId) :
    (r.page.rendered.contentAt q).filterMap (·.element?) =
      (r.page.childNumbers q.index).map NodeId.mk := by
  rw [Rendered.contentAt, getElem?_nodes, FixturePage.childNumbers]
  cases r.page.elements[q.index]? with
  | none => rfl
  | some e =>
    show (e.content.map r.page.contentItem).filterMap (·.element?) =
      (e.content.filterMap r.page.numberOf?).map NodeId.mk
    rw [List.filterMap_map, List.map_filterMap]
    refine congrArg (fun f => e.content.filterMap f) (funext fun t => ?_)
    cases t <;> rfl

@[simp] theorem element_mem_contentAt {q n : NodeId} :
    .element n ∈ r.page.rendered.contentAt q ↔ n.index ∈ r.page.childNumbers q.index := by
  have numbers : n ∈ (r.page.childNumbers q.index).map NodeId.mk ↔ n.index ∈ r.page.childNumbers q.index :=
    List.mem_map_of_injective (f := NodeId.mk) (fun _ _ same => NodeId.mk.inj same)
  rw [← numbers, ← children_rendered, ← List.count_pos_iff, ← List.count_pos_iff,
    ContentItem.count_element]

/-- Parents lead upward in the arena as on the page. -/
@[simp]
theorem within_iff {m n : NodeId} : r.page.rendered.Within m n ↔ r.page.toPage.isWithin m n = true := by
  constructor
  · intro h
    induction h with
    | self n => exact isWithin_step.mpr (.inl rfl)
    | @up n parent outer above _ ih =>
      rw [parentAt?_rendered, parents_next] at above
      obtain ⟨q, here, rfl⟩ := Option.map_eq_some_iff.mp above
      exact isWithin_step.mpr (.inr ⟨q, here, ih⟩)
  · intro h
    obtain ⟨m⟩ := m
    obtain ⟨n⟩ := n
    induction m using Nat.strongRecOn with
    | _ m ih =>
      rcases isWithin_step.mp h with rfl | ⟨q, here, inner⟩
      · exact .self _
      · obtain ⟨e, there, parent⟩ := Option.bind_eq_some_iff.mp here
        have lt : q < m := by
          rcases parent_spec there with ⟨-, none⟩ | ⟨q', -, lt, -, same, -⟩
          · rw [none] at parent
            cases parent
          · exact Option.some.inj (same.symm.trans parent) ▸ lt
        refine .up ?_ (ih q lt inner)
        rw [parentAt?_rendered, parents_next, here]
        rfl

/-- **The arena of a page is in document order where its tree is.** -/
theorem inDocumentOrder_rendered (order : r.page.InDocumentOrder) : r.page.rendered.InDocumentOrder where
  top := by
    have top := order.top
    rw [getElem?_nodes, Option.map_map]
    cases here : r.page.elements[0]? with
    | none =>
      rw [here] at top
      cases top
    | some e =>
      rw [here, Option.map_some, Option.some.injEq] at top
      exact congrArg some (congrArg (Option.map NodeId.mk) top)
  parent n inside later := by
    rw [length_nodes] at inside
    have here := Array.getElem?_eq_getElem inside
    obtain ⟨q, lt, parent, once⟩ := order.parent n _ later here
    refine ⟨q, lt, ?_, ?_⟩
    · rw [parentAt?_rendered, parents_next, here]
      exact congrArg (Option.map NodeId.mk) parent
    · rw [ContentItem.count_element, children_rendered,
        List.count_map_of_injective _ _ fun _ _ same => NodeId.mk.inj same]
      exact once
  child q n mem := by
    have parent := order.child q.index n.index (element_mem_contentAt.mp mem)
    rw [parentAt?_rendered, parents_next, parent]
    rfl
  ascending q := by
    rw [children_rendered]
    exact List.pairwise_map.mpr (order.ascending q.index)
  block n inside := by
    rw [length_nodes] at inside ⊢
    obtain ⟨last, le, block⟩ := order.block n inside
    exact ⟨last, le, fun m => within_iff.trans (block m)⟩
  rooted n inside := within_iff.mpr (order.rooted n (length_nodes ▸ inside))

/-- An instance of the arena is one of the page. -/
@[simp] theorem getElem?_instances (i : Nat) : r.page.rendered.instances[i]? =
    (r.page.instances[i]?).map (r.page.record i) := by
  show (r.page.instances.toList.mapIdx r.page.record)[i]? = _
  rw [List.getElem?_mapIdx, Array.getElem?_toList]

/-- The host of a node in the arena is its host on the page. -/
@[simp] theorem host?_rendered (n : NodeId) :
    (r.page.rendered.nodes[n.index]?).bind (·.host?) = r.page.toPage.host? n := by
  show _ = (r.page.elements[n.index]?).bind (·.head.host?)
  rw [getElem?_nodes]
  cases r.page.elements[n.index]? <;> rfl

/-- The hosts with a node behind them are those of the page. -/
theorem exists_host_rendered {i : InstanceId} {n : NodeId} :
    (∃ x, r.page.rendered.instances[i.index]? = some x ∧ x.kind = .host ∧ x.backing? = some (.node n)) ↔
      r.page.toPage.kind i = .host ∧ r.page.toPage.backing? i = some (.node n) := by
  show _ ↔ ((r.page.instances[i.index]?).map (·.kind)).getD .fragment = .host ∧
    ((r.page.instances[i.index]?).bind (·.backing?)).map r.page.backingOf = some (.node n)
  rw [getElem?_instances]
  cases r.page.instances[i.index]? <;> simp [FixturePage.record]

end Rendering

/-- **Whatever is rendered, nodes are numbered in document order, and nodes and hosts point at each
other.** Wherever portals add to, and in whatever order elements were made. -/
theorem Fixture.render_in_document_order {f : Fixture} {a : Rendered} (h : f.rendered = .ok a) :
    a.InDocumentOrder ∧ ∀ (n : NodeId) (i : InstanceId), (a.nodes[n.index]?).bind (·.host?) = some i ↔
      ∃ x, a.instances[i.index]? = some x ∧ x.kind = .host ∧ x.backing? = some (.node n) := by
  rw [rendered_eq] at h
  obtain ⟨r, drawn, rfl⟩ := map_ok_iff.mp h
  obtain ⟨s, stands, instances⟩ := render_stands drawn
  obtain ⟨content, top⟩ := stands.top
  refine ⟨Rendering.inDocumentOrder_rendered
    (Rendering.inDocumentOrder stands.tallies.numbers.distinct ⟨_, content, top⟩), fun n i => ?_⟩
  rw [Rendering.host?_rendered, Rendering.exists_host_rendered]
  exact Rendering.host?_iff stands instances

/-- A section with a paragraph, and in the app a card whose heading, from within it, puts an emphasis into
the section and a rule at the end of the body. -/
def panels : Fixture := ⟨[.element "section" [("id", "side")] none none [.element "p" [] none none []]],
  [.component "Card" .function none .null [.element "h1" [] none none
    [.portal "side" [.element "em" [] none none []], .portal "body" [.element "hr" [] none none []]]]]⟩

/-- The emphasis stands behind the paragraph, before the mount and the heading in it that were made
earlier, and its host has it behind. -/
theorem Fixture.render_in_document_order_panels : ∃ a, panels.rendered = .ok a ∧
    a.contentAt ⟨3⟩ = [.element ⟨4⟩, .element ⟨5⟩] ∧ (∀ m, a.Within ⟨m⟩ ⟨3⟩ ↔ 3 ≤ m ∧ m < 6) ∧
    ∃ x, a.instances[5]? = some x ∧ x.kind = .host ∧ x.backing? = some (.node ⟨5⟩) := by
  obtain ⟨a, rendered⟩ : ∃ a, panels.rendered = .ok a := exists_ok_of_toBool (by decide +kernel)
  have nodes : (panels.rendered.toOption.map fun a => (a.contentAt ⟨3⟩, a.nodes.length)) =
      some ([.element ⟨4⟩, .element ⟨5⟩], 9) := by decide +kernel
  have links : (panels.rendered.toOption.map fun a =>
      (a.parentAt? ⟨5⟩, a.parentAt? ⟨6⟩, (a.nodes[5]?).bind (·.host?))) =
        some (some ⟨3⟩, some ⟨2⟩, some ⟨5⟩) := by decide +kernel
  rw [rendered] at nodes links
  simp only [Except.toOption, Option.map_some, Option.some.injEq, Prod.mk.injEq] at nodes links
  obtain ⟨content, length⟩ := nodes
  obtain ⟨inner, outer, host⟩ := links
  obtain ⟨order, hosts⟩ := render_in_document_order rendered
  obtain ⟨last, -, block⟩ := order.block 3 (by omega)
  obtain rfl : last = 6 := by
    have within := (block 5).mp (.up inner (.self _))
    have beyond : ¬6 < last := by
      intro lt
      cases (block 6).mpr ⟨by decide, lt⟩ with
      | up above below =>
        rw [outer] at above
        cases above
        exact absurd ((block 2).mp below).1 (by decide)
    omega
  exact ⟨a, rendered, content, block, (hosts ⟨5⟩ ⟨5⟩).mp host⟩

end PageQuery
