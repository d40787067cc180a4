/-
# Pages correspond to what fixtures declare

The nodes of a rendered page are the elements of the fixture's tree, and its instances are the nodes of
the app that are no texts, with the instance at the top for the mount. In the graph of instances, parents
and siblings are those of the tree. In the document, too, an element holds what stands in it, but what
is in a portal stands behind all that its target holds itself, and portals to one target follow each
other in the order in which they are met.

Key definitions: `FixturePage.contentOf`, `Fixture.DrawingOrder`, `Fixture.DrawsElements`,
`Fixture.MakesInstances`.
Key theorems: `Rendering.drawsElements`, `Rendering.makesInstances`, `Fixture.render_corresponds`.
-/
import PageQuery.Proofs.Fixture.Hosting
import PageQuery.Proofs.Fixture.Layout

namespace PageQuery

open ElementTree FixtureNode Render RenderedInstance

namespace FixturePage

variable (p : FixturePage)

/-- What a tree is on the page: a text, or the node of an element. -/
def contentItem : ElementTree → ContentItem NodeId
  | .text x => .text x
  | .element head _ => .element ⟨p.placeOf head.serial⟩

/-- What stands in a node, in order. -/
def contentOf (n : NodeId) : List (ContentItem NodeId) :=
  ((p.element? n).map (·.content)).elim [] fun content => content.map p.contentItem

end FixturePage

namespace Fixture

variable (f : Fixture)

/-- The order in which nodes are drawn. All nodes that are declared are met in it, each once. -/
structure DrawingOrder (drawn : List DeclaredNode) : Prop where
  rounds : f.document.MetInOrder drawn
  mem_iff : ∀ d, d ∈ drawn ↔ f.document.at? d.1 = some d.2
  once : (drawn.map (·.1)).Nodup

/-- The nodes of a page are the elements of a fixture, one for one. An element holds its text, then what
its children show where they stand, and then what portals to it show. -/
structure DrawsElements (p : FixturePage) (drawn : List DeclaredNode) (nodeOf : List Nat → NodeId) :
    Prop where
  present : ∀ path node, f.document.at? path = some node → node.isElement = true →
    ∃ e, p.element? (nodeOf path) = some e ∧ e.head.Renders node
  injective : ∀ path path' node node', f.document.at? path = some node → node.isElement = true →
    f.document.at? path' = some node' → node'.isElement = true → nodeOf path = nodeOf path' → path = path'
  onto : ∀ n < p.elements.size, ∃ path node, f.document.at? path = some node ∧ node.isElement = true ∧
    nodeOf path = ⟨n⟩
  content : ∀ path node, f.document.at? path = some node → node.isElement = true →
    p.contentOf (nodeOf path) =
      (ownContent path node ++ portalContent drawn (drawn.filter (·.2.isPortal)) path).map (·.map nodeOf)

/-- The nodes right in a node that instances are made for. -/
def childNodes (path : List Nat) (node : FixtureNode) : List DeclaredNode :=
  (rightIn path 0 node.children).filter (!·.2.isText)

/-- The instances of a page are the nodes of an app that are no texts, one for one, and the one at the top
for the mount. The parent of an instance is that of the node around. The children of an instance are those
of the nodes right in its node, and the links between siblings lead from the first to the others in order. -/
structure MakesInstances (p : FixturePage) (instanceOf : List Nat → InstanceId) : Prop where
  top : p.toPage.kind (instanceOf f.mountPath) = .root ∧
    p.toPage.parentInstance? (instanceOf f.mountPath) = none
  present : ∀ path node, f.InApp path node → node.isText = false → path ≠ f.mountPath →
    ∃ x, p.instance? (instanceOf path) = some x ∧ x.Represents node
  injective : ∀ path path' node node', f.InApp path node → node.isText = false →
    f.InApp path' node' → node'.isText = false → instanceOf path = instanceOf path' → path = path'
  onto : ∀ i < p.instances.size, ∃ path node, f.InApp path node ∧ node.isText = false ∧
    instanceOf path = ⟨i⟩
  parent : ∀ path k node outer, f.InApp path outer → f.InApp (path ++ [k]) node → node.isText = false →
    p.toPage.parentInstance? (instanceOf (path ++ [k])) = some (instanceOf path)
  siblings : ∀ path node, f.InApp path node → node.isText = false →
    let children := (childNodes path node).map fun d => instanceOf d.1
    children.Nodup ∧ (∀ i, p.toPage.parentInstance? i = some (instanceOf path) ↔ i ∈ children) ∧
      ∀ first rest, children = first :: rest → p.toPage.siblings.after first = rest

end Fixture

/-! ### Chains of siblings -/

/-- Links between siblings lead through the children of an instance as they ascend. -/
theorem FixturePage.Sound.siblings_after {p : FixturePage} (sound : p.Sound) {parent : InstanceId}
    {children : List InstanceId}
    (mem_iff : ∀ i, p.toPage.parentInstance? i = some parent ↔ i ∈ children)
    (growing : children.Pairwise fun i j => i.index < j.index) (rest : List InstanceId) :
    ∀ (before : List InstanceId) (first : InstanceId), children = before ++ first :: rest →
      p.toPage.siblings.after first = rest := by
  have parentAt_iff : ∀ n, parentAt p.instances n = some parent ↔ ⟨n⟩ ∈ children := fun n => by
    rw [← mem_iff, Page.parentInstance?, sound.owners_next]
  induction rest with
  | nil =>
    intro before first split
    rw [split] at parentAt_iff growing
    refine Links.after_of_next_none _ ?_
    rw [p.siblings_next, Option.map_eq_none_iff]
    refine Option.eq_none_iff_forall_ne_some.mpr fun k next => ?_
    obtain ⟨other, here, there, lt, -⟩ := nextSibling?_eq_some_iff.mp next
    obtain rfl : parent = other := Option.some.inj (((parentAt_iff _).mpr (by simp)).symm.trans here)
    rcases List.mem_append.mp ((parentAt_iff k).mp there) with earlier | last
    · have before_first := (List.pairwise_append.mp growing).2.2 _ earlier first List.mem_cons_self
      exact Nat.lt_asymm lt before_first
    · rw [← List.mem_singleton.mp last] at lt
      exact Nat.lt_irrefl _ lt
  | cons next rest ih =>
    intro before first split
    have link : nextSibling? p.instances first.index = some next.index := by
      rw [split] at parentAt_iff growing
      obtain ⟨-, later, earlier⟩ := List.pairwise_append.mp growing
      obtain ⟨lt, beyond⟩ := List.pairwise_cons.mp later
      refine nextSibling?_eq_some_iff.mpr ⟨parent, (parentAt_iff _).mpr (by simp),
        (parentAt_iff _).mpr (by simp), lt _ List.mem_cons_self, fun n low high here => ?_⟩
      rcases List.mem_append.mp ((parentAt_iff n).mp here) with old | new
      · exact Nat.lt_asymm low (earlier _ old first List.mem_cons_self)
      · rcases List.mem_cons.mp new with same | new
        · rw [← same] at low
          exact Nat.lt_irrefl _ low
        · rcases List.mem_cons.mp new with same | new
          · rw [← same] at high
            exact Nat.lt_irrefl _ high
          · exact Nat.lt_asymm high ((List.pairwise_cons.mp beyond).1 _ new)
    have next_eq : p.toPage.siblings.next first = some next := by rw [p.siblings_next, link]; rfl
    rw [Links.after_of_next _ next_eq]
    exact congrArg _ (ih (before ++ [first]) next (by rw [split, List.append_assoc]; rfl))

open Fixture

/-! ### Nodes -/

namespace Rendering

variable {f : Fixture} {r : Rendering} {done drawn : List DeclaredNode} {s : RenderState}

/-- The node of an element: where the element made for it stands in the document. -/
def nodeOf (r : Rendering) (drawn : List DeclaredNode) (path : List Nat) : NodeId :=
  ⟨r.page.placeOf (((made drawn).map (·.1)).idxOf path)⟩

/-- The instance of a node: its place among the nodes that instances are made for. -/
def instanceOf (f : Fixture) (drawn : List DeclaredNode) (path : List Nat) : InstanceId :=
  ⟨((f.graph drawn).map (·.1)).idxOf path⟩

theorem idxOf_eq_of_getElem? {l : List DeclaredNode} {n : Nat} {d : DeclaredNode}
    (once : (l.map (·.1)).Nodup) (here : l[n]? = some d) : (l.map (·.1)).idxOf d.1 = n := by
  obtain ⟨inside, rfl⟩ := List.getElem?_eq_some_iff.mp here
  have placed := List.Nodup.idxOf_getElem once n (by rwa [List.length_map])
  rwa [List.getElem_map] at placed

/-- What is known of a rendering once all is laid out. -/
structure Complete (f : Fixture) (r : Rendering) (done drawn : List DeclaredNode) (s : RenderState) :
    Prop where
  laid : f.Laid done [] drawn r.document s
  shows : Shows r.document s
  instances : r.instances = s.instances
  distinct : ((heads r.document).map (·.serial)).Nodup

theorem exists_complete (h : f.render = .ok r) : ∃ done drawn s, Complete f r done drawn s := by
  obtain ⟨done, drawn, s, laid, shows, instances⟩ := render_laid h
  obtain ⟨_, stands, -⟩ := render_stands h
  exact ⟨done, drawn, s, laid, shows, instances, stands.tallies.numbers.distinct⟩

namespace Complete

variable {m n : Nat} {e : PlacedElement} {d : DeclaredNode} {path : List Nat} {node : FixtureNode}

theorem portals_eq (h : Complete f r done drawn s) : drawn.filter (·.2.isPortal) = done := by
  rw [h.laid.turn.portals_eq, List.append_nil]

theorem made_once (h : Complete f r done drawn s) : ((made drawn).map (·.1)).Nodup :=
  h.laid.turn.nodup.sublist (List.filter_sublist.map _)

/-- An element that is made for a node has its place for the number of the node. -/
theorem nodeOf_eq_placeOf (h : Complete f r done drawn s) (made : (made drawn)[n]? = some d) :
    r.nodeOf drawn d.1 = ⟨r.page.placeOf n⟩ := by
  rw [nodeOf, idxOf_eq_of_getElem? h.made_once made]

/-- Every element of the page stands for a node. -/
theorem exists_fits (h : Complete f r done drawn s) (here : r.page.elements[m]? = some e) :
    ∃ d, f.Fits drawn (portalContent drawn done) e.head e.content d ∧ r.nodeOf drawn d.1 = ⟨m⟩ := by
  have mem := List.mem_of_getElem? (getElem?_elements ▸ here)
  obtain ⟨d, fits⟩ := Everywhere.placed h.laid.fitted mem
  exact ⟨d, fits, by rw [h.nodeOf_eq_placeOf fits.here, placeOf_serial h.distinct here]⟩

/-- Every element that is declared is one of the page. -/
theorem exists_element (h : Complete f r done drawn s) (declared : f.document.at? path = some node)
    (isElement : node.isElement = true) : ∃ m e, r.page.elements[m]? = some e ∧
      r.nodeOf drawn path = ⟨m⟩ ∧ f.Fits drawn (portalContent drawn done) e.head e.content (path, node) := by
  have mem : (path, node) ∈ made drawn :=
    List.mem_filter.mpr ⟨h.laid.turn.mem_of_at? declared, isElement⟩
  obtain ⟨n, here⟩ := List.mem_iff_getElem?.mp mem
  have low : n < s.serial := by
    rw [h.laid.records.counts.serial]
    exact (List.getElem?_eq_some_iff.mp here).1
  obtain ⟨a, mem, serial⟩ := h.shows.drawn n low
  rw [← map_head_placed none 0 r.document, List.mem_map] at mem
  obtain ⟨e, mem, rfl⟩ := mem
  obtain ⟨m, there⟩ := List.mem_iff_getElem?.mp mem
  rw [← getElem?_elements] at there
  obtain ⟨d, fits, number⟩ := h.exists_fits there
  obtain rfl : d = (path, node) := by
    have same := fits.here
    rw [serial] at same
    exact Option.some.inj (same.symm.trans here)
  exact ⟨m, e, there, number, fits⟩

/-- What stands in an element of the page. -/
theorem contentOf_eq (h : Complete f r done drawn s) (here : r.page.elements[m]? = some e)
    (fits : f.Fits drawn (portalContent drawn done) e.head e.content d) :
    r.page.contentOf ⟨m⟩ =
      (ownContent d.1 d.2 ++ portalContent drawn done d.1).map (·.map (r.nodeOf drawn)) := by
  rw [FixturePage.contentOf, FixturePage.element?, here]
  show e.content.map r.page.contentItem = _
  refine (List.forall₂_eq_eq_eq ▸ List.forall₂_map_left_iff.mpr (List.forall₂_map_right_iff.mpr
    (fits.content.imp fun item tree stands => ?_))).symm
  cases stands with
  | text => rfl
  | element made =>
    obtain ⟨d, here, rfl⟩ := Option.map_eq_some_iff.mp made
    exact congrArg ContentItem.element (h.nodeOf_eq_placeOf here)

/-- **The nodes of the page are the elements that are declared.** -/
theorem drawsElements (h : Complete f r done drawn s) : f.DrawsElements r.page drawn (r.nodeOf drawn) where
  present path node declared isElement := by
    obtain ⟨m, e, here, number, fits⟩ := h.exists_element declared isElement
    exact ⟨e, by rw [number]; exact here, fits.renders⟩
  injective path path' node node' declared isElement declared' isElement' same := by
    obtain ⟨m, e, here, number, fits⟩ := h.exists_element declared isElement
    obtain ⟨m', e', here', number', fits'⟩ := h.exists_element declared' isElement'
    rw [number, number', NodeId.mk.injEq] at same
    rw [same, here', Option.some.injEq] at here
    have made := fits'.here
    rw [here, fits.here, Option.some.injEq] at made
    exact congrArg Prod.fst made
  onto n inside := by
    obtain ⟨d, fits, number⟩ := h.exists_fits (Array.getElem?_eq_getElem inside)
    obtain ⟨met, isElement⟩ := List.mem_filter.mp (List.mem_of_getElem? fits.here)
    exact ⟨d.1, d.2, h.laid.turn.at?_of_mem met, isElement, number⟩
  content path node declared isElement := by
    obtain ⟨m, e, here, number, fits⟩ := h.exists_element declared isElement
    rw [number, h.portals_eq]
    exact h.contentOf_eq here fits

/-! ### Instances -/

theorem graph_once (h : Complete f r done drawn s) : ((f.graph drawn).map (·.1)).Nodup :=
  h.laid.turn.nodup.sublist (List.filter_sublist.map _)

theorem mem_graph_iff (h : Complete f r done drawn s) :
    d ∈ f.graph drawn ↔ f.InApp d.1 d.2 ∧ d.2.isText = false := by
  rw [graph, List.mem_filter, h.laid.turn.mem_iff_at?, Bool.and_eq_true, List.isPrefixOf_iff_prefix,
    Bool.not_eq_true', ← and_assoc, InApp, and_comm (a := f.mountPath <+: d.1)]

theorem instanceOf_eq (h : Complete f r done drawn s) (here : (f.graph drawn)[n]? = some d) :
    instanceOf f drawn d.1 = ⟨n⟩ := by
  rw [instanceOf, idxOf_eq_of_getElem? h.graph_once here]

theorem instanceOf_of_names (h : Complete f r done drawn s) {i : InstanceId}
    (names : f.Names drawn path i) : instanceOf f drawn path = i := by
  obtain ⟨d, here, rfl⟩ := Option.map_eq_some_iff.mp names
  exact h.instanceOf_eq here

/-- Every instance is made for a node. -/
theorem exists_describes (h : Complete f r done drawn s) {x : RenderedInstance}
    (there : r.page.instances[n]? = some x) :
    ∃ d, (f.graph drawn)[n]? = some d ∧ f.Describes drawn d x := by
  have there : s.instances[n]? = some x := by
    rw [← h.instances, ← there]
    exact List.getElem?_toArray.symm
  exact exists_getElem?_of_forall₂ h.laid.records.instances.flip there

/-- Every node of the app that is no text has an instance made for it. -/
theorem exists_instance (h : Complete f r done drawn s) (inApp : f.InApp path node)
    (speaks : node.isText = false) : ∃ n x, (f.graph drawn)[n]? = some (path, node) ∧
      instanceOf f drawn path = ⟨n⟩ ∧ r.page.instances[n]? = some x ∧ f.Describes drawn (path, node) x := by
  have mem : (path, node) ∈ f.graph drawn := h.mem_graph_iff.mpr ⟨inApp, speaks⟩
  obtain ⟨n, here⟩ := List.mem_iff_getElem?.mp mem
  obtain ⟨x, there, describes⟩ := exists_getElem?_of_forall₂ h.laid.records.instances here
  refine ⟨n, x, here, h.instanceOf_eq here, ?_, describes⟩
  rw [← there, ← h.instances]
  exact List.getElem?_toArray

theorem page_sound (h : Complete f r done drawn s) : r.page.Sound :=
  h.shows.page_sound (map_head_placed none 0 r.document) (congrArg _ h.instances)

theorem parentInstance?_eq (h : Complete f r done drawn s) {x : RenderedInstance}
    (there : r.page.instances[n]? = some x) : r.page.toPage.parentInstance? ⟨n⟩ = x.parent? := by
  rw [Page.parentInstance?, h.page_sound.owners_next, RenderedInstance.parentAt, there]
  rfl

/-- The parent of an instance is that of the node around, and the one at the top has none. -/
theorem parentInstance?_cases (h : Complete f r done drawn s) {x : RenderedInstance}
    (there : r.page.instances[n]? = some x) (describes : f.Describes drawn d x) :
    (d.1 = f.mountPath ∧ x.kind = .root ∧ r.page.toPage.parentInstance? ⟨n⟩ = none) ∨
      ∃ outer k, d.1 = outer ++ [k] ∧ f.mountPath <+: outer ∧ x.Represents d.2 ∧
        r.page.toPage.parentInstance? ⟨n⟩ = some (instanceOf f drawn outer) := by
  rw [h.parentInstance?_eq there]
  cases describes with
  | top parent kind => exact .inl ⟨rfl, kind, parent⟩
  | @below outer k _ _ owner inside names parent represents =>
    exact .inr ⟨outer, k, rfl, inside, represents, by rw [parent, h.instanceOf_of_names names]⟩

theorem parentInstance?_concat (h : Complete f r done drawn s) {k : Nat} (above : f.mountPath <+: path)
    (inApp : f.InApp (path ++ [k]) node) (speaks : node.isText = false) :
    r.page.toPage.parentInstance? (instanceOf f drawn (path ++ [k])) =
      some (instanceOf f drawn path) := by
  obtain ⟨n, x, -, number, there, describes⟩ := h.exists_instance inApp speaks
  rw [number]
  rcases h.parentInstance?_cases there describes with ⟨top, -, -⟩ | ⟨outer, k, same, -, -, parent⟩
  · exact absurd top (concat_ne_mountPath above)
  · rw [parent, (List.append_inj' same rfl).1]

theorem instanceOf_inj (h : Complete f r done drawn s) {path' : List Nat} {node' : FixtureNode}
    (inApp : f.InApp path node) (speaks : node.isText = false) (inApp' : f.InApp path' node')
    (speaks' : node'.isText = false) (same : instanceOf f drawn path = instanceOf f drawn path') :
    path = path' := by
  obtain ⟨n, -, here, number, -, -⟩ := h.exists_instance inApp speaks
  obtain ⟨n', -, here', number', -, -⟩ := h.exists_instance inApp' speaks'
  rw [number, number', InstanceId.mk.injEq] at same
  rw [same, here', Option.some.injEq] at here
  exact (congrArg Prod.fst here).symm

/-! ### Siblings -/

/-- Nodes that follow each other right in a node do so among all that have instances. -/
theorem childNodes_sublist (h : Complete f r done drawn s) (inApp : f.InApp path node) :
    (childNodes path node).Sublist (f.graph drawn) := by
  have inside : ∀ d ∈ rightIn path 0 node.children, f.mountPath <+: d.1 := by
    intro d mem
    obtain ⟨j, child, -, rfl⟩ := mem_rightIn_iff.mp mem
    exact inApp.1.trans (List.prefix_append _ _)
  have same : childNodes path node =
      (rightIn path 0 node.children).filter fun d => f.mountPath.isPrefixOf d.1 && !d.2.isText :=
    List.filter_congr fun d mem => by simp [inside d mem]
  rw [same]
  exact (h.laid.turn.rightIn_sublist (h.laid.turn.mem_of_at? inApp.2)).filter _

/-- Instances follow each other as the nodes do that they are made for. -/
theorem graph_growing (h : Complete f r done drawn s) : (f.graph drawn).Pairwise fun d e =>
    (instanceOf f drawn d.1).index < (instanceOf f drawn e.1).index := by
  refine List.pairwise_iff_getElem.mpr fun m n hm hn lt => ?_
  rw [h.instanceOf_eq (List.getElem?_eq_getElem hm), h.instanceOf_eq (List.getElem?_eq_getElem hn)]
  exact lt

theorem mem_childNodes_iff {d : DeclaredNode} : d ∈ childNodes path node ↔
    ∃ k, node.children[k]? = some d.2 ∧ d.1 = path ++ [k] ∧ d.2.isText = false := by
  rw [childNodes, List.mem_filter, mem_rightIn_iff, Bool.not_eq_true']
  constructor
  · rintro ⟨⟨k, child, here, rfl⟩, speaks⟩
    exact ⟨k, here, by rw [Nat.zero_add], speaks⟩
  · rintro ⟨k, here, same, speaks⟩
    exact ⟨⟨k, d.2, here, Prod.ext (by rw [Nat.zero_add]; exact same) rfl⟩, speaks⟩

/-- The children of an instance are those of the nodes right in its node. -/
theorem parentInstance?_iff (h : Complete f r done drawn s) (inApp : f.InApp path node)
    (speaks : node.isText = false) (i : InstanceId) :
    r.page.toPage.parentInstance? i = some (instanceOf f drawn path) ↔
      i ∈ (childNodes path node).map fun d => instanceOf f drawn d.1 := by
  rw [List.mem_map]
  constructor
  · intro parent
    have inside : i.index < r.page.instances.size := by
      rw [Page.parentInstance?, h.page_sound.owners_next] at parent
      exact RenderedInstance.lt_size_of_parentAt parent
    obtain ⟨d, here, describes⟩ := h.exists_describes (Array.getElem?_eq_getElem inside)
    obtain ⟨declared, child_speaks⟩ := h.mem_graph_iff.mp (List.mem_of_getElem? here)
    rcases h.parentInstance?_cases (Array.getElem?_eq_getElem inside) describes with
      ⟨-, -, none⟩ | ⟨outer, k, same, above, -, some⟩
    · cases none.symm.trans parent
    · have at_outer := declared.2
      rw [same, at?_concat] at at_outer
      obtain ⟨around, there, child⟩ := Option.bind_eq_some_iff.mp at_outer
      have around_speaks : around.isText = false := by
        cases around <;> first | rfl | cases child
      obtain rfl : outer = path := h.instanceOf_inj ⟨above, there⟩ around_speaks inApp speaks
        (Option.some.inj (some.symm.trans parent))
      obtain rfl : around = node := Option.some.inj (there.symm.trans inApp.2)
      exact ⟨d, mem_childNodes_iff.mpr ⟨k, child, same, child_speaks⟩, h.instanceOf_eq here⟩
  · rintro ⟨d, mem, rfl⟩
    obtain ⟨k, child, same, child_speaks⟩ := mem_childNodes_iff.mp mem
    rw [same]
    refine h.parentInstance?_concat inApp.1 ⟨inApp.1.trans (List.prefix_append _ _), ?_⟩ child_speaks
    rw [at?_concat, inApp.2]
    exact child

/-- **The instances of the page are the nodes of the app, in the same tree.** -/
theorem makesInstances (h : Complete f r done drawn s) : f.MakesInstances r.page (instanceOf f drawn) where
  top := by
    have mount : f.InApp f.mountPath f.mount := ⟨List.prefix_refl _, f.at?_mountPath⟩
    obtain ⟨n, x, -, number, there, describes⟩ := h.exists_instance mount rfl
    rw [number]
    rcases h.parentInstance?_cases there describes with ⟨-, kind, none⟩ | ⟨outer, k, same, above, -⟩
    · refine ⟨?_, none⟩
      show ((r.page.instances[n]?).map (·.kind)).getD .fragment = .root
      rw [there]
      exact kind
    · exact absurd same.symm (concat_ne_mountPath above)
  present path node inApp speaks below := by
    obtain ⟨n, x, -, number, there, describes⟩ := h.exists_instance inApp speaks
    rcases h.parentInstance?_cases there describes with ⟨top, -⟩ | ⟨_, _, -, -, represents, -⟩
    · exact absurd top below
    · exact ⟨x, by rw [number]; exact there, represents⟩
  injective path path' node node' inApp speaks inApp' speaks' same :=
    h.instanceOf_inj inApp speaks inApp' speaks' same
  onto i inside := by
    obtain ⟨d, here, -⟩ := h.exists_describes (Array.getElem?_eq_getElem inside)
    obtain ⟨inApp, speaks⟩ := h.mem_graph_iff.mp (List.mem_of_getElem? here)
    exact ⟨d.1, d.2, inApp, speaks, h.instanceOf_eq here⟩
  parent path k node outer around inApp speaks := h.parentInstance?_concat around.1 inApp speaks
  siblings path node inApp speaks := by
    have growing : ((childNodes path node).map fun d => instanceOf f drawn d.1).Pairwise
        fun i j => i.index < j.index :=
      List.pairwise_map.mpr (h.graph_growing.sublist (h.childNodes_sublist inApp))
    have children := h.parentInstance?_iff inApp speaks
    exact ⟨growing.imp fun lt => ne_of_apply_ne _ (Nat.ne_of_lt lt), children, fun first rest split =>
      h.page_sound.siblings_after children growing rest [] first split⟩

end Complete

end Rendering

/-- **Every rendered page corresponds to what its fixture declares.** Nothing is lost or made twice, and the
trees of nodes and of instances part only at portals. -/
theorem Fixture.render_corresponds {f : Fixture} {r : Rendering} (h : f.render = .ok r) :
    ∃ (drawn : List DeclaredNode) (nodeOf : List Nat → NodeId) (instanceOf : List Nat → InstanceId),
      f.DrawingOrder drawn ∧ f.DrawsElements r.page drawn nodeOf ∧ f.MakesInstances r.page instanceOf := by
  obtain ⟨done, drawn, s, complete⟩ := Rendering.exists_complete h
  have turn := complete.laid.turn
  exact ⟨drawn, r.nodeOf drawn, Rendering.instanceOf f drawn,
    ⟨turn.metInOrder, fun _ => turn.mem_iff_at?, turn.nodup⟩, complete.drawsElements,
    complete.makesInstances⟩

/-- A tray with a slot of its own and two portals to it. In the first one an emphasis puts a rule at the end
of the body. -/
def trays : Fixture := ⟨[], [.component "Tray" .function none .null [
  .element "nav" [("id", "slot")] (some "a") none [.text "b"],
  .portal "slot" [.element "em" [] none none [.portal "body" [.element "hr" [] none none []]], .text "c"],
  .portal "slot" [.element "sup" [] none none []]]]⟩

/-- The slot holds its text and its child, then the emphasis and the text behind it, and then the rest; the
rule stands behind the mount. -/
theorem Fixture.render_corresponds_trays : ∃ r, trays.render = .ok r ∧
    r.page.contentOf ⟨4⟩ = [.text "a", .text "b", .element ⟨5⟩, .text "c", .element ⟨6⟩] ∧
    r.page.contentOf ⟨2⟩ = [.element ⟨3⟩, .element ⟨7⟩] ∧
    ∃ (drawn : List DeclaredNode) (nodeOf : List Nat → NodeId) (instanceOf : List Nat → InstanceId),
      trays.DrawingOrder drawn ∧ trays.DrawsElements r.page drawn nodeOf ∧
        trays.MakesInstances r.page instanceOf := by
  obtain ⟨r, rendered⟩ : ∃ r, trays.render = .ok r := exists_ok_of_toBool (by decide +kernel)
  have known : (trays.render.toOption.map fun r => (r.page.contentOf ⟨4⟩, r.page.contentOf ⟨2⟩)) =
      some ([.text "a", .text "b", .element ⟨5⟩, .text "c", .element ⟨6⟩],
        [.element ⟨3⟩, .element ⟨7⟩]) := by decide +kernel
  rw [rendered] at known
  simp only [Except.toOption, Option.map_some, Option.some.injEq, Prod.mk.injEq] at known
  exact ⟨r, rendered, known.1, known.2, render_corresponds rendered⟩

end PageQuery
