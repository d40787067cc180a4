/-
# What a component owns is what it reaches

A component owns the nodes of the elements that are declared in it and are reached from it without
going through another element, be it through components, fragments or portals. Along the instances this
is a walk upward that ends at the next host; a portal, which takes nodes elsewhere in the document,
stands in the graph where it is declared.

Identities do not blur this: the instances of a page have identities of their own.

Key definitions: `Fixture.Passes`, `Fixture.Reaches`, `Fixture.HostsElements`.
Key theorems: `Rendering.Complete.mem_owners_iff`, `Rendering.Complete.mem_elements_iff`,
`Fixture.elementsOf_reaches`.
-/
import PageQuery.Proofs.Fixture.Declarations
import PageQuery.Proofs.Fixture.Projection

namespace PageQuery

open FixtureNode RenderedInstance

namespace Fixture

variable (f : Fixture)

/-- A node stands strictly below another one, and no element stands between. -/
structure Passes (c y : List Nat) : Prop where
  below : c <+: y
  strict : c ≠ y
  free : ∀ p node, c <+: p → p <+: y → p ≠ c → p ≠ y → f.document.at? p = some node →
    node.isElement = false

/-- An element below a node that is reached from it without passing through another element. -/
def Reaches (c y : List Nat) : Prop :=
  f.Passes c y ∧ ∃ node, f.document.at? y = some node ∧ node.isElement = true

/-- The elements of the app have the instances made for them for their hosts. -/
def HostsElements (p : FixturePage) (nodeOf : List Nat → NodeId) (instanceOf : List Nat → InstanceId) :
    Prop :=
  ∀ path node, f.InApp path node → node.isElement = true → path ≠ f.mountPath →
    p.toPage.host? (nodeOf path) = some (instanceOf path)

section passing

variable {f} {c q : List Nat} {k : Nat} {around : FixtureNode}

theorem above_of_concat {p : List Nat} (low : p <+: q ++ [k]) (differ : p ≠ q ++ [k]) : p <+: q :=
  (List.prefix_concat_iff.mp low).resolve_left differ

theorem ne_concat_of_above {p : List Nat} (low : p <+: q) : p ≠ q ++ [k] := by
  intro same
  have shorter := low.length_le
  rw [same, List.length_append, List.length_singleton] at shorter
  omega

/-- No way passes through an element. -/
theorem Passes.eq_of_element (h : f.Passes c (q ++ [k])) (there : f.document.at? q = some around)
    (isElement : around.isElement = true) : c = q := by
  by_contra differ
  have plain := h.free q around (above_of_concat h.below h.strict) (List.prefix_append _ _)
    (Ne.symm differ) (ne_concat_of_above (List.prefix_refl _)) there
  rw [isElement] at plain
  cases plain

/-- A way to a node right in another one that is no element starts there or passes through it. -/
theorem passes_concat_iff (there : f.document.at? q = some around) (plain : around.isElement = false) :
    f.Passes c (q ++ [k]) ↔ c = q ∨ f.Passes c q := by
  constructor
  · intro h
    refine or_iff_not_imp_left.mpr fun differ => ⟨above_of_concat h.below h.strict, differ, ?_⟩
    exact fun p node high low first _ here =>
      h.free p node high (low.trans (List.prefix_append _ _)) first (ne_concat_of_above low) here
  · rintro (rfl | h)
    · refine ⟨List.prefix_append _ _, ne_concat_of_above (List.prefix_refl _),
        fun p node high low first last here => ?_⟩
      exact absurd (high.eq_of_length_le (above_of_concat low last).length_le).symm first
    · refine ⟨h.below.trans (List.prefix_append _ _), ne_concat_of_above h.below,
        fun p node high low first last here => ?_⟩
      by_cases onto : p = q
      · subst onto
        obtain rfl : around = node := Option.some.inj (there.symm.trans here)
        exact plain
      · exact h.free p node high (above_of_concat low last) first onto here

end passing

end Fixture

open Fixture

namespace Rendering.Complete

variable {f : Fixture} {r : Rendering} {done drawn : List DeclaredNode} {s : RenderState}
  {path c y : List Nat} {node : FixtureNode} {n : Nat} {i : InstanceId}

/-! ### Hosts -/

theorem speaks_of_isElement (isElement : node.isElement = true) : node.isText = false := by
  cases node <;> first | rfl | cases isElement

theorem hostsElements (h : Complete f r done drawn s) :
    f.HostsElements r.page (r.nodeOf drawn) (instanceOf f drawn) := by
  intro path node inApp isElement below
  obtain ⟨m, e, here, number, fits⟩ := h.exists_element inApp.2 isElement
  obtain ⟨i, host⟩ := Option.isSome_iff_exists.mp (fits.hosted inApp.1 below)
  show (r.page.elements[(r.nodeOf drawn path).index]?).bind (·.head.host?) = _
  rw [number, here, h.instanceOf_of_names (fits.host i host)]
  exact host

/-- A node with a host is an element of the app, and the host is made for it. -/
theorem exists_of_host? (h : Complete f r done drawn s) {m : NodeId} (host : r.page.toPage.host? m = some i) :
    ∃ path node, f.InApp path node ∧ node.isElement = true ∧ r.nodeOf drawn path = m ∧
      instanceOf f drawn path = i := by
  obtain ⟨e, here, host⟩ := Option.bind_eq_some_iff.mp host
  obtain ⟨d, fits, number⟩ := h.exists_fits here
  have names := fits.host i host
  obtain ⟨met, isElement⟩ := List.mem_filter.mp (List.mem_of_getElem? fits.here)
  obtain ⟨g, made, same⟩ := Option.map_eq_some_iff.mp names
  have inside := (h.mem_graph_iff.mp (List.mem_of_getElem? made)).1.1
  exact ⟨d.1, d.2, ⟨same ▸ inside, h.laid.turn.at?_of_mem met⟩, isElement, number,
    h.instanceOf_of_names names⟩

/-- Elements are the nodes of the app whose instances are hosts, but for the mount. -/
theorem isHost_iff (h : Complete f r done drawn s) (inApp : f.InApp path node)
    (speaks : node.isText = false) : r.page.toPage.kind (instanceOf f drawn path) = .host ↔
      node.isElement = true ∧ path ≠ f.mountPath := by
  obtain ⟨n, x, -, number, there, describes⟩ := h.exists_instance inApp speaks
  have kind : r.page.toPage.kind (instanceOf f drawn path) = x.kind := by
    rw [number]
    show ((r.page.instances[n]?).map (·.kind)).getD .fragment = _
    rw [there]
    rfl
  rw [kind]
  rcases h.parentInstance?_cases there describes with ⟨top, root, -⟩ | ⟨outer, k, same, above, represents, -⟩
  · simp [root, show path = f.mountPath from top]
  · have below : path ≠ f.mountPath := (show path = outer ++ [k] from same) ▸ concat_ne_mountPath above
    cases node with
    | text _ => cases speaks
    | component _ kind _ _ _ =>
      rw [represents.1]
      cases kind <;> simp [ComponentKind.toInstanceKind, isElement]
    | portal _ _ => simp [represents.1, isElement]
    | element _ _ _ _ _ => simp [represents.1, isElement, below]

/-! ### Owners -/

/-- **What owns a node of the app.** By induction along the path of the node: a step upward ends the walk at
an element and otherwise goes on. -/
theorem mem_owners_iff (h : Complete f r done drawn s) {outer : FixtureNode} (component : f.InApp c outer)
    (speaks : outer.isText = false) (plain : outer.isElement = false) {inner : FixtureNode}
    (inApp : f.InApp y inner) (inner_speaks : inner.isText = false) :
    instanceOf f drawn c ∈ (r.page.toPage.owners.after (instanceOf f drawn y)).takeWhile
      (fun i => !(r.page.toPage.kind i).isHost) ↔ f.Passes c y := by
  have differs : ∀ {q : List Nat} {node : FixtureNode}, f.document.at? q = some node →
      node.isElement = true → c ≠ q := by
    rintro q node here isElement rfl
    obtain rfl : outer = node := Option.some.inj (component.2.symm.trans here)
    exact Bool.false_ne_true (plain.symm.trans isElement)
  have top_differs := differs f.at?_mountPath rfl
  have no_owners := Links.after_of_next_none _ h.makesInstances.top.2
  induction y using List.reverseRecOn generalizing inner with
  | nil => exact absurd inApp.1.length_le (by simp [mountPath, bodyPath])
  | append_singleton q k ih =>
    by_cases top : f.mountPath = q ++ [k]
    · rw [← top, no_owners]
      refine ⟨nofun, fun way => absurd ?_ top_differs⟩
      exact way.below.eq_of_length_le component.1.length_le
    · have above : f.mountPath <+: q := (List.prefix_concat_iff.mp inApp.1).resolve_left top
      obtain ⟨around, there, child⟩ := Option.bind_eq_some_iff.mp ((at?_concat _ _ _).symm.trans inApp.2)
      have around_speaks : around.isText = false := by
        cases around <;> first | rfl | cases child
      have same : instanceOf f drawn c = instanceOf f drawn q ↔ c = q :=
        ⟨h.instanceOf_inj component speaks ⟨above, there⟩ around_speaks, fun same => by rw [same]⟩
      have kind := h.isHost_iff ⟨above, there⟩ around_speaks
      rw [Links.after_of_next _ (h.parentInstance?_concat above inApp inner_speaks), List.takeWhile_cons]
      cases isElement : around.isElement with
      | true =>
        -- a host, or the mount, above which there is nothing
        have away := differs there isElement
        refine ⟨fun mem => ?_, fun way => absurd (way.eq_of_element there isElement) away⟩
        split at mem
        · next passed =>
          have mount : q = f.mountPath := by
            by_contra below
            exact Page.not_isHost_iff.mp passed (kind.mpr ⟨isElement, below⟩)
          rw [mount, no_owners] at mem
          rcases List.mem_cons.mp mem with root | none
          · exact absurd (same.mp (mount ▸ root)) away
          · cases none
        · cases mem
      | false =>
        have passed : (!(r.page.toPage.kind (instanceOf f drawn q)).isHost) = true :=
          Page.not_isHost_iff.mpr fun host =>
            Bool.false_ne_true (isElement.symm.trans (kind.mp host).1)
        rw [if_pos passed, List.mem_cons, passes_concat_iff there isElement]
        exact or_congr same (ih ⟨above, there⟩ around_speaks)

/-! ### Elements of components -/

/-- What shares its identity with an instance of the page and owns a node is that instance. -/
theorem eq_of_sameIdentity (h : Complete f r done drawn s) {m : NodeId} {owner : InstanceId}
    (owns : owner ∈ r.page.toPage.ownerChain m) (present : i.index < r.page.instances.size)
    (same : r.page.toPage.SameIdentity owner i) : owner = i := by
  have above : owner ∈ r.page.toPage.hostChain m := by
    unfold Page.ownerChain at owns
    unfold Page.hostChain
    cases rendered : r.page.toPage.host? m with
    | none =>
      rw [rendered] at owns
      cases owns
    | some host =>
      rw [rendered] at owns
      exact List.mem_cons_of_mem _ ((List.takeWhile_sublist _).subset owns)
  exact congrArg InstanceId.mk
    (h.page_sound.identityKey_inj (h.page_sound.present_of_hostChain owner above) present same)

/-- **A component owns the nodes that it reaches.** -/
theorem mem_elements_iff (h : Complete f r done drawn s) {outer : FixtureNode} (component : f.InApp c outer)
    (speaks : outer.isText = false) (plain : outer.isElement = false) {m : NodeId} :
    m ∈ r.page.toPage.elements (instanceOf f drawn c) ↔ ∃ y, f.Reaches c y ∧ r.nodeOf drawn y = m := by
  rw [Page.elements, List.mem_filter, List.any_eq_true]
  constructor
  · rintro ⟨-, owner, owns, same⟩
    obtain ⟨n, x, -, number, there, -⟩ := h.exists_instance component speaks
    have present : (instanceOf f drawn c).index < r.page.instances.size := by
      rw [number]
      exact (Array.getElem?_eq_some_iff.mp there).1
    obtain rfl := h.eq_of_sameIdentity owns present (of_decide_eq_true same)
    cases rendered : r.page.toPage.host? m with
    | none =>
      rw [Page.ownerChain, rendered] at owns
      cases owns
    | some host =>
      obtain ⟨y, node, inApp, isElement, number, rfl⟩ := h.exists_of_host? rendered
      rw [Page.ownerChain_eq rendered] at owns
      have way := (h.mem_owners_iff component speaks plain inApp (speaks_of_isElement isElement)).mp owns
      exact ⟨y, ⟨way, node, inApp.2, isElement⟩, number⟩
  · rintro ⟨y, ⟨way, node, here, isElement⟩, rfl⟩
    have inApp : f.InApp y node := ⟨component.1.trans way.below, here⟩
    have below : y ≠ f.mountPath := by
      rintro rfl
      exact way.strict (way.below.eq_of_length_le component.1.length_le)
    have rendered := h.hostsElements y node inApp isElement below
    obtain ⟨m, e, there, number, -⟩ := h.exists_element here isElement
    refine ⟨?_, instanceOf f drawn c, ?_, decide_eq_true rfl⟩
    · rw [number]
      exact List.mem_map_of_mem (List.mem_range.mpr (Array.getElem?_eq_some_iff.mp there).1)
    · rw [Page.ownerChain_eq rendered]
      exact (h.mem_owners_iff component speaks plain inApp (speaks_of_isElement isElement)).mpr way

end Rendering.Complete

/-- The elements of an instance ascend in document order. -/
theorem FixturePage.elements_ascending (p : FixturePage) (i : InstanceId) :
    (p.toPage.elements i).Pairwise fun m n => m.index < n.index := by
  have nodes : p.toPage.nodes.Pairwise fun m n => m.index < n.index :=
    List.pairwise_map.mpr List.pairwise_lt_range
  exact nodes.sublist List.filter_sublist

/-- **The elements of a component are the nodes that it reaches.** In ascending order, each once, and whatever
has been asked of the page before. -/
theorem Fixture.elementsOf_reaches {f : Fixture} {r : Rendering} (h : f.render = .ok r) :
    ∃ (drawn : List DeclaredNode) (nodeOf : List Nat → NodeId) (instanceOf : List Nat → InstanceId),
      f.DrawingOrder drawn ∧ f.DrawsElements r.page drawn nodeOf ∧ f.MakesInstances r.page instanceOf ∧
      f.HostsElements r.page nodeOf instanceOf ∧
      ∀ c name kind displayName? props children,
        f.InApp c (.component name kind displayName? props children) → ∀ ids : Identities,
        let found := (r.page.toPage.elementsOf (instanceOf c) ids).1
        found.Pairwise (fun m n => m.index < n.index) ∧
          ∀ n, n ∈ found ↔ ∃ y, f.Reaches c y ∧ nodeOf y = n := by
  obtain ⟨done, drawn, s, complete⟩ := Rendering.exists_complete h
  have turn := complete.laid.turn
  refine ⟨drawn, r.nodeOf drawn, Rendering.instanceOf f drawn,
    ⟨turn.metInOrder, fun _ => turn.mem_iff_at?, turn.nodup⟩, complete.drawsElements,
    complete.makesInstances, complete.hostsElements, ?_⟩
  intro c name kind displayName? props children component ids
  have answer : (r.page.toPage.elementsOf (Rendering.instanceOf f drawn c) ids).1 =
      r.page.toPage.elements (Rendering.instanceOf f drawn c) :=
    (r.page.toPage.elementsOf_answers _ ids (.refl ids)).2
  rw [answer]
  exact ⟨r.page.elements_ascending _, fun n => complete.mem_elements_iff component rfl rfl⟩

/-- The tray owns its slot and what both portals put there, but not the rule, which the emphasis is
around. -/
theorem Fixture.elementsOf_reaches_trays : ∃ r, trays.render = .ok r ∧
    (r.page.toPage.elementsOf ⟨1⟩ .empty).1 = [⟨4⟩, ⟨5⟩, ⟨6⟩] ∧
    ∃ (drawn : List DeclaredNode) (nodeOf : List Nat → NodeId) (instanceOf : List Nat → InstanceId),
      trays.DrawingOrder drawn ∧ trays.DrawsElements r.page drawn nodeOf ∧ trays.MakesInstances r.page instanceOf ∧
      trays.HostsElements r.page nodeOf instanceOf ∧
      ∀ n, n ∈ (r.page.toPage.elementsOf (instanceOf [1, 0, 0]) .empty).1 ↔
        ∃ y, trays.Reaches [1, 0, 0] y ∧ nodeOf y = n := by
  obtain ⟨r, rendered⟩ : ∃ r, trays.render = .ok r := exists_ok_of_toBool (by decide +kernel)
  have known : (trays.render.toOption.map fun r => (r.page.toPage.elementsOf ⟨1⟩ .empty).1) =
      some [⟨4⟩, ⟨5⟩, ⟨6⟩] := by decide +kernel
  rw [rendered] at known
  obtain ⟨drawn, nodeOf, instanceOf, order, nodes, instances, hosts, owns⟩ := elementsOf_reaches rendered
  have tray : trays.InApp [1, 0, 0] (.component "Tray" .function none .null _) := ⟨⟨[0], rfl⟩, rfl⟩
  exact ⟨r, rendered, Option.some.inj known, drawn, nodeOf, instanceOf, order, nodes, instances, hosts,
    (owns [1, 0, 0] _ _ _ _ _ tray .empty).2⟩

end PageQuery
