/-
# Components that are found own nodes

On a page whose hosts render nodes, whatever a component segment leads to owns a node. This carries over
to the leaves of what a query gives: each is null, one node, or one component that owns a node, and only a
query that ends in a component segment gives components. So there is always something to interact with in
a component that was found, be it a control or an element, and a highlight on the query marks each
component once.

An interaction may still fail, where the document cannot be searched for a control.

Key definitions: `ResultSet.instances`, `Query.endsInComponent`, `Page.IsLeaf`, `Page.Interacts`.
Key theorems: `Engine.runSegment_component`, `Engine.runQuery_leaves`, `Engine.outcome_perform_leaves`,
`Engine.fetchWithin_interacts`, `Engine.forall₂_boxes`, `Engine.fetchWithin_found_components`.
-/
import PageQuery.Proofs.Engine.Highlights
import PageQuery.Proofs.Engine.InteractionTarget
import PageQuery.Proofs.Fixture.HostNesting

namespace PageQuery

open Run

namespace ResultSet

/-- The components of a leaf. -/
def leafInstances : ResultSet → List InstanceId
  | .components is => is
  | _ => []

/-- The components found, from left to right. -/
def instances (r : ResultSet) : List InstanceId := r.leaves.flatMap leafInstances

end ResultSet

/-- Whether the selector can be read and its last segment is a component. -/
def Query.endsInComponent (query : Query) : Bool :=
  match Selector.parse query.selector with
  | .ok selector => selector.endsInComponent
  | .error _ => false

namespace Page

/-- What may stand at a leaf of a result: nothing, and else one node or, behind a component segment, one
component that owns a node. -/
inductive IsLeaf (page : Page) : Bool → ResultSet → Prop
  | null {components : Bool} : IsLeaf page components .null
  | node (n : NodeId) : IsLeaf page false (.nodes [n])
  | component {i : InstanceId} : page.elements i ≠ [] → IsLeaf page true (.components [i])

/-- Components stand alone at a leaf. -/
theorem IsLeaf.single {page : Page} {ends : Bool} {is : List InstanceId}
    (leaf : page.IsLeaf ends (.components is)) : ∃ i, is = [i] ∧ page.elements i ≠ [] := by
  cases leaf with
  | component owns => exact ⟨_, rfl, owns⟩

/-- What a call to interact with a component comes to: the handle of a node in an element of it, unless
the search for a control fails. -/
inductive Interacts (page : Page) (controls : List String) (i : InstanceId) : Except Halt Outcome → Prop
  | node {n e : NodeId} : e ∈ page.elements i → page.isWithin n e = true →
      Interacts page controls i (.ok (.value (ResultSet.node n).toJson))
  | failure {control : String} {scope : NodeId} {e : SearchError} : control ∈ controls →
      page.search scope control = .error e → Interacts page controls i (.error (.error (.search e)))

end Page

namespace Engine

variable {setting : Setting} {functions : Functions} {query : Query} {selector : Selector}

/-! ### What segments lead to -/

theorem ofSearch_yields {α : Type} {s : Search α} {r : Except QueryError α} (h : Finds .empty s r) :
    Yields (Run.ofSearch s) fun a => r = .ok a := by
  intro p a e
  obtain ⟨identities, searched⟩ := ofSearch_apply h p
  rw [searched] at e
  exact mapError_ok_iff.mp e

theorem runSegment_structural (text : String) : ∀ reached : Reached,
    Yields (runSegment setting (.structural text) reached) fun next => ∃ ns, next = .nodes ns
  | .root => Yields.of_rest fun ns => Yields.pure ⟨ns, rfl⟩
  | .nodes _ => Yields.of_rest fun ns => Yields.pure ⟨ns, rfl⟩
  | .components _ => Yields.of_rest fun ns => Yields.pure ⟨ns, rfl⟩

/-- **Whatever a component segment leads to owns a node.** -/
theorem runSegment_component (renders : setting.page.HostsRender) (cq : ComponentQuery) :
    ∀ reached : Reached, Yields (runSegment setting (.component cq) reached) fun next =>
      ∃ is, next = .components is ∧ ∀ i ∈ is, setting.page.elements i ≠ [] := by
  have owns : ∀ i, i ∈ setting.page.outline → setting.page.isMatch setting.matcher cq i = true →
      setting.page.elements i ≠ [] := fun i known matched =>
    renders.elements_ne_nil known (Page.kind_of_isMatch matched)
  have descend : ∀ scope, Yields (Run.ofSearch (setting.page.findDescendants setting.matcher scope cq))
      fun is => ∀ i ∈ is, setting.page.elements i ≠ [] := by
    intro scope
    refine (ofSearch_yields (Page.findDescendants_finds scope)).mono fun is found i mem => ?_
    obtain ⟨known, matched, -⟩ := (Page.mem_of_descendants found).mp mem
    exact owns i known matched
  intro reached
  cases reached with
  | root => exact (descend .everywhere).bind fun is all => Yields.pure ⟨is, rfl, all⟩
  | nodes ns =>
    refine (ofSearch_yields (Page.findBelowNodes_finds ns)).bind fun is found =>
      Yields.pure ⟨is, rfl, fun i mem => ?_⟩
    obtain ⟨known, matched, -⟩ := (Page.mem_of_belowNodes found).mp mem
    exact owns i known matched
  | components cs => exact (descend (.below cs)).bind fun is all => Yields.pure ⟨is, rfl, all⟩

/-- What the last segment leads to from anywhere, all of them lead to. -/
theorem runSegments_yields {P : Reached → Prop} {last : Segment}
    (h : ∀ reached, Yields (runSegment setting last reached) P) : ∀ {segments : List Segment},
      segments.getLast? = some last → ∀ start, Yields (runSegments setting segments start) P
  | [segment], ends, start => by
    obtain rfl : segment = last := Option.some.inj ends
    exact (h start).bind fun _ => Yields.pure
  | _ :: second :: rest, ends, start => by
    have ends : (second :: rest).getLast? = some last := by rwa [List.getLast?_cons_cons] at ends
    exact Yields.of_rest fun next => runSegments_yields h ends next

/-- From anywhere, the segments of a selector lead to what may stand at leaves. -/
theorem runSegments_leaves (renders : setting.page.HostsRender) (some : selector.segments ≠ [])
    (start : Reached) : Yields (runSegments setting selector.segments start) fun reached =>
      ∀ r ∈ itemsOf setting.page.root reached, setting.page.IsLeaf selector.endsInComponent r := by
  have ends := List.getLast?_eq_some_getLast some
  generalize selector.segments.getLast some = last at ends
  unfold Selector.endsInComponent
  rw [ends]
  cases last with
  | structural text =>
    refine (runSegments_yields (runSegment_structural text) ends start).mono ?_
    rintro _ ⟨ns, rfl⟩ r mem
    obtain ⟨n, -, rfl⟩ := List.mem_map.mp mem
    exact .node n
  | component cq =>
    refine (runSegments_yields (runSegment_component renders cq) ends start).mono ?_
    rintro _ ⟨is, rfl, owns⟩ r mem
    obtain ⟨i, found, rfl⟩ := List.mem_map.mp mem
    exact .component (owns i found)

/-! ### What queries give -/

section leaves

variable {P : ResultSet → Prop}

/-- The leaves of what a query makes of items are items or null. -/
theorem shape_leaves (null : P .null) {reached : Reached}
    (items : ∀ r ∈ itemsOf setting.page.root reached, P r) :
    ∀ leaf ∈ (shape query (itemsOf setting.page.root reached)).leaves, P leaf := by
  have whole := leaves_itemsOf setting.page.root reached
  rcases shape_cases query (itemsOf setting.page.root reached) with ⟨-, e⟩ | ⟨-, e | one⟩
  · rwa [e, whole]
  · rw [e]
    exact fun leaf mem => List.mem_singleton.mp mem ▸ null
  · intro leaf mem
    refine items leaf (whole ▸ ?_)
    rw [ResultSet.leaves, leavesOfAll_eq]
    exact List.mem_flatMap.mpr ⟨_, one, mem⟩

mutual

/-- **What holds of null and of all that the segments lead to holds of every leaf.** -/
theorem runQuery_leaves (null : P .null)
    (items : ∀ start, Yields (runSegments setting selector.segments start) fun reached =>
      ∀ r ∈ itemsOf setting.page.root reached, P r) :
    ∀ anchor : Anchor, Yields (runQuery setting query selector anchor) fun r => ∀ leaf ∈ r.leaves, P leaf
  | .null => Yields.pure (List.forall_mem_singleton.mpr null)
  | .root => (items _).bind fun _ found => Yields.pure (shape_leaves null found)
  | .nodes _ => (items _).bind fun _ found => Yields.pure (shape_leaves null found)
  | .components _ => (items _).bind fun _ found => Yields.pure (shape_leaves null found)
  | .array anchors => (runQueryEach_leaves null items anchors).bind fun _ found => Yields.pure found

theorem runQueryEach_leaves (null : P .null)
    (items : ∀ start, Yields (runSegments setting selector.segments start) fun reached =>
      ∀ r ∈ itemsOf setting.page.root reached, P r) :
    ∀ anchors : List Anchor, Yields (runQueryEach setting query selector anchors) fun rs =>
      ∀ leaf ∈ ResultSet.leavesOfAll rs, P leaf
  | [] => Yields.pure nofun
  | a :: rest => (runQuery_leaves null items a).bind fun _ first =>
    (runQueryEach_leaves null items rest).bind fun _ others =>
      Yields.pure (List.forall_mem_append.mpr ⟨first, others⟩)

end

end leaves

/-- **Components in what a query comes to own nodes**, and there are none unless the query ends in a
component segment, where there is nothing else but null. -/
theorem outcome_perform_leaves (renders : setting.page.HostsRender) {allowComponents : Bool}
    {anchor : Anchor} {r : ResultSet} (h : outcome (perform setting functions allowComponents (.query query)
      anchor) = .ok (.results r)) : ∀ leaf ∈ r.leaves, setting.page.IsLeaf query.endsInComponent leaf := by
  rw [outcome_perform_execute] at h
  obtain ⟨r', e, same⟩ := map_ok_iff.mp h
  obtain rfl := Outcome.results.inj same
  by_cases null : anchor = .null
  · subst null
    cases e
    exact List.forall_mem_singleton.mpr .null
  · rw [outcome_executeQuery allowComponents query null] at e
    obtain ⟨selector, parsed, e⟩ := bind_ok_iff.mp e
    have parsed := mapError_ok_iff.mp parsed
    have segments := runSegments_leaves renders (Selector.segments_ne_nil parsed)
    unfold runParsed at e
    unfold Query.endsInComponent
    rw [parsed]
    split at e
    · cases e
    · exact runQuery_leaves .null segments anchor fresh _ e

theorem outcome_resolve_leaves (renders : setting.page.HostsRender) (settled : functions.Settled)
    {limit : Nat} {context : Context} {r : ResultSet}
    (h : outcome (resolve setting functions limit ⟨context, .query query⟩) = .ok (.results r)) :
    ∀ leaf ∈ r.leaves, setting.page.IsLeaf query.endsInComponent leaf := by
  rw [outcome_resolve settled] at h
  obtain ⟨anchor, -, h⟩ := bind_ok_iff.mp h
  exact outcome_perform_leaves renders h

/-! ### Interaction with a component -/

theorem interacts_of_elements {i : InstanceId} (owns : setting.page.elements i ≠ [])
    (named : functions.find? "interactionElement" = some Functions.interactionElement)
    (allowComponents : Bool) (args : List Json) :
    setting.page.Interacts setting.config.interactionControls i
      (outcome (perform setting functions allowComponents (.call ⟨"interactionElement", args⟩)
        (.components [i]))) := by
  rw [outcome, perform_interactionElement setting named, interactionIn]
  rcases Page.targetIn?_cases owns setting.config.interactionControls with
    ⟨n, found, e, mem, within⟩ | ⟨control, mem, scope, x, fails, found⟩
  · rw [found]
    exact .node mem within
  · rw [found]
    exact .failure mem fails

/-- The same comes of a call on the handle of a component and of one chained onto a query for it. -/
theorem fetchWithin_interacts {engine : Engine} (reached : engine.Reachable) {i : InstanceId}
    (owns : engine.page.elements i ≠ [])
    (named : engine.functions.find? "interactionElement" = some Functions.interactionElement)
    (limit now : Nat) (args : List Json) :
    let interact := fun c : Context =>
      (engine.fetchWithin limit now ⟨c, .call ⟨"interactionElement", args⟩⟩).1
    let answers := engine.page.Interacts engine.config.interactionControls i
    answers (interact (.components [i])) ∧ (engine.config.allowComponentResults = true →
      ∀ f : Fetcher, (engine.fetchWithin limit now f).1 = .ok (.results (.component i)) →
        answers (interact f.toContext)) := by
  intro interact answers
  have settled := reached.sound.2
  have interacts := @interacts_of_elements (engine.settingAt now) engine.functions i owns named
  refine ⟨?_, fun allows f found => ?_⟩
  · have there := @outcome_resolve_toContext (engine.settingAt now) engine.functions settled limit
      (.component i) (.call ⟨"interactionElement", args⟩)
    have comes : interact (.components [i]) = _ := (fetchWithin_fst reached limit now _).trans there
    rw [comes]
    exact interacts _ args
  · have chained := @outcome_resolve_chained (engine.settingAt now) engine.functions settled allows limit f
      (.call ⟨"interactionElement", args⟩)
    rw [← fetchWithin_fst reached, ← fetchWithin_fst reached, found] at chained
    have comes : interact f.toContext = outcome (perform (engine.settingAt now) engine.functions true
      (.call ⟨"interactionElement", args⟩) (.components [i])) := chained
    rw [comes]
    exact interacts true args

/-! ### Highlights on components -/

/-- There is a box around a component that owns a node. -/
theorem exists_box {page : Page} {i : InstanceId} (owns : page.elements i ≠ []) :
    ∃ box, page.boxOf? (.components [i]) = some box := by
  have nonempty : NodeId.ascending ([i].flatMap page.elements) ≠ [] := by
    obtain ⟨n, mem⟩ := List.exists_mem_of_ne_nil _ owns
    have mem : n ∈ [i].flatMap page.elements := List.mem_flatMap.mpr ⟨i, List.mem_singleton_self i, mem⟩
    exact List.ne_nil_of_mem (NodeId.mem_ascending.mpr mem)
  have projects : page.projects (.components [i]) = true := by
    simpa [Page.projects, Page.nodesOf?] using nonempty
  exact Option.isSome_iff_exists.mp ((page.isSome_boxOf? _).trans projects)

/-- **Behind a component segment there is one box for each component found.** -/
theorem forall₂_boxes {page : Page} : ∀ {leaves : List ResultSet},
    (∀ leaf ∈ leaves, page.IsLeaf true leaf) →
      List.Forall₂ (fun i box => page.boxOf? (.component i) = some box)
        (leaves.flatMap ResultSet.leafInstances) (leaves.filterMap page.boxOf?)
  | [], _ => .nil
  | leaf :: rest, h => by
    obtain ⟨first, later⟩ := List.forall_mem_cons.mp h
    have others := forall₂_boxes later
    cases first with
    | null => exact others
    | component owns =>
      obtain ⟨box, e⟩ := exists_box owns
      rw [List.flatMap_cons, List.filterMap_cons_some e]
      exact .cons e others

end Engine

/-! ### Pages of fixtures -/

/-- Each of the components owns a node, whatever identities were asked for before. -/
def Page.OwnNodes (page : Page) (is : List InstanceId) : Prop :=
  ∀ i ∈ is, ∀ ids, (page.elementsOf i ids).1 ≠ []

theorem Page.ownNodes_of_elements {page : Page} {is : List InstanceId}
    (h : ∀ i ∈ is, page.elements i ≠ []) : page.OwnNodes is := by
  intro i mem ids
  rw [(page.elementsOf_answers i _ ids.grows_empty).2]
  exact h i mem

namespace Engine

/-- **On the page of a fixture every component that is found owns a node**, wherever a component segment
starts from and whatever context a query runs in. So a call to interact with one gives the handle of a
node in an element of it, unless a search fails, and a highlight on the query that found them adds one
marker for each, around its elements. The search for nodes may be any. -/
theorem fetchWithin_found_components {f : Fixture} {rendering : Rendering}
    (h : f.render = .ok rendering)
    {search : NodeId → String → Except SearchError (List NodeId)} {engine : Engine}
    (reached : engine.Reachable) (onPage : engine.page = rendering.page.toPage.withSearch search)
    (limit now : Nat) :
    (∀ cq start progress next,
      (runSegment (engine.settingAt now) (.component cq) start progress).1 = .ok next →
        ∃ is, next = .components is ∧ engine.page.OwnNodes is) ∧
    ∀ (context : Context) (query : Query) (r : ResultSet),
      (engine.fetchWithin limit now ⟨context, .query query⟩).1 = .ok (.results r) →
        (∀ is, .components is ∈ r.leaves → is.length = 1 ∧ engine.page.OwnNodes is) ∧
        (engine.functions.find? "interactionElement" = some Functions.interactionElement →
          ∀ args i, .component i ∈ r.leaves →
            let interact := fun c : Context =>
              (engine.fetchWithin limit now ⟨c, .call ⟨"interactionElement", args⟩⟩).1
            let answers := engine.page.Interacts engine.config.interactionControls i
            answers (interact (.components [i])) ∧ (engine.config.allowComponentResults = true →
              r = .component i → answers (interact (.fetcher context (.query query))))) ∧
        (engine.functions.find? "highlight" = some Functions.highlight →
          engine.config.allowComponentResults = true → query.endsInComponent = true →
          ∀ args timeout?, Functions.timeoutOf engine.config args = .ok timeout? →
            let before := (engine.fetchWithin limit now ⟨context, .query query⟩).2.overlay
            let after := engine.fetchWithin limit now
              ⟨.fetcher context (.query query), .call ⟨"highlight", args⟩⟩
            after.1 = .ok (.value (.bool true)) ∧
            (∃ markers, after.2.overlay.markers = before.markers ++ markers ∧ List.Forall₂
              (fun i m => engine.page.boxOf? (.component i) = some m.rect) r.instances markers) ∧
            after.2.overlay.count now = before.count now + r.instances.length ∧
            (engine.functions = .builtin → before = engine.overlay.prune now)) := by
  have renders : engine.page.HostsRender := onPage ▸ (Fixture.hostsRender h).withSearch
  refine ⟨fun cq start progress next led => ?_, fun context query r found => ?_⟩
  · obtain ⟨is, e, owns⟩ := @runSegment_component (engine.settingAt now) renders cq start progress next led
    exact ⟨is, e, Page.ownNodes_of_elements owns⟩
  have leaves : ∀ leaf ∈ r.leaves, engine.page.IsLeaf query.endsInComponent leaf :=
    @outcome_resolve_leaves (engine.settingAt now) _ _ renders reached.sound.2 _ _ _
      ((fetchWithin_fst reached limit now _).symm.trans found)
  refine ⟨fun is mem => ?_, fun named args i mem => ?_, fun named allows ends args timeout? timed => ?_⟩
  · obtain ⟨i, rfl, owns⟩ := (leaves _ mem).single
    exact ⟨rfl, Page.ownNodes_of_elements (List.forall_mem_singleton.mpr owns)⟩
  · obtain ⟨j, same, owns⟩ := (leaves _ mem).single
    obtain rfl := List.singleton_inj.mp same
    obtain ⟨handle, chained⟩ := fetchWithin_interacts reached owns named limit now args
    refine ⟨handle, ?_⟩
    rintro allows rfl
    exact chained allows ⟨context, .query query⟩ found
  · obtain ⟨value, markers, counts⟩ := fetchWithin_highlight allows named found timed
    have boxes : List.Forall₂ (fun i box => engine.page.boxOf? (.component i) = some box) r.instances _ :=
      forall₂_boxes (ends ▸ leaves)
    refine ⟨value, ⟨_, markers, ?_⟩, ?_, fun builtin => fetchWithin_overlay builtin found⟩
    · exact List.forall₂_map_right_iff.mpr boxes
    · rw [boxes.length_eq]
      exact counts

/-- The three items of the shelves are found and marked once each, and there is a node to interact with in
the second. -/
theorem fetchWithin_found_components_shelves : ∃ rendering, shelves.render = .ok rendering ∧
    let engine : Engine := { ofPage rendering.page.toPage { EngineConfig.default with
      allowComponentResults := true } with matcher := Predicate.matches }
    let fetch := fun context operation => engine.fetchWithin 1 0 ⟨context, operation⟩
    let items : Operation := .query (.all "@Item")
    let second : Operation := .query ⟨"@Item", true, some 1⟩
    (∃ r, (fetch (.root true) items).1 = .ok (.results r) ∧ r.instances = [⟨3⟩, ⟨6⟩, ⟨8⟩]) ∧
    (fetch (.fetcher (.root true) items) (.call ⟨"highlight", []⟩)).2.overlay.count 0 = 3 ∧
    ∃ n, (fetch (.fetcher (.root true) second) (.call ⟨"interactionElement", []⟩)).1 =
      .ok (.value (ResultSet.node n).toJson) := by
  obtain ⟨rendering, rendered⟩ : ∃ rendering, shelves.render = .ok rendering :=
    exists_ok_of_toBool (by decide +kernel)
  have known : shelves.render.toOption.map (fun rendering =>
      let engine := ofPage rendering.page.toPage { EngineConfig.default with
        allowComponentResults := true }
      let fetch := fun context operation => (engine.fetchWithin 1 0 ⟨context, operation⟩).1
      let second : Operation := .query ⟨"@Item", true, some 1⟩
      ((match fetch (.root true) (.query (.all "@Item")) with
        | .ok (.results r) => r.instances
        | _ => []),
      (match fetch (.root true) second with
        | .ok (.results (.components is)) => is
        | _ => []),
      (fetch (.fetcher (.root true) second) (.call ⟨"interactionElement", []⟩)).toBool)) =
        some ([⟨3⟩, ⟨6⟩, ⟨8⟩], [⟨6⟩], true) := by decide +kernel
  rw [toOption_some_iff.mpr rendered, Option.map_some, Option.some.injEq, Prod.mk.injEq, Prod.mk.injEq] at known
  obtain ⟨all, one, answered⟩ := known
  refine ⟨rendering, rendered, ?_⟩
  intro engine fetch items second
  have reached : engine.Reachable := .start rendering.page.toPage Predicate.matches _
  obtain ⟨-, finds⟩ := @fetchWithin_found_components shelves rendering rendered
    rendering.page.toPage.search engine reached rfl 1 0
  have ends : (Query.all "@Item").endsInComponent = true := by decide +kernel
  refine ⟨?_, ?_, ?_⟩
  · split at all
    · next r found => exact ⟨r, found, all⟩
    · cases all
  · split at all
    · next r found =>
      have marks := (finds (.root true) (.all "@Item") r found).2.2 rfl rfl ends [] none rfl
      refine marks.2.2.1.trans ?_
      rw [all, marks.2.2.2 rfl]
      rfl
    · cases all
  · split at one
    · next is found =>
      obtain rfl : is = [⟨6⟩] := one
      have leaf : ResultSet.component ⟨6⟩ ∈ (ResultSet.components [⟨6⟩]).leaves :=
        List.mem_singleton_self _
      have calls := (finds (.root true) ⟨"@Item", true, some 1⟩ _ found).2.1 rfl [] ⟨6⟩ leaf
      have interacts := calls.2 rfl rfl
      obtain ⟨o, e⟩ := exists_ok_of_toBool answered
      have given : engine.page.Interacts _ ⟨6⟩ (.ok o) :=
        (congrArg (engine.page.Interacts _ ⟨6⟩) e).mp interacts
      cases given with
      | node => exact ⟨_, e⟩
    · cases one

end Engine

end PageQuery
