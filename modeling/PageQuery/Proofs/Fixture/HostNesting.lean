/-
# Hosts nest as their elements do

Where no portal takes nodes elsewhere, the hosts above a host are those of the elements around its
element. Rendering sees to it from one element to those right in it: whatever components and fragments
lie between, the nearest host at or above the instance that a node is drawn below is the host of the
element that it is drawn in (`RestsOn`, `Mirrors`). Along the parents this gives the whole.

So the two ways to search below a node of the runtime agree: an instance lies strictly below the host of
the node exactly when it owns a node strictly inside.

Key definitions: `RestsOn`, `Mirrors`, `Page.NestsHosts`.
Key theorems: `Drawn.mirrors`, `Fixture.nestsHosts`, `Page.NestsHosts.mem_after_iff`,
`Fixture.findBelowNodes_structural`.
-/
import Mathlib.Data.List.TakeWhile
import PageQuery.Proofs.Fixture.Projection

namespace PageQuery

open ElementTree Render RenderState

/-! ### The nearest host -/

/-- The nearest host at or above an instance, if there is one. -/
inductive RestsOn (instances : List RenderedInstance) : InstanceId → Option InstanceId → Prop
  | host {i : InstanceId} {x : RenderedInstance} :
    instances[i.index]? = some x → x.kind = .host → RestsOn instances i (some i)
  | top {i : InstanceId} {x : RenderedInstance} :
    instances[i.index]? = some x → x.kind ≠ .host → x.parent? = none → RestsOn instances i none
  | up {i parent : InstanceId} {x : RenderedInstance} {host? : Option InstanceId} :
    instances[i.index]? = some x → x.kind ≠ .host → x.parent? = some parent →
    RestsOn instances parent host? → RestsOn instances i host?

/-- An element in another has a host that rests on the other's host, or both have none. -/
def HangsIn (instances : List RenderedInstance) (outer? : Option InstanceId) :
    Option InstanceId → Prop
  | none => outer? = none
  | some host => ∃ owner, (instances[host.index]?).bind (·.parent?) = some owner ∧
    RestsOn instances owner outer?

mutual

/-- In a tree below an element with this host, or below one without, hosts rest on those of the elements
around. -/
def Mirrors (instances : List RenderedInstance) (outer? : Option InstanceId) : ElementTree → Prop
  | .text _ => True
  | .element head content =>
    HangsIn instances outer? head.host? ∧ MirrorsAll instances head.host? content

def MirrorsAll (instances : List RenderedInstance) (outer? : Option InstanceId) :
    List ElementTree → Prop
  | [] => True
  | t :: rest => Mirrors instances outer? t ∧ MirrorsAll instances outer? rest

end

section drawing

variable {instances more : List RenderedInstance} {outer? : Option InstanceId} {s t : RenderState}

theorem mirrorsAll_iff {ts : List ElementTree} :
    MirrorsAll instances outer? ts ↔ ∀ t ∈ ts, Mirrors instances outer? t := by
  induction ts with
  | nil => simp [MirrorsAll]
  | cons t rest ih => rw [MirrorsAll, List.forall_mem_cons, ih]

@[simp] theorem mirrorsAll_append {first second : List ElementTree} :
    MirrorsAll instances outer? (first ++ second) ↔
      MirrorsAll instances outer? first ∧ MirrorsAll instances outer? second := by
  simp only [mirrorsAll_iff, List.forall_mem_append]

theorem mirrorsAll_leadingText {text? : Option String} :
    MirrorsAll instances outer? (leadingText text?) := by
  cases text? <;> simp [leadingText, MirrorsAll, Mirrors]

/-! ### More instances make no difference -/

theorem getElem?_of_grown {n : Nat} {x : RenderedInstance} (grown : instances <+: more)
    (h : instances[n]? = some x) : more[n]? = some x := by
  obtain ⟨rest, rfl⟩ := grown
  obtain ⟨inside, -⟩ := List.getElem?_eq_some_iff.mp h
  rw [List.getElem?_append_left inside, h]

theorem RestsOn.mono {i : InstanceId} {host? : Option InstanceId} (grown : instances <+: more)
    (h : RestsOn instances i host?) : RestsOn more i host? := by
  induction h with
  | host there kind => exact .host (getElem?_of_grown grown there) kind
  | top there kind parent => exact .top (getElem?_of_grown grown there) kind parent
  | up there kind parent _ ih => exact .up (getElem?_of_grown grown there) kind parent ih

/-- Instances are only added. -/
theorem Drawn.grown {owner : InstanceId} {nodes : List FixtureNode} {trees : List ElementTree}
    (drawn : Drawn owner nodes s trees t) : s.instances <+: t.instances := by
  induction drawn with
  | nothing => exact List.prefix_refl _
  | text _ ih => exact ih
  | element _ _ inner outer => exact ((List.prefix_append _ _).trans inner).trans outer
  | component _ _ inner outer =>
    rw [placing_instances] at inner
    exact ((List.prefix_append _ _).trans inner).trans outer
  | portal _ ih => exact (List.prefix_append _ _).trans ih

/-! ### What is drawn -/

theorem MarkupDrawn.mirrors {nodes : List FixtureNode} {trees : List ElementTree}
    (drawn : MarkupDrawn nodes s trees t) : MirrorsAll instances none trees := by
  induction drawn with
  | nothing => trivial
  | text _ ih => exact ⟨trivial, ih⟩
  | element _ _ inner outer =>
    exact ⟨⟨rfl, mirrorsAll_append.mpr ⟨mirrorsAll_leadingText, inner⟩⟩, outer⟩

/-- Nodes drawn below an instance hang in what the instance rests on, one case for each form of node. -/
theorem Drawn.mirrors {owner : InstanceId} {nodes : List FixtureNode} {trees : List ElementTree}
    (drawn : Drawn owner nodes s trees t) : ∀ {outer? : Option InstanceId},
      RestsOn s.instances owner outer? → t.instances <+: more → MirrorsAll more outer? trees := by
  induction drawn with
  | nothing => intro _ _ _; trivial
  | text _ ih =>
    intro _ rests grown
    exact ⟨trivial, ih rests grown⟩
  | @element owner tag attributes _ rect? _ _ s _ _ _ _ inner outer inner_mirrors outer_mirrors =>
    intro outer? rests grown
    have first := inner.grown
    have middle := first.trans outer.grown
    have host : (s.hosting owner tag attributes).instances[s.nextInstance.index]? =
        some (s.nextHost owner tag) := List.getElem?_concat_length
    have kept : s.instances <+: (s.hosting owner tag attributes).instances := List.prefix_append _ _
    refine ⟨⟨⟨owner, ?_, rests.mono ((kept.trans middle).trans grown)⟩, ?_⟩, ?_⟩
    · rw [getElem?_of_grown (middle.trans grown) host]
      rfl
    · exact mirrorsAll_append.mpr ⟨mirrorsAll_leadingText,
        inner_mirrors (.host host rfl) (outer.grown.trans grown)⟩
    · exact outer_mirrors (rests.mono (kept.trans first)) grown
  | @component owner name kind displayName? props _ _ s _ _ _ _ inner outer inner_mirrors outer_mirrors =>
    intro outer? rests grown
    have first := inner.grown
    have kept : s.instances <+: (s.placing owner name kind displayName? props).instances := by
      rw [placing_instances]
      exact List.prefix_append _ _
    have placed : (s.placing owner name kind displayName? props).instances[s.nextInstance.index]? =
        some (s.nextComponent owner name kind displayName? props) := by
      rw [placing_instances]
      exact List.getElem?_concat_length
    refine mirrorsAll_append.mpr ⟨?_, outer_mirrors (rests.mono (kept.trans first)) grown⟩
    exact inner_mirrors (.up placed nextComponent_kind rfl (rests.mono kept)) (outer.grown.trans grown)
  | portal _ ih =>
    intro _ rests grown
    exact ih (rests.mono (List.prefix_append _ _)) grown

/-- The document before portals are drawn. -/
theorem rootDocument_mirrors {f : Fixture} {markup app : List ElementTree}
    (outside : MarkupDrawn f.markup ⟨3, [], [], 0, []⟩ markup s)
    (inside : Drawn s.nextInstance f.app s.mounted app t) :
    Mirrors t.instances none (rootDocument s.serial markup app) := by
  have top : s.mounted.instances[s.nextInstance.index]? =
      some ⟨none, .root, none, .null, some (.object (s.objects + 1))⟩ := List.getElem?_concat_length
  have app_mirrors := inside.mirrors (.top top nofun rfl) (List.prefix_refl _)
  have markup_mirrors : MirrorsAll t.instances none markup := outside.mirrors
  exact ⟨rfl, ⟨rfl, trivial⟩, ⟨rfl, mirrorsAll_append.mpr
    ⟨markup_mirrors, ⟨rfl, app_mirrors⟩, trivial⟩⟩, trivial⟩

end drawing

/-! ### Pages -/

namespace Page

/-- The hosts strictly above the host of a node are the host of the node's parent and those above that.
A node without a parent has no host, and neither has the parent of a node without one. -/
structure NestsHosts (page : Page) : Prop where
  top : ∀ n, page.parent? n = none → page.host? n = none
  bare : ∀ n q, page.parent? n = some q → page.host? n = none → page.host? q = none
  hosted : ∀ n q host, page.parent? n = some q → page.host? n = some host →
    ∀ j, page.kind j = .host →
      (j ∈ page.owners.after host ↔ ∃ outer, page.host? q = some outer ∧ j ∈ page.owners.upward outer)
  apart : ∀ m n i, page.host? m = some i → page.host? n = some i → m = n

variable {page : Page} {e n : NodeId} {i host inner : InstanceId}

/-- Around a node without a host there are only such. -/
theorem NestsHosts.bare_above (nests : page.NestsHosts) (bare : page.host? e = none)
    (above : n ∈ page.parents.after e) : page.host? n = none := by
  induction rank : page.parents.rank e using Nat.strong_induction_on generalizing e with
  | _ rank ih =>
    subst rank
    cases parent : page.parents.next e with
    | none =>
      rw [Links.after_of_next_none _ parent] at above
      cases above
    | some q =>
      have lower := page.parents.descends parent
      have none := nests.bare e q parent bare
      rw [Links.after_of_next _ parent] at above
      rcases List.mem_cons.mp above with rfl | further
      · exact none
      · exact ih _ lower none further rfl

/-- **Hosts nest as their nodes do.** By induction along the parents of the inner node. -/
theorem NestsHosts.mem_after_iff (nests : page.NestsHosts) (rendered : page.host? n = some host)
    (kind : page.kind host = .host) (inside : page.host? e = some inner) :
    host ∈ page.owners.after inner ↔ n ∈ page.parents.after e := by
  induction rank : page.parents.rank e using Nat.strong_induction_on generalizing e inner with
  | _ rank ih =>
    subst rank
    cases parent : page.parents.next e with
    | none =>
      have bare := nests.top e parent
      rw [bare] at inside
      cases inside
    | some q =>
      have lower := page.parents.descends parent
      rw [nests.hosted e q inner parent inside host kind, Links.after_of_next _ parent, List.mem_cons]
      cases around : page.host? q with
      | none =>
        have bare : ¬(n = q ∨ n ∈ page.parents.after q) := by
          rintro (rfl | above)
          · rw [rendered] at around; cases around
          · rw [nests.bare_above around above] at rendered; cases rendered
        simp [bare]
      | some outer =>
        have further := ih _ lower around rfl
        have same : host = outer ↔ n = q := by
          constructor
          · rintro rfl
            exact nests.apart n q host rendered around
          · rintro rfl
            exact Option.some.inj (rendered.symm.trans around)
        simp only [Option.some.injEq, exists_eq_left', Links.upward, List.mem_cons, same, further]

/-! ### Elements of instances with identities of their own -/

/-- The owners of a node stand above its host, before the next one. -/
theorem host?_of_owner (owns : i ∈ page.ownerChain e) :
    ∃ inner, page.host? e = some inner ∧ i ∈ page.owners.after inner ∧
      ∀ host ∈ page.owners.after inner, page.kind host = .host → host ∈ page.owners.after i := by
  cases rendered : page.host? e with
  | none =>
    rw [ownerChain, rendered] at owns
    cases owns
  | some inner =>
    rw [ownerChain_eq rendered] at owns
    refine ⟨inner, rfl, (List.takeWhile_sublist _).subset owns, fun host above kind => ?_⟩
    obtain ⟨rest, split⟩ := @List.takeWhile_prefix _ (page.owners.after inner) fun j => !(page.kind j).isHost
    have chain := (page.owners.isUpward_after inner).pairwise
    rw [← split] at above chain
    rcases List.mem_append.mp above with owner | beyond
    · have passes : (!(page.kind host).isHost) = true := by simpa using List.mem_takeWhile_imp owner
      exact absurd kind (not_isHost_iff.mp passes)
    · exact (List.pairwise_append.mp chain).2.2 i owns host beyond

/-- An instance above a node owns what it is an owner of, as it shares its identity with no other. -/
theorem HasOwnIdentities.mem_elements_iff (own : page.HasOwnIdentities)
    (above : ∃ n ∈ page.nodes, page.IsAbove i n) :
    e ∈ page.elements i ↔ e ∈ page.nodes ∧ i ∈ page.ownerChain e := by
  rw [elements, List.mem_filter, List.any_eq_true]
  refine and_congr_right fun mem => ?_
  constructor
  · rintro ⟨owner, owns, same⟩
    obtain ⟨inner, rendered, after, -⟩ := host?_of_owner owns
    have owner_above : page.IsAbove owner e := by
      rw [IsAbove, hostChain, rendered]
      exact List.mem_cons_of_mem _ after
    exact own ⟨e, mem, owner_above⟩ above (of_decide_eq_true same) ▸ owns
  · exact fun owns => ⟨i, owns, decide_eq_true rfl⟩

/-! ### The two ways to search below a node -/

/-- An instance that owns nodes is strictly below the host of a node exactly when it owns one strictly
inside. -/
theorem NestsHosts.isBelow_iff (nests : page.NestsHosts) (renders : page.HostsRender)
    (own : page.HasOwnIdentities) (rendered : page.host? n = some host) (known : i ∈ page.outline)
    (kind : page.kind i ≠ .host) : page.IsBelow (.below [host]) i ↔ page.OwnsInside i n := by
  have hosts := renders.kind n host rendered
  have above := (mem_outline own).mp known
  constructor
  · rintro ⟨a, after, s, mem, same⟩
    obtain rfl := List.mem_singleton.mp mem
    obtain rfl : a = s := by
      obtain ⟨m, inside, top⟩ := above
      obtain ⟨k, there, renders⟩ := renders.node s hosts
      have s_above : page.IsAbove s k := by
        rw [IsAbove, hostChain, renders]
        exact List.mem_cons_self
      have a_above : page.IsAbove a m := (page.isUpward_hostChain m).mem_of_mem_after top after
      exact own ⟨m, inside, a_above⟩ ⟨k, there, s_above⟩ same
    obtain ⟨e, owned⟩ := List.exists_mem_of_ne_nil _ (renders.elements_ne_nil known kind)
    obtain ⟨-, owns⟩ := (own.mem_elements_iff above).mp owned
    obtain ⟨inner, inside, after_inner, -⟩ := host?_of_owner owns
    have further := (page.owners.isUpward_after inner).mem_of_mem_after after_inner after
    exact ⟨e, owned, mem_parents_after_iff.mp ((nests.mem_after_iff rendered hosts inside).mp further)⟩
  · rintro ⟨e, owned, strictly⟩
    obtain ⟨-, owns⟩ := (own.mem_elements_iff above).mp owned
    obtain ⟨inner, inside, -, next⟩ := host?_of_owner owns
    have after := (nests.mem_after_iff rendered hosts inside).mpr (mem_parents_after_iff.mpr strictly)
    exact ⟨host, next host after hosts, host, List.mem_singleton_self host, rfl⟩

/-- **Below a node of the runtime, the search by hosts finds what the structural rule would.** -/
theorem NestsHosts.belowNodes_eq (nests : page.NestsHosts) (renders : page.HostsRender)
    (own : page.HasOwnIdentities) (rendered : page.host? n = some host) {matcher : PropertyMatcher}
    {query : ComponentQuery} {found : List InstanceId}
    (everywhere : page.descendants matcher .everywhere query = .ok found) :
    page.belowNodes matcher [n] query = .ok (found.filter fun i => page.OwnsInside i n) := by
  have hosts : page.hostsOf [n] = [host] := List.filterMap_cons_some rendered
  have outside : page.outsideOf [n] = [] := by
    rw [outsideOf, List.filter_cons_of_neg (by rw [rendered]; exact Bool.false_ne_true), List.filter_nil]
  have accepts : ∀ i ∈ page.outline, page.Accepts matcher query (.below [host]) i ↔
      page.OwnsInside i n ∧ page.Accepts matcher query .everywhere i := by
    intro i known
    constructor
    · rintro ⟨matched, below⟩
      exact ⟨(nests.isBelow_iff renders own rendered known (kind_of_isMatch matched)).mp below,
        matched, trivial⟩
    · rintro ⟨owns, matched, -⟩
      exact ⟨matched, (nests.isBelow_iff renders own rendered known (kind_of_isMatch matched)).mpr owns⟩
  have readable := descendants_ok_iff.mp ⟨found, everywhere⟩
  obtain ⟨below, result⟩ : ∃ below, page.descendants matcher (.below [host]) query = .ok below :=
    descendants_ok_iff.mpr fun i known accepted => readable i known ((accepts i known).mp accepted).2
  unfold belowNodes
  rw [hosts, outside, result]
  show Except.ok below = _
  rw [eq_of_descendants result, eq_of_descendants everywhere, List.filter_filter]
  refine congrArg _ (List.filter_congr fun i known => ?_)
  rw [Bool.eq_iff_iff, Bool.and_eq_true, decide_eq_true_iff, decide_eq_true_iff, decide_eq_true_iff]
  exact accepts i known

end Page

open Page

/-! ### Pages without portals -/

mutual

/-- Right in each element of a tree, hosts rest on its own. -/
theorem mirrors_placed {instances : List RenderedInstance} {e : PlacedElement} :
    ∀ {t : ElementTree} {outer? : Option InstanceId} {parent? : Option Nat} {number : Nat},
      Mirrors instances outer? t → e ∈ placed parent? number t → MirrorsAll instances e.head.host? e.content
  | .element _ _, _, _, _, ⟨_, inner⟩, mem => by
    rcases List.mem_cons.mp mem with rfl | mem
    · exact inner
    · exact mirrorsAll_placed inner mem

theorem mirrorsAll_placed {instances : List RenderedInstance} {e : PlacedElement} :
    ∀ {ts : List ElementTree} {outer? : Option InstanceId} {parent? : Option Nat} {number : Nat},
      MirrorsAll instances outer? ts → e ∈ placedAll parent? number ts →
        MirrorsAll instances e.head.host? e.content
  | _ :: _, _, _, _, ⟨first, later⟩, mem => by
    rcases List.mem_append.mp mem with mem | mem
    · exact mirrors_placed first mem
    · exact mirrorsAll_placed later mem

end

/-- Without portals, the document is drawn in one go. -/
theorem Fixture.render_mirrors {f : Fixture} {r : Rendering} (h : f.render = .ok r)
    (none : FixtureNode.portalCountAll f.app = 0) : Mirrors r.instances .none r.document := by
  unfold render at h
  cases rendered : f.renderDocument ⟨0, [], [], 0, []⟩ with
  | error x => rw [rendered] at h; cases h
  | ok result =>
    rw [rendered] at h
    obtain rfl := Except.ok.inj h
    obtain ⟨markup, s, app, t, outside, inside, last⟩ := renderDocument_cases rendered
    rw [none] at last
    obtain ⟨document, state⟩ := pure_eq_ok.mp last
    show Mirrors result.2.instances .none result.1
    rw [← document, ← state]
    exact rootDocument_mirrors outside inside

namespace Rendering

variable {r : Rendering} {i : InstanceId} {host? : Option InstanceId}

theorem kind_eq {x : RenderedInstance} (there : r.instances[i.index]? = some x) :
    r.page.toPage.kind i = x.kind := by
  have same : r.page.instances[i.index]? = some x := List.getElem?_toArray.trans there
  show ((r.page.instances[i.index]?).map (·.kind)).getD .fragment = x.kind
  rw [same]
  rfl

theorem owners_next_eq (sound : r.page.Sound) {x : RenderedInstance}
    (there : r.instances[i.index]? = some x) : r.page.toPage.owners.next i = x.parent? := by
  have same : r.page.instances[i.index]? = some x := List.getElem?_toArray.trans there
  rw [sound.owners_next, RenderedInstance.parentAt, same]
  rfl

theorem host?_of_element {n : NodeId} {e : PlacedElement} (here : r.page.elements[n.index]? = some e) :
    r.page.toPage.host? n = e.head.host? := by
  show (r.page.elements[n.index]?).bind (·.head.host?) = _
  rw [here, Option.bind_some]

/-- Going up from an instance, hosts are met from that which it rests on. -/
theorem mem_upward_iff (sound : r.page.Sound) (rests : RestsOn r.instances i host?) {j : InstanceId}
    (kind : r.page.toPage.kind j = .host) : j ∈ r.page.toPage.owners.upward i ↔
      ∃ host, host? = some host ∧ j ∈ r.page.toPage.owners.upward host := by
  induction rests with
  | host there _ => simp
  | @top i x there bare parent =>
    have alone : j ≠ i := fun same => bare (by rw [← kind_eq there, ← same, kind])
    rw [Links.mem_upward_iff, owners_next_eq sound there, parent]
    simp [alone]
  | @up i _ x _ there bare parent _ ih =>
    have passed : j ≠ i := fun same => bare (by rw [← kind_eq there, ← same, kind])
    rw [Links.mem_upward_iff, owners_next_eq sound there, parent, ← ih]
    simp [passed]

theorem parent?_eq (n : NodeId) : r.page.toPage.parent? n =
    ((r.page.elements[n.index]?).bind (·.parent?)).map NodeId.mk := r.parents_next n.index

/-- An element and the one around it, whose hosts rest on each other. -/
theorem hangsIn_of_parent (mirrors : Mirrors r.instances none r.document) {n q : NodeId}
    (up : r.page.toPage.parent? n = some q) : ∃ e a : PlacedElement,
      r.page.toPage.host? n = e.head.host? ∧ r.page.toPage.host? q = a.head.host? ∧
        HangsIn r.instances a.head.host? e.head.host? := by
  rw [parent?_eq] at up
  obtain ⟨k, number, rfl⟩ := Option.map_eq_some_iff.mp up
  obtain ⟨e, here, up⟩ := Option.bind_eq_some_iff.mp number
  rcases parent_spec here with ⟨-, bare⟩ | ⟨k', a, -, there, same, tree, -⟩
  · rw [bare] at up
    cases up
  · obtain rfl : k' = k := Option.some.inj (same.symm.trans up)
    have placed := getElem?_elements ▸ there
    have within := mirrorsAll_iff.mp (mirrors_placed mirrors (List.mem_of_getElem? placed)) _ tree
    exact ⟨e, a, host?_of_element here, host?_of_element there, within.1⟩

/-- An element that stands in no other is the first, which no instance renders. -/
theorem host?_of_top {s : RenderState} (stands : Stands r.document s) {n : NodeId}
    (top : r.page.toPage.parent? n = none) : r.page.toPage.host? n = none := by
  rw [parent?_eq, Option.map_eq_none_iff] at top
  cases here : r.page.elements[n.index]? with
  | none =>
    show (r.page.elements[n.index]?).bind (·.head.host?) = none
    rw [here]
    rfl
  | some e =>
    rw [here, Option.bind_some] at top
    rcases parent_spec here with ⟨first, -⟩ | ⟨q, -, -, -, up, -⟩
    · obtain rfl : n = ⟨0⟩ := congrArg NodeId.mk first
      exact (rootSpans stands).bare
    · rw [up] at top
      cases top

/-- Where hosts rest on those of the elements around, they nest as the nodes do. -/
theorem nestsHosts {s : RenderState} (stands : Stands r.document s) (instances : r.instances = s.instances)
    (sound : r.page.Sound) (mirrors : Mirrors r.instances none r.document) :
    r.page.toPage.NestsHosts := by
  refine ⟨fun n top => host?_of_top stands top, fun n q up bare => ?_,
    fun n q host up rendered j kind => ?_, fun m n i first second => ?_⟩
  · obtain ⟨e, a, here, there, hangs⟩ := hangsIn_of_parent mirrors up
    rw [bare] at here
    rw [← here] at hangs
    rw [there]
    exact hangs
  · obtain ⟨e, a, here, there, hangs⟩ := hangsIn_of_parent mirrors up
    rw [rendered] at here
    rw [← here] at hangs
    obtain ⟨owner, below, rests⟩ := hangs
    obtain ⟨x, mem, parent⟩ := Option.bind_eq_some_iff.mp below
    have next := (owners_next_eq sound mem).trans parent
    rw [Links.after_of_next _ next, there]
    exact mem_upward_iff sound rests kind
  · have node := ((host?_iff stands instances).mp first).2
    have other := ((host?_iff stands instances).mp second).2
    exact Backing.node.inj (Option.some.inj (node.symm.trans other))

end Rendering

namespace Fixture

variable {f : Fixture} {r : Rendering}

theorem nestsHosts (h : f.render = .ok r) (none : FixtureNode.portalCountAll f.app = 0) :
    r.page.toPage.NestsHosts := by
  obtain ⟨s, stands, instances⟩ := render_stands h
  exact Rendering.nestsHosts stands instances (render_sound h) (render_mirrors h none)

/-- **Below a node of the runtime of a page without portals, the search by hosts finds what the
structural rule would.** Where a search everywhere succeeds, the rule keeps of what that found, in order,
the components that own a node strictly inside, whatever was asked before each of the searches. -/
theorem findBelowNodes_structural (h : f.render = .ok r) (none : FixtureNode.portalCountAll f.app = 0)
    {n : NodeId} {host : InstanceId} (rendered : r.page.toPage.host? n = some host) {matcher : PropertyMatcher}
    {query : ComponentQuery} {found : List InstanceId} {start : Identities}
    (everywhere : (r.page.toPage.findDescendants matcher .everywhere query start).1 = .ok found)
    (ids again : Identities) :
    (r.page.toPage.findBelowNodes matcher [n] query ids).1 = .ok (r.page.toPage.keepBelow [] [n] found again).1 ∧
      (r.page.toPage.keepBelow [] [n] found again).1 = found.filter fun i =>
        (r.page.toPage.elementsOf i again).1.any fun e => e ≠ n && r.page.toPage.isWithin e n := by
  have all : r.page.toPage.descendants matcher .everywhere query = .ok found :=
    (findDescendants_eq .everywhere start).symm.trans everywhere
  have below : (r.page.toPage.findBelowNodes matcher [n] query ids).1 =
      .ok (found.filter fun i => r.page.toPage.OwnsInside i n) := by
    rw [← (nestsHosts h none).belowNodes_eq (hostsRender h) (hasOwnIdentities h) rendered all]
    exact (findBelowNodes_finds [n] ids (.refl ids)).2
  have kept : (r.page.toPage.keepBelow [] [n] found again).1 =
      found.filter fun i => r.page.toPage.OwnsInside i n := by
    have answer := (@keepBelow_answers r.page.toPage [] [] [n] again found .nil again (.refl again)).2
    simpa using answer
  have owns : ∀ i, ((r.page.toPage.elementsOf i again).1.any fun e => e ≠ n && r.page.toPage.isWithin e n) =
      decide (r.page.toPage.OwnsInside i n) := by
    intro i
    rw [(r.page.toPage.elementsOf_answers i again (.refl again)).2, Bool.eq_iff_iff, List.any_eq_true,
      decide_eq_true_iff]
    simp only [Bool.and_eq_true, decide_eq_true_iff]
    rfl
  refine ⟨below.trans (congrArg _ kept.symm), kept.trans ?_⟩
  exact List.filter_congr fun i _ => (owns i).symm

end Fixture

/-- A list with two items, one of them in a fragment, and an item after the list. -/
def shelves : Fixture := ⟨[], [
  .component "List" .memo none .null [.element "ul" [] none none [
    .component "Item" .function none .null [.component "" .fragment none .null [.element "li" [] none none []]],
    .component "Item" .function none .null [.element "li" [] none none []]]],
  .component "Item" .function none .null [.element "p" [] none none []]]⟩

/-- Of the three items, those in the list are found below its element. -/
theorem Fixture.findBelowNodes_structural_shelves : ∃ r, shelves.render = .ok r ∧ ∀ ids,
    (r.page.toPage.findBelowNodes Predicate.matches [⟨4⟩] (.named "Item") ids).1 = .ok [⟨3⟩, ⟨6⟩] := by
  obtain ⟨r, rendered⟩ : ∃ r, shelves.render = .ok r := exists_ok_of_toBool (by decide +kernel)
  have known : shelves.render.toOption.map (fun r => (r.page.toPage.host? ⟨4⟩,
      (r.page.toPage.findDescendants Predicate.matches .everywhere (.named "Item") .empty).1.toOption,
      (r.page.toPage.keepBelow [] [⟨4⟩] [⟨3⟩, ⟨6⟩, ⟨8⟩] .empty).1)) =
        some (some ⟨2⟩, some [⟨3⟩, ⟨6⟩, ⟨8⟩], [⟨3⟩, ⟨6⟩]) := by decide +kernel
  rw [toOption_some_iff.mpr rendered, Option.map_some] at known
  simp only [Option.some.injEq, Prod.mk.injEq, toOption_some_iff] at known
  obtain ⟨hosted, everywhere, kept⟩ := known
  refine ⟨r, rendered, fun ids => ?_⟩
  have structural := findBelowNodes_structural rendered rfl hosted everywhere ids .empty
  rw [structural.1, kept]

end PageQuery
