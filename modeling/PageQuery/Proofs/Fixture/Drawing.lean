/-
# What rendering does, step by step

Rendering is a computation on a state. What it can do is said here once, as relations between fixture
nodes, the state before, the trees drawn and the state after, with one case for each form of node:
`MarkupDrawn` for nodes outside the app and `Drawn` for those of the app, below an instance. What a
relation keeps is then shown by induction on it. Portals are drawn one after another; what one of them
keeps, all do (`portals_keeps`).

Key definitions: `RenderState.hosting`, `RenderState.placing`, `RenderState.deferring`, `MarkupDrawn`,
`Drawn`, `Render.rootDocument`.
Key theorems: `Render.appNodes_drawn`, `Render.portals_keeps`, `Fixture.renderDocument_cases`.
-/
import PageQuery.Proofs.Fixture.Rendering

namespace PageQuery

open Render RenderState

/-! ### States -/

namespace RenderState

variable (s : RenderState)

/-- The handle of the next instance. -/
def nextInstance : InstanceId := ⟨s.instances.length⟩

/-- The next element, without its content. -/
def nextHead (tag : String) (attributes : List (String × String)) (rect? : Option Rect)
    (host? : Option InstanceId) : ElementHead :=
  ⟨s.serial, lowerTag tag, attributes, rect?, host?⟩

/-- The object behind the next component of a kind, if it has one. -/
def nextObject? : ComponentKind → Option RenderedBacking
  | .classComponent => some (.object (s.objects + 1))
  | _ => none

/-- The host of the next element. -/
def nextHost (owner : InstanceId) (tag : String) : RenderedInstance :=
  ⟨some owner, .host, some tag, .null, some (.element s.serial)⟩

/-- The next component. -/
def nextComponent (owner : InstanceId) (name : String) (kind : ComponentKind)
    (displayName? : Option String) (props : Json) : RenderedInstance :=
  ⟨some owner, kind.toInstanceKind, componentName? name kind displayName?, propsOrNone props,
    s.nextObject? kind⟩

/-- With one more element. -/
def numbered (attributes : List (String × String)) : RenderState :=
  { s with
    serial := s.serial + 1
    ids := match Fields.find? "id" attributes with
      | some id => s.ids ++ [(id, s.serial)]
      | none => s.ids }

/-- With one more object, if a component of the kind has one. -/
def backing : ComponentKind → RenderState
  | .classComponent => { s with objects := s.objects + 1 }
  | _ => s

/-- With one more instance. -/
def adding (i : RenderedInstance) : RenderState := { s with instances := s.instances ++ [i] }

/-- With one more element and its host. -/
def hosting (owner : InstanceId) (tag : String) (attributes : List (String × String)) : RenderState :=
  (s.numbered attributes).adding (s.nextHost owner tag)

/-- With one more component. -/
def placing (owner : InstanceId) (name : String) (kind : ComponentKind) (displayName? : Option String)
    (props : Json) : RenderState :=
  (s.backing kind).adding (s.nextComponent owner name kind displayName? props)

/-- With one more portal, still to be rendered. -/
def deferring (owner : InstanceId) (target : String) (children : List FixtureNode) : RenderState :=
  { s.adding ⟨some owner, .portal, none, .null, none⟩ with
    pending := s.pending ++ [⟨target, children, s.nextInstance⟩] }

/-- With the mount and the instance at the top. -/
def mounted : RenderState :=
  { s.numbered [("id", "root")] with objects := s.objects + 1 }.adding
    ⟨none, .root, none, .null, some (.object (s.objects + 1))⟩

variable {s : RenderState} {owner : InstanceId} {tag target name : String} {kind : ComponentKind}
  {attributes : List (String × String)} {displayName? : Option String} {props : Json}
  {children : List FixtureNode}

@[simp] theorem nextHead_serial {rect? : Option Rect} {host? : Option InstanceId} :
    (s.nextHead tag attributes rect? host?).serial = s.serial := rfl

@[simp] theorem numbered_serial : (s.numbered attributes).serial = s.serial + 1 := rfl

@[simp] theorem hosting_serial : (s.hosting owner tag attributes).serial = s.serial + 1 := rfl

@[simp] theorem backing_serial : (s.backing kind).serial = s.serial := by cases kind <;> rfl

@[simp] theorem placing_serial : (s.placing owner name kind displayName? props).serial = s.serial :=
  backing_serial

@[simp] theorem backing_ids : (s.backing kind).ids = s.ids := by cases kind <;> rfl

@[simp] theorem backing_instances : (s.backing kind).instances = s.instances := by cases kind <;> rfl

@[simp] theorem mounted_serial : s.mounted.serial = s.serial + 1 := rfl

@[simp] theorem placing_instances : (s.placing owner name kind displayName? props).instances =
    s.instances ++ [s.nextComponent owner name kind displayName? props] := by
  show (s.backing kind).instances ++ _ = _
  rw [backing_instances]

theorem nextComponent_kind : (s.nextComponent owner name kind displayName? props).kind ≠ .host := by
  show kind.toInstanceKind ≠ .host
  cases kind <;> decide

theorem nextComponent_backing? {n : Nat} :
    (s.nextComponent owner name kind displayName? props).backing? ≠ some (.element n) := by
  show s.nextObject? kind ≠ _
  cases kind <;> exact nofun

end RenderState

/-! ### Nodes -/

/-- Nodes outside the app are drawn as these trees. -/
inductive MarkupDrawn : List FixtureNode → RenderState → List ElementTree → RenderState → Prop
  | nothing {s : RenderState} : MarkupDrawn [] s [] s
  | text {x : String} {rest : List FixtureNode} {s t : RenderState} {more : List ElementTree} :
    MarkupDrawn rest s more t → MarkupDrawn (.text x :: rest) s (.text x :: more) t
  | element {tag : String} {attributes : List (String × String)} {text? : Option String}
    {rect? : Option Rect} {children rest : List FixtureNode} {s t u : RenderState}
    {content more : List ElementTree} :
    MarkupDrawn children (s.numbered attributes) content t → MarkupDrawn rest t more u →
    MarkupDrawn (.element tag attributes text? rect? children :: rest) s
      (.element (s.nextHead tag attributes rect? none) (leadingText text? ++ content) :: more) u

/-- Nodes of the app are drawn below an instance as these trees. -/
inductive Drawn : InstanceId → List FixtureNode → RenderState → List ElementTree → RenderState → Prop
  | nothing {owner : InstanceId} {s : RenderState} : Drawn owner [] s [] s
  | text {owner : InstanceId} {x : String} {rest : List FixtureNode} {s t : RenderState}
    {more : List ElementTree} :
    Drawn owner rest s more t → Drawn owner (.text x :: rest) s (.text x :: more) t
  | element {owner : InstanceId} {tag : String} {attributes : List (String × String)}
    {text? : Option String} {rect? : Option Rect} {children rest : List FixtureNode}
    {s t u : RenderState} {content more : List ElementTree} :
    Drawn s.nextInstance children (s.hosting owner tag attributes) content t →
    Drawn owner rest t more u →
    Drawn owner (.element tag attributes text? rect? children :: rest) s
      (.element (s.nextHead tag attributes rect? (some s.nextInstance))
        (leadingText text? ++ content) :: more) u
  | component {owner : InstanceId} {name : String} {kind : ComponentKind} {displayName? : Option String}
    {props : Json} {children rest : List FixtureNode} {s t u : RenderState}
    {trees more : List ElementTree} :
    Drawn s.nextInstance children (s.placing owner name kind displayName? props) trees t →
    Drawn owner rest t more u →
    Drawn owner (.component name kind displayName? props children :: rest) s (trees ++ more) u
  | portal {owner : InstanceId} {target : String} {children rest : List FixtureNode} {s t : RenderState}
    {more : List ElementTree} :
    Drawn owner rest (s.deferring owner target children) more t →
    Drawn owner (.portal target children :: rest) s more t

namespace Render

variable {s t : RenderState}

mutual

theorem markupNode_drawn : ∀ {node : FixtureNode} {rest : List FixtureNode} {s t u : RenderState}
    {trees more : List ElementTree}, markupNode node s = .ok (trees, t) → MarkupDrawn rest t more u →
      MarkupDrawn (node :: rest) s (trees ++ more) u
  | .text _, _, _, _, _, _, _, h, others => by
    obtain ⟨rfl, rfl⟩ := pure_eq_ok.mp h
    exact .text others
  | .element .., _, s, _, _, _, _, h, others => by
    rw [markupNode] at h
    obtain ⟨_, s', checked, h⟩ := bind_eq_ok.mp h
    obtain rfl := eq_of_checkTag checked
    obtain ⟨n, s₁, numbered, h⟩ := bind_eq_ok.mp h
    obtain ⟨content, s₂, inner, h⟩ := bind_eq_ok.mp h
    obtain ⟨rfl, rfl⟩ := pure_eq_ok.mp h
    cases numbered
    exact .element (markupNodes_drawn inner) others
  | .component .., _, _, _, _, _, _, h, _ => by rw [markupNode] at h; cases h
  | .portal .., _, _, _, _, _, _, h, _ => by rw [markupNode] at h; cases h

/-- Rendering nodes outside the app draws them. -/
theorem markupNodes_drawn : ∀ {nodes : List FixtureNode} {s t : RenderState} {trees : List ElementTree},
    markupNodes nodes s = .ok (trees, t) → MarkupDrawn nodes s trees t
  | [], _, _, _, h => by
    obtain ⟨rfl, rfl⟩ := pure_eq_ok.mp h
    exact .nothing
  | node :: rest, _, _, _, h => by
    rw [markupNodes] at h
    obtain ⟨trees, s₁, first, h⟩ := bind_eq_ok.mp h
    obtain ⟨more, s₂, second, h⟩ := bind_eq_ok.mp h
    obtain ⟨rfl, rfl⟩ := pure_eq_ok.mp h
    exact markupNode_drawn first (markupNodes_drawn second)

end

theorem componentBacking?_eq (kind : ComponentKind) (s : RenderState) :
    componentBacking? kind s = .ok (s.nextObject? kind, s.backing kind) := by
  cases kind <;> rfl

mutual

theorem appNode_drawn : ∀ {node : FixtureNode} {rest : List FixtureNode} {owner : InstanceId}
    {s t u : RenderState} {trees more : List ElementTree},
    appNode owner node s = .ok (trees, t) → Drawn owner rest t more u →
      Drawn owner (node :: rest) s (trees ++ more) u
  | .text _, _, _, _, _, _, _, _, h, others => by
    obtain ⟨rfl, rfl⟩ := pure_eq_ok.mp h
    exact .text others
  | .element .., _, owner, s, _, _, _, _, h, others => by
    rw [appNode] at h
    obtain ⟨_, s', checked, h⟩ := bind_eq_ok.mp h
    obtain rfl := eq_of_checkTag checked
    obtain ⟨n, s₁, numbered, h⟩ := bind_eq_ok.mp h
    obtain ⟨host, s₂, hosted, h⟩ := bind_eq_ok.mp h
    obtain ⟨content, s₃, inner, h⟩ := bind_eq_ok.mp h
    obtain ⟨rfl, rfl⟩ := pure_eq_ok.mp h
    cases numbered
    cases hosted
    exact .element (appNodes_drawn inner) others
  | .component _ kind _ _ _, _, owner, s, _, _, _, _, h, others => by
    rw [appNode] at h
    obtain ⟨b?, s₁, backed, h⟩ := bind_eq_ok.mp h
    obtain ⟨i, s₂, added, inner⟩ := bind_eq_ok.mp h
    rw [componentBacking?_eq] at backed
    cases backed
    cases added
    have same : (⟨(s.backing kind).instances.length⟩ : InstanceId) = s.nextInstance := by
      rw [backing_instances]
      rfl
    exact .component (same ▸ appNodes_drawn inner) others
  | .portal .., _, owner, s, _, _, _, _, h, others => by
    rw [appNode] at h
    obtain ⟨i, s₁, added, h⟩ := bind_eq_ok.mp h
    obtain ⟨_, s₂, later, h⟩ := bind_eq_ok.mp h
    obtain ⟨rfl, rfl⟩ := pure_eq_ok.mp h
    cases added
    cases later
    exact .portal others

/-- **Rendering nodes of the app draws them.** -/
theorem appNodes_drawn : ∀ {nodes : List FixtureNode} {owner : InstanceId} {s t : RenderState}
    {trees : List ElementTree}, appNodes owner nodes s = .ok (trees, t) → Drawn owner nodes s trees t
  | [], _, _, _, _, h => by
    obtain ⟨rfl, rfl⟩ := pure_eq_ok.mp h
    exact .nothing
  | node :: rest, owner, _, _, _, h => by
    rw [appNodes] at h
    obtain ⟨trees, s₁, first, h⟩ := bind_eq_ok.mp h
    obtain ⟨more, s₂, second, h⟩ := bind_eq_ok.mp h
    obtain ⟨rfl, rfl⟩ := pure_eq_ok.mp h
    exact appNode_drawn first (appNodes_drawn second)

end

/-! ### Portals -/

/-- The target is the body or an element that is known by its id, and looking it up changes nothing. -/
theorem targetOf_cases {body n : Nat} {target : String} (h : targetOf body target s = .ok (n, t)) :
    t = s ∧ (n = body ∨ (target, n) ∈ s.ids) := by
  unfold targetOf at h
  split at h
  · cases h
    exact ⟨rfl, .inl rfl⟩
  · split at h
    · next found =>
      cases h
      exact ⟨rfl, .inr (Fields.mem_of_find? found)⟩
    · cases h

/-- The run: what drawing one portal into its target keeps, drawing all of them does. -/
theorem portals_keeps {body : Nat} {Inv : ElementTree → RenderState → Prop}
    (step : ∀ {document s portal rest n trees t}, Inv document s → s.pending = portal :: rest →
      (n = body ∨ (portal.target, n) ∈ s.ids) →
      Drawn portal.owner portal.children { s with pending := rest } trees t →
      Inv (document.appendTo n trees) t) :
    ∀ {count : Nat} {document result : ElementTree} {s t : RenderState}, Inv document s →
      portals body count document s = .ok (result, t) → Inv result t
  | 0, _, _, _, _, start, h => by
    obtain ⟨rfl, rfl⟩ := pure_eq_ok.mp h
    exact start
  | count + 1, document, result, s, t, start, h => by
    rw [portals] at h
    obtain ⟨portal?, s₁, next, h⟩ := bind_eq_ok.mp h
    unfold nextPending at next
    split at next
    · cases next
      obtain ⟨rfl, rfl⟩ := pure_eq_ok.mp h
      exact start
    · next portal rest pending =>
      cases next
      obtain ⟨n, s₂, target, h⟩ := bind_eq_ok.mp h
      obtain ⟨trees, s₃, inner, others⟩ := bind_eq_ok.mp h
      obtain ⟨rfl, found⟩ := targetOf_cases target
      exact portals_keeps step (step start pending found (appNodes_drawn inner)) others

/-! ### Documents -/

/-- The document with some markup and the app in its mount. -/
def rootDocument (mount : Nat) (markup app : List ElementTree) : ElementTree :=
  frame 0 "html" [] [frame 1 "head" [] [],
    frame 2 "body" [] (markup ++ [frame mount "div" [("id", "root")] app])]

end Render

/-- A document is drawn as its markup, then its app and then the portals. -/
theorem Fixture.renderDocument_eq (f : Fixture) : f.renderDocument ⟨0, [], [], 0, []⟩ =
    (markupNodes f.markup ⟨3, [], [], 0, []⟩).bind fun outside =>
      (appNodes outside.2.nextInstance f.app outside.2.mounted).bind fun inside =>
        portals 2 (FixtureNode.portalCountAll f.app)
          (rootDocument outside.2.serial outside.1 inside.1) inside.2 := rfl

/-- **Rendering draws the markup, then the app, and then portals into what stands by then.** -/
theorem Fixture.renderDocument_cases {f : Fixture} {document : ElementTree} {t : RenderState}
    (h : f.renderDocument ⟨0, [], [], 0, []⟩ = .ok (document, t)) :
    ∃ markup s app s', MarkupDrawn f.markup ⟨3, [], [], 0, []⟩ markup s ∧
      Drawn s.nextInstance f.app s.mounted app s' ∧
      portals 2 (FixtureNode.portalCountAll f.app) (rootDocument s.serial markup app) s' =
        .ok (document, t) := by
  rw [renderDocument_eq] at h
  obtain ⟨⟨markup, s⟩, outside, h⟩ := bind_ok_iff.mp h
  obtain ⟨⟨app, s'⟩, inside, last⟩ := bind_ok_iff.mp h
  exact ⟨markup, s, app, s', markupNodes_drawn outside, appNodes_drawn inside, last⟩

end PageQuery
