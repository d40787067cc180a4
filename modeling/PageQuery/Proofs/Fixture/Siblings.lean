/-
# The order of siblings

When siblings change places, what is in them goes with them: paths are renamed, and below a renamed path
there is what was below the path (`FixtureNode.Relocates`). Which portals are resolved does not depend on
that, and neither does whether tags are tag names. So what renders in one order of siblings renders in
every order in which targets are in time.

Not every order is such a one. Portals have their turns in the order in which they are declared, and the
first of two portals side by side may want an element that only comes with the second.

Key definitions: `FixtureNode.Swapped`, `FixtureNode.Relocates`, `Fixture.Reordered`, `Fixture.Sound`,
`Fixture.TargetInTime`.
Key theorems: `FixtureNode.Swapped.relocates`, `FixtureNode.Relocates.resolved`, `Fixture.Reordered.sound`,
`Fixture.Sound.render`, `Fixture.render_targets`.
-/
import Mathlib.Logic.Equiv.Basic
import Mathlib.Logic.Relation
import PageQuery.Proofs.Fixture.Targets

namespace PageQuery

open FixtureNode

namespace FixtureNode

/-! ### Nodes in another order -/

/-- A node with other children. -/
def withChildren : FixtureNode → List FixtureNode → FixtureNode
  | .text s, _ => .text s
  | .component name kind displayName? props _, children => .component name kind displayName? props children
  | .portal target _, children => .portal target children
  | .element tag attributes text? rect? _, children => .element tag attributes text? rect? children

/-- A node without what is in it. -/
def bare (node : FixtureNode) : FixtureNode := node.withChildren []

/-- Two neighbours somewhere in a tree have changed places. -/
inductive Swapped : FixtureNode → FixtureNode → Prop
  | here {node first second : FixtureNode} {before rest : List FixtureNode} :
    node.children = before ++ first :: second :: rest →
    Swapped node (node.withChildren (before ++ second :: first :: rest))
  | inside {node child child' : FixtureNode} {before rest : List FixtureNode} :
    node.children = before ++ child :: rest → Swapped child child' →
    Swapped node (node.withChildren (before ++ child' :: rest))

section swapping

variable {x y node node' : FixtureNode} {nodes : List FixtureNode}

@[simp] theorem withChildren_children (node : FixtureNode) : node.withChildren node.children = node := by
  cases node <;> rfl

theorem withChildren_withChildren (nodes more : List FixtureNode) (node : FixtureNode) :
    (node.withChildren nodes).withChildren more = node.withChildren more := by
  cases node <;> rfl

/-- What has children can have others. -/
theorem children_withChildren (some : node.children ≠ []) : (node.withChildren nodes).children = nodes := by
  cases node with
  | text => exact absurd rfl some
  | component => rfl
  | portal => rfl
  | element => rfl

@[simp]
theorem bare_withChildren : (node.withChildren nodes).bare = node.bare := withChildren_withChildren _ _ _

theorem Swapped.symm (h : Swapped x y) : Swapped y x := by
  induction h with
  | @here node first second before rest split =>
    have split' : (node.withChildren (before ++ second :: first :: rest)).children =
        before ++ second :: first :: rest := children_withChildren (by simp [split])
    have back := Swapped.here split'
    rwa [withChildren_withChildren, ← split, withChildren_children] at back
  | @inside node child child' before rest split _ ih =>
    have split' : (node.withChildren (before ++ child' :: rest)).children = before ++ child' :: rest :=
      children_withChildren (by simp [split])
    have back := Swapped.inside split' ih
    rwa [withChildren_withChildren, ← split, withChildren_children] at back

/-- What a node is by itself does not depend on what is in it. -/
theorem eq_of_bare_eq (same : node.bare = node'.bare) :
    node.isPortal = node'.isPortal ∧ node.id? = node'.id? ∧ (node.HasTagName ↔ node'.HasTagName) := by
  cases node <;> cases node' <;> cases same <;> exact ⟨rfl, rfl, Iff.rfl⟩

theorem eq_portal_of_bare_eq {target : String} {children : List FixtureNode}
    (same : node.bare = (portal target children).bare) : node = .portal target node.children := by
  cases node <;> cases same
  rfl

end swapping

/-! ### Paths in another order -/

/-- Paths are renamed: what leads to a node goes on to do so. -/
structure Renames (σ : List Nat → List Nat) : Prop where
  take : ∀ p n, (σ p).take n = σ (p.take n)
  onto : ∀ q, ∃ p, σ p = q

/-- The nodes of a tree stand in another one, but for what is in them, below the same nodes. -/
structure Relocates (σ : List Nat → List Nat) (x y : FixtureNode) : Prop extends Renames σ where
  bare : ∀ p, (y.at? (σ p)).map bare = (x.at? p).map bare

section relocating

variable {σ τ : List Nat → List Nat} {x y z node : FixtureNode} {p : List Nat}

theorem Renames.refl : Renames id := ⟨fun _ _ => rfl, fun q => ⟨q, rfl⟩⟩

theorem Relocates.refl (x : FixtureNode) : Relocates id x x := ⟨.refl, fun _ => rfl⟩

theorem Relocates.trans (h : Relocates σ x y) (h' : Relocates τ y z) : Relocates (τ ∘ σ) x z where
  take p n := by rw [Function.comp, h'.take, h.take, Function.comp]
  onto q := by
    obtain ⟨p, rfl⟩ := h'.onto q
    obtain ⟨p, rfl⟩ := h.onto p
    exact ⟨p, rfl⟩
  bare p := (h'.bare (σ p)).trans (h.bare p)

/-- The path of a node below another place, in a child that may be changed itself. -/
def renamed (ρ : Nat → Nat) (τ : Nat → List Nat → List Nat) : List Nat → List Nat
  | [] => []
  | k :: rest => ρ k :: τ k rest

/-- A tree is relocated when its children are. -/
theorem Relocates.of_children (ρ : Nat → Nat) (τ : Nat → List Nat → List Nat) (same : y.bare = x.bare)
    (onto : ∀ j, ∃ k, ρ k = j) (each : ∀ k, Renames (τ k))
    (moved : ∀ k, Option.Rel (Relocates (τ k)) x.children[k]? y.children[ρ k]?) :
    Relocates (renamed ρ τ) x y where
  take p n := by
    cases p with
    | nil => simp [renamed]
    | cons k rest =>
      cases n with
      | zero => rfl
      | succ n => simp [renamed, (each k).take]
  onto q := by
    cases q with
    | nil => exact ⟨[], rfl⟩
    | cons j rest =>
      obtain ⟨k, rfl⟩ := onto j
      obtain ⟨rest, rfl⟩ := (each k).onto rest
      exact ⟨k :: rest, rfl⟩
  bare p := by
    cases p with
    | nil => exact congrArg some same
    | cons k rest =>
      have inside := moved k
      rw [renamed, at?, at?]
      generalize x.children[k]? = child, y.children[ρ k]? = child' at inside ⊢
      cases inside with
      | some inner => exact inner.bare rest
      | none => rfl

/-- Neighbours in a list that change places. -/
theorem getElem?_swap {α : Type} (before rest : List α) (first second : α) (k : Nat) :
    (before ++ second :: first :: rest)[Equiv.swap before.length (before.length + 1) k]? =
      (before ++ first :: second :: rest)[k]? := by
  by_cases left : k = before.length
  · rw [left, Equiv.swap_apply_left]
    simp
  by_cases right : k = before.length + 1
  · rw [right, Equiv.swap_apply_right]
    simp
  rw [Equiv.swap_apply_of_ne_of_ne left right]
  rcases Nat.lt_or_ge k before.length with low | high
  · rw [List.getElem?_append_left low, List.getElem?_append_left low]
  · obtain ⟨j, rfl⟩ : ∃ j, k = before.length + (j + 2) := ⟨k - before.length - 2, by omega⟩
    rw [List.getElem?_append_right high, List.getElem?_append_right high, Nat.add_sub_cancel_left]
    rfl

/-- What stands beside a child that is changed. -/
theorem getElem?_beside {α : Type} {before rest : List α} {child child' : α} {k : Nat}
    (other : k ≠ before.length) : (before ++ child' :: rest)[k]? = (before ++ child :: rest)[k]? := by
  rcases Nat.lt_or_gt_of_ne other with low | high
  · rw [List.getElem?_append_left low, List.getElem?_append_left low]
  · obtain ⟨j, rfl⟩ : ∃ j, k = before.length + (j + 1) := ⟨k - before.length - 1, by omega⟩
    rw [List.getElem?_append_right (Nat.le_add_right _ _), List.getElem?_append_right (Nat.le_add_right _ _),
      Nat.add_sub_cancel_left]
    rfl

/-- **Neighbours that change places take with them what is in them.** -/
theorem Swapped.relocates (h : Swapped x y) : ∃ σ, Relocates σ x y := by
  induction h with
  | @here node first second before rest split =>
    refine ⟨_, .of_children (Equiv.swap before.length (before.length + 1)) (fun _ => id)
      bare_withChildren (Equiv.surjective _) (fun _ => .refl) fun k => ?_⟩
    rw [children_withChildren (by simp [split]), getElem?_swap, ← split]
    cases node.children[k]? with
    | none => exact .none
    | some child => exact .some (.refl child)
  | @inside node child child' before rest split _ ih =>
    obtain ⟨σ, moved⟩ := ih
    refine ⟨_, .of_children id (fun k => if k = before.length then σ else id)
      bare_withChildren (fun j => ⟨j, rfl⟩) (fun k => ?_) fun k => ?_⟩
    · split
      · exact moved.toRenames
      · exact .refl
    · rw [children_withChildren (by simp [split]), split, id]
      split
      · next same =>
        rw [same, List.getElem?_append_right (Nat.le_refl _), List.getElem?_append_right (Nat.le_refl _),
          Nat.sub_self]
        exact .some moved
      · next other =>
        have beside : (before ++ child' :: rest)[k]? = (before ++ child :: rest)[k]? := getElem?_beside other
        rw [beside]
        cases (before ++ child :: rest)[k]? with
        | none => exact .none
        | some inner => exact .some (.refl inner)

theorem relocates_of_swaps (h : Relation.ReflTransGen Swapped x y) : ∃ σ, Relocates σ x y := by
  induction h with
  | refl => exact ⟨id, .refl x⟩
  | tail _ last ih =>
    obtain ⟨σ, moved⟩ := ih
    obtain ⟨τ, moved'⟩ := last.relocates
    exact ⟨τ ∘ σ, moved.trans moved'⟩

/-! ### What does not depend on the order -/

/-- A node of the tree in another order is a node of the tree, but for what is in it. -/
theorem Relocates.exists_of_at? (h : Relocates σ x y) (there : y.at? (σ p) = some node) :
    ∃ node', x.at? p = some node' ∧ node'.bare = node.bare := by
  have same := h.bare p
  rw [there, Option.map_some] at same
  exact Option.map_eq_some_iff.mp same.symm

theorem Relocates.exists_at? (h : Relocates σ x y) (here : x.at? p = some node) :
    ∃ node', y.at? (σ p) = some node' ∧ node'.bare = node.bare := by
  have same := h.bare p
  rw [here, Option.map_some] at same
  exact Option.map_eq_some_iff.mp same

/-- The portals around a node go with it. -/
theorem Relocates.encloses {outer : List Nat} (h : Relocates σ x y) (around : y.Encloses outer (σ p)) :
    ∃ inner, σ inner = outer ∧ x.Encloses inner p := by
  obtain ⟨within, differ, portal, there, isPortal⟩ := around
  have cut : outer = σ (p.take outer.length) := by rw [← h.take, ← List.prefix_iff_eq_take.mp within]
  refine ⟨p.take outer.length, cut.symm, List.take_prefix _ _, fun same => ?_, ?_⟩
  · rw [same] at cut
    exact differ cut
  · rw [cut] at there
    obtain ⟨portal', here, same⟩ := h.exists_of_at? there
    exact ⟨portal', here, (eq_of_bare_eq same).1.trans isPortal⟩

/-- **A portal that is resolved stays so in any order.** -/
theorem Relocates.resolved (h : Relocates σ x y) (resolved : x.Resolved p) : y.Resolved (σ p) := by
  have portal : ∀ {path : List Nat} {target : String} {children : List FixtureNode},
      x.at? path = some (.portal target children) →
        ∃ children', y.at? (σ path) = some (.portal target children') := by
    intro path target children here
    obtain ⟨node, there, same⟩ := h.exists_at? here
    exact ⟨node.children, there.trans (congrArg some (eq_portal_of_bare_eq same))⟩
  induction resolved with
  | @body path children here _ ih =>
    obtain ⟨children', there⟩ := portal here
    refine .body there fun outer around => ?_
    obtain ⟨inner, rfl, within⟩ := h.encloses around
    exact ih inner within
  | @element path place target children node here _ stands id _ ih ih' =>
    obtain ⟨children', there⟩ := portal here
    obtain ⟨node', stands', same⟩ := h.exists_at? stands
    refine .element there (fun outer around => ?_) stands' ((eq_of_bare_eq same).2.1.trans id)
      fun outer around => ?_
    · obtain ⟨inner, rfl, within⟩ := h.encloses around
      exact ih inner within
    · obtain ⟨inner, rfl, within⟩ := h.encloses around
      exact ih' inner within

end relocating

end FixtureNode

namespace Fixture

variable {f g : Fixture}

/-- Two fixtures are the same but for the order of siblings in the app. -/
structure Reordered (f g : Fixture) : Prop where
  markup : g.markup = f.markup
  app : Relation.ReflTransGen Swapped f.mount g.mount

theorem Reordered.symm (h : f.Reordered g) : g.Reordered f :=
  ⟨h.markup.symm, Relation.ReflTransGen.mono (fun _ _ => Swapped.symm) _ _ h.app.swap⟩

/-- The document with another element for the mount. -/
def framed (markup : List FixtureNode) (mount : FixtureNode) : FixtureNode :=
  .element "html" [] none none [head, .element "body" [] none none (markup ++ [mount])]

theorem swapped_framed {x y : FixtureNode} (markup : List FixtureNode) (swapped : Swapped x y) :
    Swapped (framed markup x) (framed markup y) := by
  have body : Swapped (.element "body" [] none none (markup ++ [x]))
      (.element "body" [] none none (markup ++ [y])) := .inside rfl swapped
  have split : (framed markup x).children = [head] ++ .element "body" [] none none (markup ++ [x]) :: [] := rfl
  exact .inside split body

theorem Reordered.relocates (h : f.Reordered g) : ∃ σ, Relocates σ f.document g.document := by
  have same : g.document = framed f.markup g.mount := by
    rw [← h.markup]
    rfl
  rw [same]
  exact relocates_of_swaps (Relation.ReflTransGen.lift (framed f.markup) (fun _ _ => swapped_framed f.markup)
    _ _ h.app)

/-- The fixture is proper and all portals are resolved. -/
structure Sound (f : Fixture) : Prop where
  proper : f.Proper
  resolved : ∀ path target children,
    f.document.at? path = some (.portal target children) → f.document.Resolved path

/-- **Whether a fixture is sound does not depend on the order of siblings.** -/
theorem Reordered.sound (h : f.Reordered g) (sound : f.Sound) : g.Sound := by
  obtain ⟨σ, moved⟩ := h.relocates
  refine ⟨⟨fun path node there => ?_, h.markup ▸ sound.proper.plain⟩,
    fun path target children there => ?_⟩
  · obtain ⟨path, rfl⟩ := moved.onto path
    obtain ⟨node', here, same⟩ := moved.exists_of_at? there
    exact (eq_of_bare_eq same).2.2.mp (sound.proper.named path node' here)
  · obtain ⟨path, rfl⟩ := moved.onto path
    obtain ⟨node', here, same⟩ := moved.exists_of_at? there
    rw [eq_portal_of_bare_eq same] at here
    exact moved.resolved (sound.resolved path target _ here)

/-- A portal to the target that is resolved has its turn when the target is there. -/
def TargetInTime (f : Fixture) (target : String) : Prop := ∀ path children,
  f.document.at? path = some (.portal target children) → f.document.Resolved path →
    f.document.InTime path target

/-- A target whose elements stand in no portals is there from the first turn on. -/
theorem targetInTime_of_outside {target : String} (outside : ∀ place node outer,
    f.document.at? place = some node → node.id? = some target → ¬f.document.Encloses outer place) :
    f.TargetInTime target := by
  intro path children here resolved
  rcases resolved.exists_id here with body | ⟨place, node, stands, id⟩
  · exact .inl body
  · exact .inr ⟨place, node, stands, id, fun outer around => absurd around (outside place node outer stands id)⟩

/-- A fixture that renders is sound. -/
theorem sound_of_render (rendered : ∃ r, f.render = .ok r) : f.Sound := by
  obtain ⟨r, ok⟩ := rendered
  exact ⟨(f.render_ok_iff.mp ⟨r, ok⟩).1, fun _ _ _ here => resolved_of_render ok here⟩

/-- **A sound fixture renders if its targets are in time.** -/
theorem Sound.render (sound : f.Sound) (inTime : ∀ target, f.TargetInTime target) :
    ∃ r, f.render = .ok r :=
  f.render_ok_iff.mpr ⟨sound.proper, fun path target children here =>
    inTime target path children here (sound.resolved path target children here)⟩

/-- **Targets in time.** Then rendering reports an unknown target only if a portal to it is not resolved,
and what renders in some order of siblings renders in every other one. -/
theorem render_targets (f : Fixture) :
    (∀ target, f.TargetInTime target → f.render = .error (.unknownPortalTarget target) →
      ∃ path children, f.document.at? path = some (.portal target children) ∧ ¬f.document.Resolved path) ∧
    ∀ g : Fixture, f.Reordered g → (∀ target, g.TargetInTime target) →
      (∃ r, f.render = .ok r) → ∃ r, g.render = .ok r := by
  refine ⟨fun target inTime unknown => ?_, fun g reordered inTime rendered => ?_⟩
  · obtain ⟨path, children, here, late⟩ := exists_of_unknownPortalTarget unknown
    exact ⟨path, children, here, fun resolved => late (inTime path children here resolved)⟩
  · exact (reordered.sound (sound_of_render rendered)).render inTime

/-- An element with an id. -/
def box : FixtureNode := .element "div" [("id", "x")] none none []

/-- A portal to no element. -/
def noBox : Fixture := ⟨[], [.portal "y" []]⟩

/-- A portal to an element that stands behind it. -/
def nextBox : Fixture := ⟨[], [.portal "x" [], box]⟩

/-- A target that is missing, and one that changes places with its portal. -/
theorem render_targets_nextBox : (∃ path children, noBox.document.at? path = some (.portal "y" children) ∧
    ¬noBox.document.Resolved path) ∧ ∃ r, nextBox.render = .ok r := by
  constructor
  · have turn : noBox.document.Turn [([1, 0, 0], .portal "y" [])] []
        [([], noBox.document), ([0], head), ([1], noBox.body), ([1, 0], noBox.mount),
          ([1, 0, 0], .portal "y" [])] := (Turn.start noBox.document).next
    refine (render_targets noBox).1 "y" (fun path children here resolved => ?_) (by cbv)
    obtain ⟨place, node, stands, id⟩ := (resolved.exists_id here).resolve_left (by decide)
    have others : ∀ d ∈ [([], noBox.document), ([0], head), ([1], noBox.body), ([1, 0], noBox.mount),
        ([1, 0, 0], .portal "y" [])], d.2.id? ≠ some "y" := by decide
    exact absurd id (others _ (turn.mem_of_at? stands))
  · have turn : nextBox.document.Turn [([1, 0, 0], .portal "x" [])] []
        [([], nextBox.document), ([0], head), ([1], nextBox.body), ([1, 0], nextBox.mount),
          ([1, 0, 0], .portal "x" []), ([1, 0, 1], box)] := (Turn.start nextBox.document).next
    have split : (mount ⟨[], [box, .portal "x" []]⟩).children = [] ++ box :: .portal "x" [] :: [] := rfl
    refine (render_targets ⟨[], [box, .portal "x" []]⟩).2 nextBox ⟨rfl, .single (.here split)⟩
      (fun target => targetInTime_of_outside fun place node outer stands _ around => ?_) ⟨_, by cbv⟩
    obtain ⟨portal, there, isPortal⟩ := around.2.2
    obtain ⟨rfl, -⟩ : outer = [1, 0, 0] ∧ portal = .portal "x" [] := by
      simpa using turn.mem_done_of_at? there isPortal
    have empty : ∀ d ∈ [([], nextBox.document), ([0], head), ([1], nextBox.body), ([1, 0], nextBox.mount),
        ([1, 0, 0], .portal "x" []), ([1, 0, 1], box)], [1, 0, 0] <+: d.1 → [1, 0, 0] = d.1 := by decide
    exact around.2.1 (empty _ (turn.mem_of_at? stands) around.1)

/-- The target of the first portal comes in the second one. -/
def lateBox : Fixture := ⟨[], [.portal "x" [.text "late"], .portal "body" [box]]⟩

/-- The target of the second portal comes in the first one. -/
def earlyBox : Fixture := ⟨[], [.portal "body" [box], .portal "x" [.text "late"]]⟩

/-- A target that is not there in time, though its portal is resolved. -/
theorem render_targets_late : lateBox.render = .error (.unknownPortalTarget "x") ∧
    (∀ path children, lateBox.document.at? path = some (.portal "x" children) →
      lateBox.document.Resolved path) ∧
    earlyBox.Reordered lateBox ∧ ∃ r, earlyBox.render = .ok r := by
  have turn : lateBox.document.Turn
      [([1, 0, 0], .portal "x" [.text "late"]), ([1, 0, 1], .portal "body" [box])] [] _ :=
    (Turn.start lateBox.document).next.next
  have outer : ∀ {p path}, lateBox.document.Encloses p path → p = [1, 0, 0] ∨ p = [1, 0, 1] := by
    rintro p path ⟨-, -, portal, there, isPortal⟩
    rcases (by simpa using turn.mem_done_of_at? there isPortal) with ⟨first, -⟩ | ⟨second, -⟩
    · exact .inl first
    · exact .inr second
  have second : lateBox.document.Resolved [1, 0, 1] := by
    refine .body rfl fun p around => ?_
    rcases outer around with rfl | rfl
    · exact absurd around.1 (by decide)
    · exact absurd rfl around.2.1
  have split : earlyBox.mount.children = [] ++ .portal "body" [box] :: .portal "x" [.text "late"] :: [] := rfl
  refine ⟨by cbv, fun path children here => ?_, ⟨rfl, .single (.here split)⟩, _, by cbv⟩
  obtain ⟨rfl, -⟩ : path = [1, 0, 0] ∧ children = [.text "late"] := by
    simpa using turn.mem_done_of_at? here rfl
  have place : lateBox.document.at? [1, 0, 1, 0] = some box := rfl
  refine .element here (fun p around => ?_) place rfl fun p around => ?_
  · rcases outer around with rfl | rfl
    · exact absurd rfl around.2.1
    · exact absurd around.1 (by decide)
  · rcases outer around with rfl | rfl
    · exact absurd around.1 (by decide)
    · exact second

end Fixture

end PageQuery
