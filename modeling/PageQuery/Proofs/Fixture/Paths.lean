/-
# Where the nodes of a fixture are declared

A fixture declares one tree: the frame of every page with the markup in its body and, behind it, the
mount that holds the app. A node of this tree is told by its path, the places of the nodes that lead to
it from the top, each among the children of the one before.

Drawing a node meets what is declared in it in order, a node before its children, but goes past
portals: what is in a portal is met when the portal's turn comes. So the nodes are met in rounds, and
the order of all of them is told by an equation (`FixtureNode.MetInOrder`). Along it every node is met
once, and the nodes right in one node are met in the order in which they are declared.

Key definitions: `FixtureNode.at?`, `FixtureNode.met`, `FixtureNode.shown`, `FixtureNode.MetInOrder`,
`FixtureNode.Turn`, `Fixture.document`.
Key theorems: `FixtureNode.metAll_sublist`, `FixtureNode.no_portal_between`, `FixtureNode.Turn.next`,
`FixtureNode.Turn.mem_of_at?`.
-/
import Mathlib.Data.List.Induction
import Mathlib.Data.List.Nodup
import PageQuery.Fixture.Arena

namespace PageQuery

/-- A node of a fixture with its path. -/
abbrev DeclaredNode := List Nat × FixtureNode

namespace FixtureNode

/-! ### Nodes -/

/-- The nodes declared right in a node. -/
def children : FixtureNode → List FixtureNode
  | .text _ => []
  | .component _ _ _ _ children => children
  | .portal _ children => children
  | .element _ _ _ _ children => children

def isText : FixtureNode → Bool
  | .text _ => true
  | _ => false

def isPortal : FixtureNode → Bool
  | .portal _ _ => true
  | _ => false

def isElement : FixtureNode → Bool
  | .element _ _ _ _ _ => true
  | _ => false

/-- The id that an element declares. -/
def id? : FixtureNode → Option String
  | .element _ attributes _ _ _ => Fields.find? "id" attributes
  | _ => none

/-- Where a portal shows its children: in the body, or else in the element of that id. -/
def target? : FixtureNode → Option String
  | .portal target _ => some target
  | _ => none

mutual

/-- Induction on the children of nodes. -/
theorem ofChildren {motive : FixtureNode → Prop}
    (step : ∀ node : FixtureNode, (∀ child ∈ node.children, motive child) → motive node) :
    ∀ node, motive node
  | .text _ => step _ nofun
  | .component _ _ _ _ children => step _ (ofAllChildren step children)
  | .portal _ children => step _ (ofAllChildren step children)
  | .element _ _ _ _ children => step _ (ofAllChildren step children)

theorem ofAllChildren {motive : FixtureNode → Prop}
    (step : ∀ node : FixtureNode, (∀ child ∈ node.children, motive child) → motive node) :
    ∀ nodes : List FixtureNode, ∀ child ∈ nodes, motive child
  | [] => nofun
  | node :: rest => List.forall_mem_cons.mpr ⟨ofChildren step node, ofAllChildren step rest⟩

end

/-- The node at a path from a node. -/
def at? : FixtureNode → List Nat → Option FixtureNode
  | node, [] => some node
  | node, k :: rest => (node.children[k]?).bind fun child => at? child rest

@[simp] theorem at?_append (p q : List Nat) : ∀ node : FixtureNode,
    node.at? (p ++ q) = (node.at? p).bind fun inner => inner.at? q := by
  induction p with
  | nil => exact fun _ => rfl
  | cons k rest ih =>
    intro node
    rw [List.cons_append, at?, at?, Option.bind_assoc]
    exact congrArg _ (funext ih)

theorem at?_concat (node : FixtureNode) (p : List Nat) (k : Nat) :
    node.at? (p ++ [k]) = (node.at? p).bind fun inner => inner.children[k]? := by
  rw [at?_append]
  refine congrArg _ (funext fun inner => ?_)
  rw [at?]
  cases inner.children[k]? <;> rfl

mutual

/-- The nodes that are met when a node is drawn, itself first. -/
def met (path : List Nat) : FixtureNode → List DeclaredNode
  | .text s => [(path, .text s)]
  | .component name kind displayName? props children =>
    (path, .component name kind displayName? props children) :: metAll path 0 children
  | .portal target children => [(path, .portal target children)]
  | .element tag attributes text? rect? children =>
    (path, .element tag attributes text? rect? children) :: metAll path 0 children

/-- The nodes that are met when nodes are drawn which stand in a node from a place on. -/
def metAll (path : List Nat) (place : Nat) : List FixtureNode → List DeclaredNode
  | [] => []
  | node :: rest => met (path ++ [place]) node ++ metAll path (place + 1) rest

end

/-- The nodes that stand in a node from a place on, with their paths. -/
def rightIn (path : List Nat) (place : Nat) : List FixtureNode → List DeclaredNode
  | [] => []
  | node :: rest => (path ++ [place], node) :: rightIn path (place + 1) rest

mutual

/-- What a node shows where it stands. A component shows what its children do, a portal nothing. -/
def shown (path : List Nat) : FixtureNode → List (ContentItem (List Nat))
  | .text s => [.text s]
  | .component _ _ _ _ children => shownAll path 0 children
  | .portal _ _ => []
  | .element _ _ _ _ _ => [.element path]

def shownAll (path : List Nat) (place : Nat) : List FixtureNode → List (ContentItem (List Nat))
  | [] => []
  | node :: rest => shown (path ++ [place]) node ++ shownAll path (place + 1) rest

end

/-- What an element shows in itself: its text and then what its children do. -/
def ownContent (path : List Nat) : FixtureNode → List (ContentItem (List Nat))
  | .element _ _ text? _ children => text?.toList.map .text ++ shownAll path 0 children
  | node => shownAll path 0 node.children

/-! ### The nodes that are met -/

section meeting

variable {path : List Nat} {place : Nat} {node top : FixtureNode} {nodes : List FixtureNode}
  {d : DeclaredNode}

/-- The nodes met in a node, a portal apart, are those met in its children. -/
theorem met_eq (path : List Nat) (node : FixtureNode) :
    met path node = (path, node) :: if node.isPortal then [] else metAll path 0 node.children := by
  cases node <;> rfl

theorem metAll_append (first second : List FixtureNode) (place : Nat) : metAll path place (first ++ second) =
    metAll path place first ++ metAll path (place + first.length) second := by
  induction first generalizing place with
  | nil => rfl
  | cons node rest ih =>
    rw [List.cons_append, metAll, metAll, ih, List.append_assoc, List.length_cons,
      show place + 1 + rest.length = place + (rest.length + 1) by omega]

theorem shownAll_append (first second : List FixtureNode) (place : Nat) :
    shownAll path place (first ++ second) =
      shownAll path place first ++ shownAll path (place + first.length) second := by
  induction first generalizing place with
  | nil => rfl
  | cons node rest ih =>
    rw [List.cons_append, shownAll, shownAll, ih, List.append_assoc, List.length_cons,
      show place + 1 + rest.length = place + (rest.length + 1) by omega]

theorem mem_metAll_iff : ∀ {nodes : List FixtureNode} {place : Nat}, d ∈ metAll path place nodes ↔
    ∃ j child, nodes[j]? = some child ∧ d ∈ met (path ++ [place + j]) child
  | [], place => by simp [metAll]
  | node :: rest, place => by
    rw [metAll, List.mem_append, mem_metAll_iff]
    have shift : ∀ j, place + 1 + j = place + (j + 1) := fun j => by omega
    constructor
    · rintro (first | ⟨j, child, here, mem⟩)
      · exact ⟨0, node, rfl, first⟩
      · exact ⟨j + 1, child, here, shift j ▸ mem⟩
    · rintro ⟨j, child, here, mem⟩
      cases j with
      | zero => exact .inl (by cases here; exact mem)
      | succ j => exact .inr ⟨j, child, here, (shift j).symm ▸ mem⟩

/-- What is met in a node is the node or met in one of its children, if it is no portal. -/
theorem mem_met_iff : d ∈ met path node ↔ d = (path, node) ∨ node.isPortal = false ∧
    ∃ (j : Nat) (child : FixtureNode), node.children[j]? = some child ∧ d ∈ met (path ++ [j]) child := by
  rw [met_eq, List.mem_cons]
  cases node.isPortal with
  | true => simp
  | false => simp [mem_metAll_iff]

/-- What is met in a node is declared there. -/
theorem prefix_of_mem_met (mem : d ∈ met path node) : path <+: d.1 := by
  induction node using ofChildren generalizing path with
  | step node ih =>
    rcases mem_met_iff.mp mem with rfl | ⟨-, j, child, here, mem⟩
    · exact List.prefix_refl _
    · exact (List.prefix_append path [j]).trans (ih child (List.mem_of_getElem? here) mem)

theorem prefix_of_mem_metAll (mem : d ∈ metAll path place nodes) :
    ∃ j < nodes.length, path ++ [place + j] <+: d.1 := by
  obtain ⟨j, child, here, mem⟩ := mem_metAll_iff.mp mem
  exact ⟨j, (List.getElem?_eq_some_iff.mp here).1, prefix_of_mem_met mem⟩

/-- What is met in the children of a node stands strictly below it. -/
theorem strictly_below (mem : d ∈ metAll path place nodes) : path <+: d.1 ∧ path.length < d.1.length := by
  obtain ⟨j, -, below⟩ := prefix_of_mem_metAll mem
  have longer := below.length_le
  rw [List.length_append, List.length_singleton] at longer
  exact ⟨(List.prefix_append _ _).trans below, longer⟩

/-- What is met in a node stands where its path says. -/
theorem at?_of_mem_met (here : top.at? path = some node) (mem : d ∈ met path node) :
    top.at? d.1 = some d.2 := by
  induction node using ofChildren generalizing path with
  | step node ih =>
    rcases mem_met_iff.mp mem with rfl | ⟨-, j, child, inside, mem⟩
    · exact here
    · refine ih child (List.mem_of_getElem? inside) ?_ mem
      rw [at?_concat, here, Option.bind_some, inside]

theorem at?_of_mem_metAll (here : top.at? path = some node) (mem : d ∈ metAll path 0 node.children) :
    top.at? d.1 = some d.2 := by
  obtain ⟨j, child, inside, mem⟩ := mem_metAll_iff.mp mem
  refine at?_of_mem_met ?_ mem
  rw [at?_concat, here, Option.bind_some, Nat.zero_add, inside]

/-- Down a path, the first step below a node on the way is the one that the path takes. -/
theorem step_towards {p y : List Nat} {j : Nat} (low : path <+: p) (differ : path ≠ p) (high : p <+: y)
    (step : path ++ [j] <+: y) : path ++ [j] <+: p := by
  have longer : path.length < p.length :=
    Nat.lt_of_le_of_ne low.length_le fun e => differ (low.eq_of_length e)
  refine List.prefix_of_prefix_length_le step high ?_
  rwa [List.length_append, List.length_singleton, Nat.succ_le_iff]

/-- From a node on to what is met in it there is no portal on the way. -/
theorem no_portal_between (here : top.at? path = some node) (mem : d ∈ met path node) {p : List Nat}
    {portal : FixtureNode} (there : top.at? p = some portal) (isPortal : portal.isPortal = true)
    (low : path <+: p) (high : p <+: d.1) (differ : p ≠ d.1) : False := by
  induction node using ofChildren generalizing path with
  | step node ih =>
    rcases mem_met_iff.mp mem with rfl | ⟨bare, j, child, inside, mem⟩
    · exact differ (high.eq_of_length (Nat.le_antisymm high.length_le low.length_le))
    · by_cases same : path = p
      · rw [← same, here, Option.some.injEq] at there
        rw [there, isPortal] at bare
        cases bare
      · refine ih child (List.mem_of_getElem? inside) ?_ mem
          (step_towards low same high (prefix_of_mem_met mem))
        rw [at?_concat, here, Option.bind_some, inside]

/-- Below a node, be it a portal, there is no portal on the way to what is met in its children. -/
theorem no_portal_below (here : top.at? path = some node) (mem : d ∈ metAll path 0 node.children)
    {p : List Nat} {portal : FixtureNode} (there : top.at? p = some portal)
    (isPortal : portal.isPortal = true) (low : path <+: p) (strict : path ≠ p) (high : p <+: d.1)
    (differ : p ≠ d.1) : False := by
  obtain ⟨j, child, inside, mem⟩ := mem_metAll_iff.mp mem
  refine no_portal_between ?_ mem there isPortal
    (step_towards low strict high (prefix_of_mem_met mem)) high differ
  rw [at?_concat, here, Option.bind_some, Nat.zero_add, inside]

theorem met_sublist_metAll : ∀ {nodes : List FixtureNode} {place j : Nat} {child : FixtureNode},
    nodes[j]? = some child → (met (path ++ [place + j]) child).Sublist (metAll path place nodes)
  | node :: rest, place, 0, child, here => by
    cases here
    exact List.sublist_append_left _ _
  | node :: rest, place, j + 1, child, here => by
    have later := @met_sublist_metAll rest (place + 1) j child here
    rw [show place + 1 + j = place + (j + 1) by omega] at later
    exact later.trans (List.sublist_append_right _ _)

/-- What is met in a node that is met, a portal apart, is met in that order. -/
theorem metAll_sublist (mem : d ∈ met path node) (portal : d.2.isPortal = false) :
    (metAll d.1 0 d.2.children).Sublist (met path node) := by
  induction node using ofChildren generalizing path with
  | step node ih =>
    rcases mem_met_iff.mp mem with rfl | ⟨outer, j, child, inside, mem⟩
    · rw [met_eq, portal]
      exact List.sublist_cons_self _ _
    · have within := @met_sublist_metAll path node.children 0 j child inside
      rw [Nat.zero_add] at within
      rw [met_eq path node, outer]
      exact ((ih child (List.mem_of_getElem? inside) mem).trans within).trans (List.sublist_cons_self _ _)

/-- The nodes right in a node are met in the order in which they stand. -/
theorem rightIn_sublist : ∀ (nodes : List FixtureNode) (place : Nat),
    (rightIn path place nodes).Sublist (metAll path place nodes)
  | [], _ => List.Sublist.refl _
  | node :: rest, place => by
    rw [rightIn, metAll, met_eq, List.cons_append]
    exact ((rightIn_sublist rest (place + 1)).trans (List.sublist_append_right _ _)).cons_cons _

theorem mem_rightIn_iff : ∀ {nodes : List FixtureNode} {place : Nat}, d ∈ rightIn path place nodes ↔
    ∃ j child, nodes[j]? = some child ∧ d = (path ++ [place + j], child)
  | [], place => by simp [rightIn]
  | node :: rest, place => by
    rw [rightIn, List.mem_cons, mem_rightIn_iff]
    have shift : ∀ j, place + 1 + j = place + (j + 1) := fun j => by omega
    constructor
    · rintro (rfl | ⟨j, child, here, rfl⟩)
      · exact ⟨0, node, rfl, rfl⟩
      · exact ⟨j + 1, child, here, by rw [shift]⟩
    · rintro ⟨j, child, here, rfl⟩
      cases j with
      | zero => exact .inl (by cases here; rfl)
      | succ j => exact .inr ⟨j, child, here, by rw [shift]⟩

/-! ### Paths that are met once -/

theorem eq_of_steps {p y : List Nat} {j k : Nat} (first : p ++ [j] <+: y) (second : p ++ [k] <+: y) :
    j = k := by
  have same := (List.prefix_of_prefix_length_le first second (by simp)).eq_of_length (by simp)
  simpa using same

theorem metAll_nodup (each : ∀ child ∈ nodes, ∀ path, ((met path child).map (·.1)).Nodup) :
    ((metAll path place nodes).map (·.1)).Nodup := by
  induction nodes generalizing place with
  | nil => exact .nil
  | cons node rest ih =>
    obtain ⟨first, later⟩ := List.forall_mem_cons.mp each
    rw [metAll, List.map_append, List.nodup_append]
    refine ⟨first _, ih later, fun p mem _ other same => ?_⟩
    obtain ⟨d, inside, rfl⟩ := List.mem_map.mp mem
    obtain ⟨e, beside, rfl⟩ := List.mem_map.mp other
    obtain ⟨j, -, further⟩ := prefix_of_mem_metAll beside
    have clash := eq_of_steps (prefix_of_mem_met inside) (same ▸ further)
    omega

/-- No path is met twice. -/
theorem met_nodup (path : List Nat) (node : FixtureNode) : ((met path node).map (·.1)).Nodup := by
  induction node using ofChildren generalizing path with
  | step node ih =>
    rw [met_eq, List.map_cons, List.nodup_cons]
    cases node.isPortal with
    | true => exact ⟨nofun, .nil⟩
    | false =>
      refine ⟨fun mem => ?_, metAll_nodup fun child mem path => ih child mem path⟩
      obtain ⟨d, inside, same⟩ := List.mem_map.mp mem
      exact absurd (strictly_below inside).2 (same ▸ Nat.lt_irrefl _)

end meeting

end FixtureNode

/-! ### Rounds

What is in a portal is met when the portal's turn comes. -/

namespace FixtureNode

/-- The order in which the nodes of a tree are met: what is met in its top, and then, portal for portal
in the order in which they are met, what is met in the portal. -/
def MetInOrder (top : FixtureNode) (drawn : List DeclaredNode) : Prop :=
  drawn = met [] top ++
    (drawn.filter (·.2.isPortal)).flatMap fun portal => metAll portal.1 0 portal.2.children

/-- What has been met when some portals have had their turn and some are still to have it. -/
structure Turn (top : FixtureNode) (done queue drawn : List DeclaredNode) : Prop where
  drawn_eq : drawn = met [] top ++ done.flatMap fun portal => metAll portal.1 0 portal.2.children
  portals_eq : drawn.filter (·.2.isPortal) = done ++ queue
  nodup : (drawn.map (·.1)).Nodup

namespace Turn

variable {top : FixtureNode} {done queue drawn : List DeclaredNode} {d portal : DeclaredNode}

theorem cases (h : top.Turn done queue drawn) (mem : d ∈ drawn) :
    d ∈ met [] top ∨ ∃ portal ∈ done, d ∈ metAll portal.1 0 portal.2.children := by
  rw [h.drawn_eq, List.mem_append, List.mem_flatMap] at mem
  exact mem

theorem mem_drawn (h : top.Turn done queue drawn) (mem : d ∈ done ++ queue) :
    d ∈ drawn ∧ d.2.isPortal = true := by
  rw [← h.portals_eq] at mem
  exact List.mem_filter.mp mem

/-- What has been met stands where its path says. -/
theorem at?_of_mem (h : top.Turn done queue drawn) (mem : d ∈ drawn) : top.at? d.1 = some d.2 := by
  -- the depth of a path bounds the portals around it
  induction len : d.1.length using Nat.strongRecOn generalizing d with
  | _ n ih =>
    subst len
    rcases h.cases mem with first | ⟨portal, turn, inside⟩
    · exact at?_of_mem_met rfl first
    · have known := (h.mem_drawn (List.mem_append_left _ turn)).1
      exact at?_of_mem_metAll (ih _ (strictly_below inside).2 known rfl) inside

/-- What is met in a portal that is to have its turn has not been met. -/
theorem fresh (h : top.Turn done (portal :: queue) drawn) {e : DeclaredNode} (old : d ∈ drawn)
    (new : e ∈ metAll portal.1 0 portal.2.children) : d.1 ≠ e.1 := by
  intro same
  have apart : ∀ {p q : List Nat}, p.length < q.length → p ≠ q := fun lt equal =>
    Nat.lt_irrefl _ (equal ▸ lt)
  obtain ⟨known, isPortal⟩ := h.mem_drawn (List.mem_append_right _ List.mem_cons_self)
  have here := h.at?_of_mem known
  obtain ⟨inside, strictly⟩ := strictly_below new
  rcases h.cases old with first | ⟨other, turn, mem⟩
  · -- the portal would stand on the way from the top
    rw [← same] at inside strictly
    exact no_portal_between rfl first here isPortal (List.nil_prefix) inside (apart strictly)
  · -- one of two portals would stand on the way from the other
    obtain ⟨known', isPortal'⟩ := h.mem_drawn (List.mem_append_left (portal :: queue) turn)
    have here' := h.at?_of_mem known'
    obtain ⟨inside', strictly'⟩ := strictly_below mem
    have once : ((done ++ portal :: queue).map (·.1)).Nodup :=
      h.portals_eq ▸ h.nodup.sublist (List.filter_sublist.map _)
    rw [List.map_append, List.nodup_append] at once
    have distinct : other.1 ≠ portal.1 :=
      once.2.2 _ (List.mem_map_of_mem turn) _ List.mem_cons_self
    rcases Nat.le_total other.1.length portal.1.length with shorter | shorter
    · rw [← same] at inside strictly
      exact no_portal_below here' mem here isPortal
        (List.prefix_of_prefix_length_le inside' inside shorter) distinct inside (apart strictly)
    · rw [same] at inside' strictly'
      exact no_portal_below here new here' isPortal'
        (List.prefix_of_prefix_length_le inside inside' shorter) distinct.symm inside' (apart strictly')

/-- At first what is in no portal is met, and the portals queue up. -/
theorem start (top : FixtureNode) : top.Turn [] ((met [] top).filter (·.2.isPortal)) (met [] top) where
  drawn_eq := (List.append_nil _).symm
  portals_eq := rfl
  nodup := met_nodup _ _

/-- A portal has its turn, and those in it queue up behind all others. -/
theorem next (h : top.Turn done (portal :: queue) drawn) : top.Turn (done ++ [portal])
    (queue ++ (metAll portal.1 0 portal.2.children).filter (·.2.isPortal))
    (drawn ++ metAll portal.1 0 portal.2.children) where
  drawn_eq := by rw [h.drawn_eq, List.flatMap_append, List.flatMap_singleton, List.append_assoc]
  portals_eq := by
    rw [List.filter_append, h.portals_eq]
    simp
  nodup := by
    rw [List.map_append, List.nodup_append]
    refine ⟨h.nodup, metAll_nodup fun child _ path => met_nodup path child, fun p old q new => ?_⟩
    obtain ⟨d, mem, rfl⟩ := List.mem_map.mp old
    obtain ⟨e, mem', rfl⟩ := List.mem_map.mp new
    exact h.fresh mem mem'

/-! ### When all portals have had their turn -/

/-- All nodes have been met in order. -/
theorem metInOrder (h : top.Turn done [] drawn) : top.MetInOrder drawn := by
  have all := h.portals_eq
  rw [List.append_nil] at all
  rw [MetInOrder, all]
  exact h.drawn_eq

/-- What is met in a node is met in that order. -/
theorem metAll_sublist (h : top.Turn done [] drawn) (mem : d ∈ drawn) :
    (metAll d.1 0 d.2.children).Sublist drawn := by
  have all := h.portals_eq
  rw [List.append_nil] at all
  have portals : ∀ portal ∈ done, (metAll portal.1 0 portal.2.children).Sublist drawn := by
    intro portal turn
    rw [h.drawn_eq, List.flatMap_def]
    refine List.Sublist.trans ?_ (List.sublist_append_right _ _)
    exact List.sublist_flatten_of_mem (List.mem_map.mpr ⟨portal, turn, rfl⟩)
  cases isPortal : d.2.isPortal with
  | true => exact portals d (all ▸ List.mem_filter.mpr ⟨mem, isPortal⟩)
  | false =>
    rcases h.cases mem with first | ⟨portal, turn, inside⟩
    · rw [h.drawn_eq]
      exact (FixtureNode.metAll_sublist first isPortal).trans (List.sublist_append_left _ _)
    · obtain ⟨j, child, here, inside⟩ := mem_metAll_iff.mp inside
      exact ((FixtureNode.metAll_sublist inside isPortal).trans (met_sublist_metAll here)).trans
        (portals portal turn)

/-- The nodes right in a node are met in the order in which they stand. -/
theorem rightIn_sublist (h : top.Turn done [] drawn) (mem : d ∈ drawn) :
    (rightIn d.1 0 d.2.children).Sublist drawn :=
  (FixtureNode.rightIn_sublist _ 0).trans (h.metAll_sublist mem)

/-- **Every node of the tree has been met.** -/
theorem mem_of_at? (h : top.Turn done [] drawn) {path : List Nat} {node : FixtureNode}
    (here : top.at? path = some node) : (path, node) ∈ drawn := by
  induction path using List.reverseRecOn generalizing node with
  | nil =>
    rw [at?, Option.some.injEq] at here
    rw [h.drawn_eq, met_eq, ← here]
    exact List.mem_append_left _ List.mem_cons_self
  | append_singleton path k ih =>
    rw [at?_concat] at here
    obtain ⟨outer, there, inside⟩ := Option.bind_eq_some_iff.mp here
    refine (h.rightIn_sublist (ih there)).subset ?_
    exact mem_rightIn_iff.mpr ⟨k, node, inside, by rw [Nat.zero_add]⟩

theorem mem_iff_at? (h : top.Turn done [] drawn) : d ∈ drawn ↔ top.at? d.1 = some d.2 :=
  ⟨h.at?_of_mem, h.mem_of_at?⟩

end Turn

end FixtureNode

open FixtureNode

/-! ### The tree that a fixture declares -/

namespace Fixture

variable (f : Fixture)

/-- The element that holds the app. -/
def mount : FixtureNode := .element "div" [("id", "root")] none none f.app

/-- The body holds the markup and, behind it, the mount. -/
def body : FixtureNode := .element "body" [] none none (f.markup ++ [f.mount])

/-- The head of every page. -/
def head : FixtureNode := .element "head" [] none none []

/-- Everything that a fixture declares, in the frame that every page has. -/
def document : FixtureNode := .element "html" [] none none [head, f.body]

def bodyPath : List Nat := [1]

/-- The path of the element that a node shows its children in as a portal. Of several elements with the
id, it is the one that is met first. -/
def targetPath? (drawn : List DeclaredNode) (node : FixtureNode) : Option (List Nat) :=
  node.target?.bind fun target =>
    if target = "body" then some bodyPath
    else (drawn.find? fun d => d.2.id? == some target).map (·.1)

/-- What portals show in an element, in the order in which they are met. -/
def portalContent (drawn portals : List DeclaredNode) (path : List Nat) :
    List (ContentItem (List Nat)) :=
  (portals.filter fun portal => targetPath? drawn portal.2 == some path).flatMap fun portal =>
    shownAll portal.1 0 portal.2.children

/-- Where the mount stands: in the body, behind the markup. -/
def mountPath : List Nat := bodyPath ++ [f.markup.length]

/-- The elements among nodes. They are made in the order in which they are met. -/
def made (drawn : List DeclaredNode) : List DeclaredNode := drawn.filter (·.2.isElement)

/-- The nodes that instances are made for: those of the app but its texts, and the mount, for which the
instance at the top stands. -/
def graph (drawn : List DeclaredNode) : List DeclaredNode :=
  drawn.filter fun d => f.mountPath.isPrefixOf d.1 && !d.2.isText

/-- A node of the app, or the mount itself. -/
def InApp (path : List Nat) (node : FixtureNode) : Prop :=
  f.mountPath <+: path ∧ f.document.at? path = some node

@[simp] theorem at?_mountPath : f.document.at? f.mountPath = some f.mount := by
  show ((f.markup ++ [f.mount])[f.markup.length]?).bind _ = _
  rw [List.getElem?_concat_length]
  rfl

variable {f} in
/-- The mount stands in no node of the app. -/
theorem concat_ne_mountPath {outer : List Nat} {k : Nat} (above : f.mountPath <+: outer) :
    outer ++ [k] ≠ f.mountPath := by
  intro same
  have longer := above.length_le
  rw [← same, List.length_append, List.length_singleton] at longer
  omega

/-- The frame and the markup are met, and then the mount with the app. -/
theorem met_document : met [] f.document =
    [([], f.document), ([0], head), (bodyPath, f.body)] ++ metAll bodyPath 0 f.markup ++
      [(f.mountPath, f.mount)] ++ metAll f.mountPath 0 f.app := by
  have body : metAll bodyPath 0 (f.markup ++ [f.mount]) =
      metAll bodyPath 0 f.markup ++ (f.mountPath, f.mount) :: metAll f.mountPath 0 f.app := by
    rw [metAll_append, Nat.zero_add, metAll, metAll, List.append_nil]
    rfl
  show ([], f.document) :: ([0], head) :: ((bodyPath, f.body) ::
    metAll bodyPath 0 (f.markup ++ [f.mount]) ++ []) = _
  rw [body]
  simp

/-- No node of the markup stands in the mount. -/
theorem outside_of_mem_markup {d : DeclaredNode} (mem : d ∈ metAll bodyPath 0 f.markup) :
    ¬f.mountPath <+: d.1 := by
  intro inside
  obtain ⟨j, lt, below⟩ := prefix_of_mem_metAll mem
  rw [Nat.zero_add] at below
  exact Nat.ne_of_lt lt (eq_of_steps below inside)

end Fixture

end PageQuery
