/-
# In which order portals have their turns

Portals queue up as they are met, and what is met in one of them queues up behind all others. So the turns
go round by round: portals that stand in fewer portals come first, and of those that stand in as many the
one that is declared first (`FixtureNode.EarlierTurn`). When some portals have had their turn, just those
nodes have been met that stand in no other portal.

Key definitions: `FixtureNode.Encloses`, `FixtureNode.portalsAround`, `FixtureNode.Parted`,
`FixtureNode.EarlierTurn`.
Key theorems: `FixtureNode.EarlierTurn.asymm`, `FixtureNode.Turn.mem_done_of_encloses`,
`FixtureNode.Turn.mem_drawn_of_done`, `FixtureNode.Turn.ordered_start`, `FixtureNode.Turn.ordered_next`,
`FixtureNode.Turn.mem_done_of_earlier`, `FixtureNode.Turn.mem_done_of_at?`.
-/
import Mathlib.Data.List.Lex
import PageQuery.Proofs.Fixture.Paths

namespace PageQuery

namespace FixtureNode

/-! ### Portals around a node -/

/-- There is a portal at the first path, and the second one leads into it. -/
def Encloses (top : FixtureNode) (outer inner : List Nat) : Prop :=
  outer <+: inner ∧ outer ≠ inner ∧ ∃ portal, top.at? outer = some portal ∧ portal.isPortal = true

/-- The number of portals around the node at a path. -/
def portalsAround : FixtureNode → List Nat → Nat
  | _, [] => 0
  | node, k :: rest => (if node.isPortal then 1 else 0) +
    ((node.children[k]?).map fun child => portalsAround child rest).getD 0

/-- One path turns off before the other. -/
def Parted (p q : List Nat) : Prop := ∃ stem i j, i < j ∧ stem ++ [i] <+: p ∧ stem ++ [j] <+: q

/-- A portal has its turn before another: there are fewer portals around it, or as many and it is declared
first. -/
def EarlierTurn (top : FixtureNode) (p q : List Nat) : Prop :=
  top.portalsAround p < top.portalsAround q ∨ top.portalsAround p = top.portalsAround q ∧ Parted p q

section around

variable {top node : FixtureNode} {p q path : List Nat} {d : DeclaredNode}

theorem portalsAround_append (q : List Nat) : ∀ {p : List Nat} {top : FixtureNode},
    top.at? p = some node → top.portalsAround (p ++ q) = top.portalsAround p + node.portalsAround q
  | [], _, here => by
    cases here
    exact (Nat.zero_add _).symm
  | k :: rest, top, here => by
    obtain ⟨child, inside, here⟩ := Option.bind_eq_some_iff.mp here
    rw [List.cons_append, portalsAround, portalsAround, inside, Option.map_some, Option.map_some,
      Option.getD_some, Option.getD_some, portalsAround_append q here, Nat.add_assoc]

theorem portalsAround_cons {k : Nat} {child : FixtureNode} (inside : node.children[k]? = some child) :
    node.portalsAround (k :: q) = (if node.isPortal then 1 else 0) + child.portalsAround q := by
  rw [portalsAround, inside]
  rfl

/-- No portal stands around what is met in a node, but for those around the node. -/
theorem portalsAround_of_mem_met (here : top.at? path = some node) (mem : d ∈ met path node) :
    top.portalsAround d.1 = top.portalsAround path := by
  induction node using ofChildren generalizing path with
  | step node ih =>
    rcases mem_met_iff.mp mem with rfl | ⟨outer, j, child, inside, mem⟩
    · rfl
    · have there : top.at? (path ++ [j]) = some child := by rw [at?_concat, here, Option.bind_some, inside]
      rw [ih child (List.mem_of_getElem? inside) there mem, portalsAround_append [j] here,
        portalsAround_cons inside, outer]
      rfl

/-- The portal whose turn it is stands around what is met in it, and with it those around the portal. -/
theorem portalsAround_of_mem_metAll (here : top.at? path = some node) (isPortal : node.isPortal = true)
    (mem : d ∈ metAll path 0 node.children) : top.portalsAround d.1 = top.portalsAround path + 1 := by
  obtain ⟨j, child, inside, mem⟩ := mem_metAll_iff.mp mem
  rw [Nat.zero_add] at mem
  have there : top.at? (path ++ [j]) = some child := by rw [at?_concat, here, Option.bind_some, inside]
  rw [portalsAround_of_mem_met there mem, portalsAround_append [j] here, portalsAround_cons inside,
    isPortal]
  rfl

/-- A portal has more portals around it than one that encloses it. -/
theorem Encloses.portalsAround_lt (h : top.Encloses p q) (there : top.at? q = some node) :
    top.portalsAround p < top.portalsAround q := by
  obtain ⟨⟨more, rfl⟩, differ, portal, here, isPortal⟩ := h
  cases more with
  | nil => exact absurd (List.append_nil p).symm differ
  | cons k rest =>
    rw [at?_append, here, Option.bind_some] at there
    obtain ⟨child, inside, -⟩ := Option.bind_eq_some_iff.mp there
    rw [portalsAround_append _ here, portalsAround_cons inside, isPortal, if_pos rfl]
    omega

/-! ### The order of turns -/

theorem Parted.lt (h : Parted p q) : p < q := by
  obtain ⟨stem, i, j, lt, ⟨s, rfl⟩, ⟨t, rfl⟩⟩ := h
  rw [List.append_assoc, List.append_assoc]
  exact List.append_left_lt (List.cons_lt_cons_iff.mpr (.inl lt))

/-- Paths that part go on to do so. -/
theorem Parted.extend {p' q' : List Nat} (h : Parted p q) (low : p <+: p') (low' : q <+: q') :
    Parted p' q' := by
  obtain ⟨stem, i, j, lt, first, second⟩ := h
  exact ⟨stem, i, j, lt, first.trans low, second.trans low'⟩

theorem EarlierTurn.asymm (h : top.EarlierTurn p q) : ¬top.EarlierTurn q p := by
  rintro (less | ⟨same, parted⟩)
  · rcases h with less' | ⟨same, -⟩ <;> omega
  · rcases h with less | ⟨-, parted'⟩
    · omega
    · exact lt_asymm parted.lt parted'.lt

/-- Portals that are met in some nodes are met in the order in which they part. -/
theorem metAll_parted {nodes : List FixtureNode} {place : Nat}
    (each : ∀ child ∈ nodes, ∀ path,
      ((met path child).filter (·.2.isPortal)).Pairwise fun d e => Parted d.1 e.1) :
    ((metAll path place nodes).filter (·.2.isPortal)).Pairwise fun d e => Parted d.1 e.1 := by
  induction nodes generalizing place with
  | nil => exact .nil
  | cons node rest ih =>
    obtain ⟨first, later⟩ := List.forall_mem_cons.mp each
    rw [metAll, List.filter_append, List.pairwise_append]
    refine ⟨first _, ih later, fun d mem e mem' => ?_⟩
    obtain ⟨j, -, further⟩ := prefix_of_mem_metAll (List.mem_filter.mp mem').1
    exact ⟨path, place, place + 1 + j, by omega, prefix_of_mem_met (List.mem_filter.mp mem).1, further⟩

theorem met_parted (path : List Nat) (node : FixtureNode) :
    ((met path node).filter (·.2.isPortal)).Pairwise fun d e => Parted d.1 e.1 := by
  induction node using ofChildren generalizing path with
  | step node ih =>
    rw [met_eq]
    cases isPortal : node.isPortal with
    | true => simp [isPortal]
    | false =>
      rw [List.filter_cons_of_neg (by simp [isPortal])]
      exact metAll_parted ih

end around

/-! ### What has been met -/

namespace Turn

variable {top node : FixtureNode} {done queue drawn : List DeclaredNode} {d portal : DeclaredNode}
  {p path : List Nat}

theorem at?_of_mem_done (h : top.Turn done queue drawn) (mem : d ∈ done) :
    top.at? d.1 = some d.2 ∧ d.2.isPortal = true := by
  obtain ⟨known, isPortal⟩ := h.mem_drawn (List.mem_append_left _ mem)
  exact ⟨h.at?_of_mem known, isPortal⟩

/-- The portals around a node that has been met have had their turn. -/
theorem mem_done_of_encloses (h : top.Turn done queue drawn) (mem : d ∈ drawn) (outer : top.Encloses p d.1) :
    ∃ portal ∈ done, portal.1 = p := by
  -- from a portal to the next one around it, paths get shorter
  induction len : d.1.length using Nat.strongRecOn generalizing d with
  | _ n ih =>
    subst len
    obtain ⟨within, differ, node, here, isPortal⟩ := outer
    rcases h.cases mem with first | ⟨portal, turn, inside⟩
    · exact (no_portal_between rfl first here isPortal List.nil_prefix within differ).elim
    · obtain ⟨there, isPortal'⟩ := h.at?_of_mem_done turn
      obtain ⟨below, strictly⟩ := strictly_below inside
      by_cases same : portal.1 = p
      · exact ⟨portal, turn, same⟩
      · rcases Nat.le_total p.length portal.1.length with shorter | longer
        · have around : top.Encloses p portal.1 :=
            ⟨List.prefix_of_prefix_length_le within below shorter, Ne.symm same, node, here, isPortal⟩
          exact ih _ strictly (h.mem_drawn (List.mem_append_left _ turn)).1 around rfl
        · exact (no_portal_below there inside here isPortal
            (List.prefix_of_prefix_length_le below within longer) same within differ).elim

/-- What is met in a node that has been met has been met too, if it is no portal whose turn is still to
come. -/
theorem metAll_subset (h : top.Turn done queue drawn) (mem : d ∈ drawn)
    (turn : d.2.isPortal = true → d ∈ done) : metAll d.1 0 d.2.children ⊆ drawn := by
  have portals : ∀ portal ∈ done, metAll portal.1 0 portal.2.children ⊆ drawn := by
    intro portal turn e inside
    rw [h.drawn_eq]
    exact List.mem_append_right _ (List.mem_flatMap.mpr ⟨portal, turn, inside⟩)
  cases isPortal : d.2.isPortal with
  | true => exact portals d (turn isPortal)
  | false =>
    rcases h.cases mem with first | ⟨portal, turn, inside⟩
    · rw [h.drawn_eq]
      exact List.subset_append_of_subset_left _ (FixtureNode.metAll_sublist first isPortal).subset
    · obtain ⟨j, child, here, inside⟩ := mem_metAll_iff.mp inside
      have within := (FixtureNode.metAll_sublist inside isPortal).trans (met_sublist_metAll here)
      exact fun e mem => portals portal turn (within.subset mem)

/-- **A node has been met when all portals around it have had their turn.** -/
theorem mem_drawn_of_done (h : top.Turn done queue drawn) (here : top.at? path = some node)
    (around : ∀ p, top.Encloses p path → ∃ portal ∈ done, portal.1 = p) : (path, node) ∈ drawn := by
  induction path using List.reverseRecOn generalizing node with
  | nil =>
    rw [at?, Option.some.injEq] at here
    rw [h.drawn_eq, met_eq, ← here]
    exact List.mem_append_left _ List.mem_cons_self
  | append_singleton path k ih =>
    rw [at?_concat] at here
    obtain ⟨outer, there, inside⟩ := Option.bind_eq_some_iff.mp here
    have longer : ∀ {p}, p <+: path → p <+: path ++ [k] ∧ p ≠ path ++ [k] := by
      intro p low
      refine ⟨low.trans (List.prefix_append _ _), fun same => ?_⟩
      have short := low.length_le
      rw [same, List.length_append, List.length_singleton] at short
      omega
    have met : (path, outer) ∈ drawn := by
      refine ih there fun p encloses => ?_
      exact around p ⟨(longer encloses.1).1, (longer encloses.1).2, encloses.2.2⟩
    refine h.metAll_subset met (fun isPortal => ?_) ((FixtureNode.rightIn_sublist _ 0).subset
      (mem_rightIn_iff.mpr ⟨k, node, inside, by rw [Nat.zero_add]⟩))
    obtain ⟨low, differ⟩ := longer (List.prefix_refl path)
    obtain ⟨⟨_, portal⟩, turn, rfl⟩ := around path ⟨low, differ, outer, there, isPortal⟩
    obtain rfl : outer = portal := Option.some.inj (there.symm.trans (h.at?_of_mem_done turn).1)
    exact turn

/-! ### Turns in order -/

/-- At first the portals wait in order. -/
theorem ordered_start (top : FixtureNode) :
    ((met [] top).filter (·.2.isPortal)).Pairwise fun d e => top.EarlierTurn d.1 e.1 := by
  refine (met_parted [] top).imp_of_mem fun {d e} mem mem' parted => .inr ⟨?_, parted⟩
  rw [portalsAround_of_mem_met rfl (List.mem_filter.mp mem).1,
    portalsAround_of_mem_met rfl (List.mem_filter.mp mem').1]

/-- **The portals that come to wait come behind all others.** -/
theorem ordered_next (h : top.Turn done (portal :: queue) drawn)
    (ordered : (done ++ portal :: queue).Pairwise fun d e => top.EarlierTurn d.1 e.1) :
    (done ++ [portal] ++ (queue ++ (metAll portal.1 0 portal.2.children).filter (·.2.isPortal))).Pairwise
      fun d e => top.EarlierTurn d.1 e.1 := by
  obtain ⟨known, isPortal⟩ := h.mem_drawn (List.mem_append_right done List.mem_cons_self)
  have here := h.at?_of_mem known
  have split : done ++ [portal] ++ (queue ++ (metAll portal.1 0 portal.2.children).filter (·.2.isPortal)) =
      (done ++ portal :: queue) ++ (metAll portal.1 0 portal.2.children).filter (·.2.isPortal) := by simp
  have before : ∀ {e}, e ∈ done → top.EarlierTurn e.1 portal.1 := fun mem =>
    (List.pairwise_append.mp ordered).2.2 _ mem _ List.mem_cons_self
  have least : ∀ {e}, e ∈ done → top.portalsAround e.1 ≤ top.portalsAround portal.1 := fun mem =>
    (before mem).elim Nat.le_of_lt fun same => Nat.le_of_eq same.1
  rw [split, List.pairwise_append]
  refine ⟨ordered, (metAll_parted fun child _ path => met_parted path child).imp_of_mem
    fun {d e} mem mem' parted => .inr ⟨?_, parted⟩, fun d mem e new => ?_⟩
  · rw [portalsAround_of_mem_metAll here isPortal (List.mem_filter.mp mem).1,
      portalsAround_of_mem_metAll here isPortal (List.mem_filter.mp mem').1]
  · have inside := (List.mem_filter.mp new).1
    have deeper := portalsAround_of_mem_metAll here isPortal inside
    rcases List.mem_append.mp mem with earlier | waiting
    · exact .inl (by have := least earlier; omega)
    rcases List.mem_cons.mp waiting with rfl | waiting
    · exact .inl (by omega)
    -- one that waits stands in no portal, or in one that had its turn before this one
    obtain ⟨met, -⟩ := h.mem_drawn (List.mem_append_right done (List.mem_cons_of_mem _ waiting))
    rcases h.cases met with first | ⟨other, turn, within⟩
    · have whole : top.at? [] = some top := rfl
      have none := portalsAround_of_mem_met whole first
      exact .inl (by rw [none, deeper]; exact Nat.succ_pos _)
    · obtain ⟨there, isPortal'⟩ := h.at?_of_mem_done turn
      have round := portalsAround_of_mem_metAll there isPortal' within
      rcases before turn with less | ⟨same, parted⟩
      · exact .inl (by omega)
      · exact .inr ⟨by omega, parted.extend (strictly_below within).1 (strictly_below inside).1⟩

/-- A portal with an earlier turn than the next one has had it. -/
theorem mem_done_of_earlier (h : top.Turn done (portal :: queue) drawn)
    (ordered : (done ++ portal :: queue).Pairwise fun d e => top.EarlierTurn d.1 e.1)
    (here : top.at? p = some node) (isPortal : node.isPortal = true) (earlier : top.EarlierTurn p portal.1) :
    (p, node) ∈ done := by
  -- the portals around a portal have still earlier turns
  induction len : p.length using Nat.strongRecOn generalizing p node with
  | _ n ih =>
    subst len
    have met : (p, node) ∈ drawn := h.mem_drawn_of_done here fun outer encloses => by
      obtain ⟨below, differ, node', there, isPortal'⟩ := encloses
      have shorter : outer.length < p.length :=
        lt_of_le_of_ne below.length_le fun same => differ (below.eq_of_length same)
      have fewer := Encloses.portalsAround_lt ⟨below, differ, node', there, isPortal'⟩ here
      have least : top.portalsAround p ≤ top.portalsAround portal.1 :=
        earlier.elim Nat.le_of_lt fun same => Nat.le_of_eq same.1
      exact ⟨_, ih _ shorter there isPortal' (.inl (by omega)) rfl, rfl⟩
    have waits : (p, node) ∈ done ++ portal :: queue :=
      h.portals_eq ▸ List.mem_filter.mpr ⟨met, isPortal⟩
    rcases List.mem_append.mp waits with turn | waits
    · exact turn
    rcases List.mem_cons.mp waits with rfl | later
    · exact absurd earlier earlier.asymm
    · have after := List.rel_of_pairwise_cons (List.pairwise_append.mp ordered).2.1 later
      exact absurd earlier after.asymm

/-- When no portal waits all have had their turn. -/
theorem mem_done_of_at? (h : top.Turn done [] drawn) (here : top.at? p = some node)
    (isPortal : node.isPortal = true) : (p, node) ∈ done := by
  have all := h.portals_eq
  rw [List.append_nil] at all
  exact all ▸ List.mem_filter.mpr ⟨h.mem_of_at? here, isPortal⟩

end Turn

end FixtureNode

end PageQuery
