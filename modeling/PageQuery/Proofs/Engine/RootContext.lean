/-
# The root of the page and the node at the root

A query from the root of the page searches components everywhere, one from the node at the root searches
them below that node. On a page all of whose nodes lie in its root both lead to the same, since whatever
can be found owns a node inside; a function is given the node in either case. So a context may have the
node at the root wherever it has the root: it is anchored differently, but nothing that is done at an
anchor tells the two apart.

This is so on the page of every fixture, whose style engine finds nodes in document order, each once.

Key definitions: `Page.RootIsNode`, `Anchor.rootAsNode`, `Context.rootAsNode`.
Key theorems: `Engine.lead_root`, `Engine.outcome_perform_rootAsNode`,
`Engine.outcome_resolve_rootAsNode`, `Fixture.rootIsNode`, `Engine.fetchWithin_rootAsNode`.
-/
import PageQuery.Proofs.Engine.HandleLists
import PageQuery.Proofs.Fixture.DocumentOrder
import PageQuery.Proofs.Fixture.Projection

namespace PageQuery

open Run

/-! ### Contexts and anchors with the node at the root -/

namespace Anchor

mutual

/-- With a node for the root. -/
def rootAsNode (root : NodeId) : Anchor → Anchor
  | .root => .nodes [root]
  | .null => .null
  | .nodes ns => .nodes ns
  | .components is => .components is
  | .array items => .array (rootAsNodeEach root items)

def rootAsNodeEach (root : NodeId) : List Anchor → List Anchor
  | [] => []
  | a :: rest => rootAsNode root a :: rootAsNodeEach root rest

end

mutual

/-- A function is given the node either way. -/
theorem toInput_rootAsNode (root : NodeId) : ∀ a : Anchor, (a.rootAsNode root).toInput root = a.toInput root
  | .root => rfl
  | .null => rfl
  | .nodes _ => rfl
  | .components _ => rfl
  | .array items => by rw [rootAsNode, toInput, toInput, toEachInput_rootAsNodeEach root items]

theorem toEachInput_rootAsNodeEach (root : NodeId) : ∀ items : List Anchor,
    toEachInput root (rootAsNodeEach root items) = toEachInput root items
  | [] => rfl
  | a :: rest => by
    rw [rootAsNodeEach, toEachInput, toEachInput, toInput_rootAsNode root a,
      toEachInput_rootAsNodeEach root rest]

end

@[simp] theorem rootAsNode_eq_null {root : NodeId} {a : Anchor} : a.rootAsNode root = .null ↔ a = .null := by
  cases a <;> simp [rootAsNode]

end Anchor

namespace Context

mutual

/-- With the handle of a node for every root marker. -/
def rootAsNode (root : NodeId) : Context → Context
  | .root true => .node root
  | .root false => .root false
  | .fetcher context operation => .fetcher (rootAsNode root context) operation
  | .node n => .node n
  | .nodes ns => .nodes ns
  | .components is => .components is
  | .array items => .array (rootAsNodeEach root items)
  | .null => .null

def rootAsNodeEach (root : NodeId) : List Context → List Context
  | [] => []
  | c :: rest => rootAsNode root c :: rootAsNodeEach root rest

end

end Context

/-- Searches find nodes in document order, hosts render nodes, and every node lies in the root, which no
instance renders. -/
structure Page.RootIsNode (page : Page) : Prop where
  ordered : page.SearchesInOrder
  renders : page.HostsRender
  spans : page.RootSpans

namespace Engine

variable {setting : Setting} {functions : Functions}

/-! ### Queries -/

/-- From the node at the root a segment leads where it leads from the root. -/
theorem lead_root {page : Page} (same : page.RootIsNode) (matcher : PropertyMatcher) : ∀ segment : Segment,
    lead page matcher segment (.nodes [page.root]) = lead page matcher segment .root
  | .structural selector => by
    rw [lead, lead, collect, collect]
    cases found : page.search page.root selector with
    | error e => rfl
    | ok nodes =>
      have ordered := same.ordered page.root selector nodes found
      have kept : NodeId.ascending (nodes ++ []) = nodes := by
        refine eq_of_growing NodeId.index (NodeId.ascending_pairwise _) ordered fun n => ?_
        rw [NodeId.mem_ascending, List.append_nil]
      show Except.ok (Reached.nodes (NodeId.ascending (nodes ++ []))) = _
      rw [kept]
      rfl
  | .component query => by
    rw [lead, lead, Page.belowNodes_root same.renders same.spans]

theorem leadAll_root {page : Page} (same : page.RootIsNode) (matcher : PropertyMatcher)
    {segments : List Segment} (some : segments ≠ []) :
    leadAll page matcher segments (.nodes [page.root]) = leadAll page matcher segments .root := by
  cases segments with
  | nil => exact absurd rfl some
  | cons segment rest => rw [leadAll, leadAll, lead_root same]

variable {query : Query} {selector : Selector}

mutual

/-- A query comes to the same at an anchor with the node at the root. -/
theorem outcome_runQuery_rootAsNode (same : setting.page.RootIsNode) (some : selector.segments ≠ []) :
    ∀ a : Anchor, outcome (runQuery setting query selector (a.rootAsNode setting.page.root)) =
      outcome (runQuery setting query selector a)
  | .root => by
    have node := @outcome_runQuery_at setting selector query (.nodes [setting.page.root])
    have root := @outcome_runQuery_at setting selector query .root
    rw [leadAll_root same setting.matcher some] at node
    exact node.trans root.symm
  | .null => rfl
  | .nodes _ => rfl
  | .components _ => rfl
  | .array items => by
    rw [Anchor.rootAsNode, outcome_runQuery_array, outcome_runQuery_array,
      each_runQuery_rootAsNode same some items]

theorem each_runQuery_rootAsNode (same : setting.page.RootIsNode) (some : selector.segments ≠ []) :
    ∀ items : List Anchor,
      each (fun a => outcome (runQuery setting query selector a))
          (Anchor.rootAsNodeEach setting.page.root items) =
        each (fun a => outcome (runQuery setting query selector a)) items
  | [] => rfl
  | a :: rest => by
    rw [Anchor.rootAsNodeEach, each, each, outcome_runQuery_rootAsNode same some a,
      each_runQuery_rootAsNode same some rest]

end

theorem outcome_executeQuery_rootAsNode (same : setting.page.RootIsNode) (allowComponents : Bool)
    (a : Anchor) : outcome (executeQuery setting allowComponents query (a.rootAsNode setting.page.root)) =
      outcome (executeQuery setting allowComponents query a) := by
  by_cases null : a = .null
  · rw [null]
    rfl
  · rw [outcome_executeQuery _ _ (mt Anchor.rootAsNode_eq_null.mp null), outcome_executeQuery _ _ null]
    cases parsed : Selector.parse query.selector with
    | error e => rfl
    | ok selector =>
      show outcome (runParsed setting allowComponents query _ selector) =
        outcome (runParsed setting allowComponents query a selector)
      unfold runParsed
      cases refusal? allowComponents query selector with
      | some e => rfl
      | none => exact outcome_runQuery_rootAsNode same (Selector.segments_ne_nil parsed) a

/-! ### Operations and contexts -/

/-- **Nothing that is done at an anchor tells the root from the node at the root.** -/
theorem outcome_perform_rootAsNode (same : setting.page.RootIsNode) (settled : functions.Settled)
    (allowComponents : Bool) (operation : Operation) (a : Anchor) :
    outcome (perform setting functions allowComponents operation (a.rootAsNode setting.page.root)) =
      outcome (perform setting functions allowComponents operation a) := by
  cases operation with
  | query query =>
    rw [outcome_perform_execute, outcome_perform_execute, outcome_executeQuery_rootAsNode same]
  | call call =>
    rw [outcome_perform_call settled, outcome_perform_call settled]
    unfold callFunction
    rw [Anchor.toInput_rootAsNode]

/-- Anchors or failures that are the same but for the root. -/
def SameButRoot (root : NodeId) (r s : Except Halt Anchor) : Prop :=
  r.map (Anchor.rootAsNode root) = s.map (Anchor.rootAsNode root)

theorem SameButRoot.bind {root : NodeId} {α : Type} {r s : Except Halt Anchor}
    (h : SameButRoot root r s) {f : Anchor → Except Halt α} (blind : ∀ a, f (a.rootAsNode root) = f a) :
    r.bind f = s.bind f := by
  have through : ∀ r : Except Halt Anchor, r.bind f = (r.map (Anchor.rootAsNode root)).bind f := by
    intro r
    cases r with
    | error e => rfl
    | ok a => exact (blind a).symm
  rw [through r, through s, h]

mutual

/-- A context with the node at the root is anchored at the same but for that. -/
theorem outcome_normalizeBy_rootAsNode (same : setting.page.RootIsNode) (settled : functions.Settled)
    {again : Json → Run Anchor} (reads : ∀ value, Settles AnyHalt (again value)) : ∀ context : Context,
      SameButRoot setting.page.root
        (outcome (normalizeBy setting functions again (context.rootAsNode setting.page.root)))
        (outcome (normalizeBy setting functions again context))
  | .root true => rfl
  | .root false => rfl
  | .node _ => rfl
  | .nodes _ => rfl
  | .components _ => rfl
  | .null => rfl
  | .array items => by
    have all := each_normalizeBy_rootAsNode same settled reads items
    have within : ∀ r : Except Halt (List Anchor), (r.map .array).map (Anchor.rootAsNode setting.page.root) =
        (r.map (Anchor.rootAsNodeEach setting.page.root)).map .array := by
      intro r
      cases r <;> rfl
    rw [SameButRoot, Context.rootAsNode, outcome_normalizeBy_array settled reads,
      outcome_normalizeBy_array settled reads, within, within, all]
  | .fetcher context operation => by
    have anchored := outcome_normalizeBy_rootAsNode same settled reads context
    rw [SameButRoot, Context.rootAsNode, outcome_normalizeBy_fetcher settled reads,
      outcome_normalizeBy_fetcher settled reads]
    refine congrArg (Except.map _) (anchored.bind fun a => ?_)
    rw [outcome_perform_rootAsNode same settled]

theorem each_normalizeBy_rootAsNode (same : setting.page.RootIsNode) (settled : functions.Settled)
    {again : Json → Run Anchor} (reads : ∀ value, Settles AnyHalt (again value)) : ∀ items : List Context,
      (each (fun c => outcome (normalizeBy setting functions again c))
          (Context.rootAsNodeEach setting.page.root items)).map (Anchor.rootAsNodeEach setting.page.root) =
        (each (fun c => outcome (normalizeBy setting functions again c)) items).map
          (Anchor.rootAsNodeEach setting.page.root)
  | [] => rfl
  | c :: rest => by
    have first := outcome_normalizeBy_rootAsNode same settled reads c
    have later := each_normalizeBy_rootAsNode same settled reads rest
    have parts : ∀ (r : Except Halt Anchor) (s : Except Halt (List Anchor)),
        (r.bind fun a => s.map fun as => a :: as).map (Anchor.rootAsNodeEach setting.page.root) =
          (r.map (Anchor.rootAsNode setting.page.root)).bind fun a =>
            (s.map (Anchor.rootAsNodeEach setting.page.root)).map fun as => a :: as := by
      intro r s
      cases r <;> cases s <;> rfl
    rw [Context.rootAsNodeEach, each, each, parts, parts, first, later]

end

/-- A fetch comes to the same in a context with the node at the root. -/
theorem outcome_resolve_rootAsNode (same : setting.page.RootIsNode) (settled : functions.Settled)
    (limit : Nat) (context : Context) (operation : Operation) :
    outcome (resolve setting functions limit ⟨context.rootAsNode setting.page.root, operation⟩) =
      outcome (resolve setting functions limit ⟨context, operation⟩) := by
  rw [outcome_resolve settled, outcome_resolve settled]
  exact (outcome_normalizeBy_rootAsNode same settled (reread_settles settled limit) context).bind
    fun a => outcome_perform_rootAsNode same settled _ operation a

end Engine

/-! ### Pages of fixtures -/

/-- The style engine finds elements in document order, each once. -/
theorem FixturePage.searchesInOrder (p : FixturePage) : p.toPage.SearchesInOrder := by
  intro scope selector found h
  replace h : p.search p.toPage.parents scope selector = .ok found := h
  unfold FixturePage.search at h
  split at h
  · cases h
  · split at h
    · cases h
    · next selectors _ =>
      cases h
      have all : ((p.document.select selectors).map NodeId.mk).Pairwise fun m n => m.index < n.index :=
        List.pairwise_map.mpr (List.pairwise_lt_range.filter _)
      exact all.filter _

/-- On the page of a fixture the root is no more than the node at the root, whichever way nodes are searched
for in document order. -/
theorem Fixture.rootIsNode {f : Fixture} {r : Rendering} (h : f.render = .ok r)
    {search : NodeId → String → Except SearchError (List NodeId)}
    (ordered : (r.page.toPage.withSearch search).SearchesInOrder) :
    (r.page.toPage.withSearch search).RootIsNode :=
  ⟨ordered, (hostsRender h).withSearch, (rootSpans h).withSearch⟩

namespace Engine

/-- **On the page of a fixture a fetch from the root and one from the node at the root come to the
same**, be it results, the value of a function or a failure, and so do fetches in any context that has
the root somewhere within. The search for nodes may be any that finds them in document order, each once. -/
theorem fetchWithin_rootAsNode {f : Fixture} {r : Rendering} (h : f.render = .ok r)
    {search : NodeId → String → Except SearchError (List NodeId)}
    (ordered : (r.page.toPage.withSearch search).SearchesInOrder) {engine : Engine}
    (reached : engine.Reachable) (onPage : engine.page = r.page.toPage.withSearch search)
    (limit now : Nat) (operation : Operation) :
    (engine.fetchWithin limit now ⟨.node ⟨0⟩, operation⟩).1 =
        (engine.fetchWithin limit now ⟨.root true, operation⟩).1 ∧
      ∀ context : Context, (engine.fetchWithin limit now ⟨context.rootAsNode ⟨0⟩, operation⟩).1 =
        (engine.fetchWithin limit now ⟨context, operation⟩).1 := by
  have same : engine.page.RootIsNode := onPage ▸ Fixture.rootIsNode h ordered
  have root : (engine.settingAt now).page.root = ⟨0⟩ := congrArg Page.root onPage
  have all : ∀ context : Context,
      (engine.fetchWithin limit now ⟨context.rootAsNode ⟨0⟩, operation⟩).1 =
        (engine.fetchWithin limit now ⟨context, operation⟩).1 := by
    intro context
    rw [fetchWithin_fst reached, fetchWithin_fst reached, ← root]
    exact outcome_resolve_rootAsNode same reached.sound.2 limit context operation
  exact ⟨all (.root true), all⟩

/-- The emphasis that a portal takes from the card to the section is found behind the card from either. -/
theorem fetchWithin_rootAsNode_panels : ∃ r, panels.render = .ok r ∧
    let engine : Engine := { ofPage r.page.toPage .default with matcher := Predicate.matches }
    ∃ o, (engine.fetchWithin 1 0 ⟨.root true, .query (.all "@Card em")⟩).1 = .ok o ∧
      (engine.fetchWithin 1 0 ⟨.node ⟨0⟩, .query (.all "@Card em")⟩).1 = .ok o := by
  obtain ⟨r, rendered⟩ : ∃ r, panels.render = .ok r := exists_ok_of_toBool (by decide +kernel)
  have known : panels.render.toOption.map (fun r => ((ofPage r.page.toPage .default).fetchWithin 1 0
      ⟨.root true, .query (.all "@Card em")⟩).1.toBool) = some true := by decide +kernel
  rw [toOption_some_iff.mpr rendered, Option.map_some, Option.some.injEq] at known
  obtain ⟨o, found⟩ := exists_ok_of_toBool known
  have same := @fetchWithin_rootAsNode panels r rendered r.page.toPage.search r.page.searchesInOrder _
    (.start r.page.toPage Predicate.matches .default) rfl 1 0 (.query (.all "@Card em"))
  exact ⟨r, rendered, o, found, same.1.trans found⟩

end Engine

end PageQuery
