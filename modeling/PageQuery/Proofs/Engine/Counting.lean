/-
# Counting what a query gives

A collection of components counts as one, however many it holds. No query shows this: what it finds it
gives one by one, so that each leaf of its results is null, one node or one component, also where the
query runs on handles of many at once. Hence a count chained onto a query is the number of handles that
the query gives, and existence is that there is any.

The query of such a call stands inside it, where it may end in a component. Fetched by itself it comes
to the same, unless the engine refuses it for ending in one; then the calls need not fail.

Key definitions: `ResultSet.IsSingle`, `ResultSet.handles`, `Engine.queried`.
Key theorems: `ResultSet.count_eq_handles`, `Engine.executeQuery_single`, `Engine.executeQuery_gate`,
`Engine.fetchWithin_counts`.
-/
import PageQuery.Proofs.Engine.FoundComponents
import PageQuery.Proofs.Engine.Shapes
import Mathlib.Algebra.GroupWithZero.Nat

namespace PageQuery

open Run

namespace ResultSet

/-- Nothing, one node or one component. -/
inductive IsSingle : ResultSet → Prop
  | null : IsSingle .null
  | node (n : NodeId) : IsSingle (.node n)
  | component (i : InstanceId) : IsSingle (.component i)

def leafHandles : ResultSet → Nat
  | .nodes ns => ns.length
  | .components is => is.length
  | _ => 0

/-- The number of handles in a result set. -/
def handles (r : ResultSet) : Nat := (r.leaves.map leafHandles).sum

/-- The number of handles in some result sets. -/
def handlesOfAll (items : List ResultSet) : Nat := ((leavesOfAll items).map leafHandles).sum

@[simp] theorem handlesOfAll_cons (r : ResultSet) (rest : List ResultSet) :
    handlesOfAll (r :: rest) = r.handles + handlesOfAll rest := by
  rw [handlesOfAll, leavesOfAll, List.map_append, List.sum_append]
  rfl

mutual

/-- **Where single handles stand at the leaves, all are counted.** -/
theorem count_eq_handles : ∀ r : ResultSet, (∀ leaf ∈ r.leaves, leaf.IsSingle) → r.count = r.handles
  | .null, _ => rfl
  | .nodes _, _ => rfl
  | .components _, single => by
    cases single _ List.mem_cons_self
    rfl
  | .array items, single => countAll_eq_handles items single

theorem countAll_eq_handles : ∀ items : List ResultSet,
    (∀ leaf ∈ leavesOfAll items, leaf.IsSingle) → countAll items = handlesOfAll items
  | [], _ => rfl
  | r :: rest, single => by
    obtain ⟨first, others⟩ := List.forall_mem_append.mp single
    rw [countAll, handlesOfAll_cons, count_eq_handles r first, countAll_eq_handles rest others]

end

mutual

/-- Something exists if there is any handle. -/
theorem nonempty_eq_handles : ∀ r : ResultSet, r.nonempty = decide (0 < r.handles)
  | .null => rfl
  | .nodes [] => rfl
  | .nodes (_ :: _) => (decide_eq_true (Nat.succ_pos _)).symm
  | .components [] => rfl
  | .components (_ :: _) => (decide_eq_true (Nat.succ_pos _)).symm
  | .array items => anyNonempty_eq_handles items

theorem anyNonempty_eq_handles : ∀ items : List ResultSet,
    anyNonempty items = decide (0 < handlesOfAll items)
  | [] => rfl
  | r :: rest => by
    rw [anyNonempty, handlesOfAll_cons, nonempty_eq_handles r, anyNonempty_eq_handles rest,
      ← Bool.decide_or]
    exact decide_eq_decide.mpr (by omega)

end

end ResultSet

namespace Engine

variable {setting : Setting} {query : Query} {selector : Selector}

/-! ### Leaves of a query -/

theorem isSingle_of_mem_itemsOf (root : NodeId) : ∀ {reached : Reached} {r : ResultSet},
    r ∈ itemsOf root reached → r.IsSingle
  | .root, _, mem => List.mem_singleton.mp mem ▸ .node root
  | .nodes _, _, mem => by obtain ⟨n, -, rfl⟩ := List.mem_map.mp mem; exact .node n
  | .components _, _, mem => by obtain ⟨i, -, rfl⟩ := List.mem_map.mp mem; exact .component i

/-- **Nothing but null and single handles stands at the leaves of what a query gives**, whatever it runs on. -/
theorem executeQuery_single (allowComponents : Bool) (anchor : Anchor) :
    Yields (executeQuery setting allowComponents query anchor) fun r => ∀ leaf ∈ r.leaves, leaf.IsSingle := by
  by_cases null : anchor = .null
  · exact null ▸ Yields.pure (List.forall_mem_singleton.mpr .null)
  · rw [executeQuery_of_ne_null allowComponents query null]
    refine Yields.of_rest fun selector => ?_
    unfold runParsed
    split
    · exact Yields.fail _
    · exact runQuery_leaves .null
        (fun start _ _ _ _ mem => isSingle_of_mem_itemsOf setting.page.root mem) anchor

/-! ### The gate -/

/-- Where a query may not end in a component it runs as where it may, or it is refused. -/
theorem executeQuery_gate (allowComponents : Bool) (anchor : Anchor) (p : Progress) :
    executeQuery setting allowComponents query anchor p = executeQuery setting true query anchor p ∨
      allowComponents = false ∧ (executeQuery setting allowComponents query anchor p).1 =
        .error (.error (.componentResult query.selector)) := by
  by_cases null : anchor = .null
  · exact .inl (null ▸ rfl)
  rw [executeQuery_of_ne_null _ query null, executeQuery_of_ne_null _ query null, bind_apply, bind_apply]
  match Run.parse query.selector p with
  | (.error h, q) => exact .inl rfl
  | (.ok selector, q) =>
    dsimp only [runParsed, refusal?]
    cases allowComponents <;> cases selector.endsInComponent
    · exact .inl rfl
    · exact .inr ⟨rfl, rfl⟩
    · exact .inl rfl
    · exact .inl rfl

/-! ### Calls on a query -/

/-- What a query comes to inside another fetcher, where it may end in a component. -/
def queried (engine : Engine) (limit now : Nat) (context : Context) (query : Query) :
    Except Halt ResultSet × Progress :=
  match engine.anchored limit now context with
  | (.error h, p) => (.error h, p)
  | (.ok anchor, p) => executeQuery (engine.settingAt now) true query anchor p

/-- By itself the query comes to the same, or it is refused. -/
theorem fetchWithin_queried (engine : Engine) (limit now : Nat) (context : Context) (query : Query) :
    let fetched := (engine.fetchWithin limit now ⟨context, .query query⟩).1
    fetched = (engine.queried limit now context query).1.map .results ∨
      engine.config.allowComponentResults = false ∧
        fetched = .error (.error (.componentResult query.selector)) := by
  intro fetched
  have run : fetched = _ := engine.fetchWithin_query limit now context query
  rw [run]
  unfold queried
  match engine.anchored limit now context with
  | (.error h, p) => exact .inl rfl
  | (.ok anchor, p) =>
    rcases @executeQuery_gate (engine.settingAt now) query engine.config.allowComponentResults anchor p with
      same | ⟨closed, refused⟩
    · exact .inl (congrArg (fun run => run.1.map Outcome.results) same)
    · exact .inr ⟨closed, congrArg (Except.map Outcome.results) refused⟩

/-- A call on a query runs on what the query comes to inside it. -/
theorem fetchWithin_call_queried (engine : Engine) (limit now : Nat) (context : Context) (query : Query)
    (call : FunctionCall) :
    (engine.fetchWithin limit now ⟨.fetcher context (.query query), .call call⟩).1 =
      match engine.queried limit now context query with
      | (.error h, _) => .error h
      | (.ok r, p) =>
        (callFunction (engine.settingAt now) engine.functions call (.ofResults r) p).1.map .value := by
  unfold fetchWithin resolve queried anchored
  dsimp only
  rw [bind_apply, normalizeBy, bind_apply]
  generalize normalizeBy (engine.settingAt now) engine.functions _ context _ = normalized
  match normalized with
  | (.error h, _) => rfl
  | (.ok anchor, p) =>
    dsimp only [perform]
    rw [bind_apply, bind_apply]
    match executeQuery (engine.settingAt now) true query anchor p with
    | (.error h, _) => rfl
    | (.ok r, q) => exact map_apply _ Outcome.value q

/-- **A count on a query is the number of handles that the query gives, and existence that there is one.**
Inside the calls the query may end in a component. If it gives results there, each of their leaves is
null, one node or one component, and both calls succeed; if it fails, both fail for the same reason.
Fetched by itself it comes to the same, unless components are not allowed and it is refused for ending in
one. -/
theorem fetchWithin_counts {engine : Engine}
    (counts : engine.functions.find? "count" = some Functions.count)
    (exists? : engine.functions.find? "exists" = some Functions.existence) (limit now : Nat)
    (context : Context) (query : Query) (args : List Json) :
    let fetched := fun context operation => (engine.fetchWithin limit now ⟨context, operation⟩).1
    let called := fun name => fetched (.fetcher context (.query query)) (.call ⟨name, args⟩)
    let inside := (engine.queried limit now context query).1
    (∀ r, inside = .ok r → (∀ leaf ∈ r.leaves, leaf.IsSingle) ∧
      called "count" = .ok (.value (.ofNat r.handles)) ∧
      called "exists" = .ok (.value (.bool (decide (0 < r.handles))))) ∧
    (∀ h, inside = .error h → called "count" = .error h ∧ called "exists" = .error h) ∧
    (fetched context (.query query) = inside.map .results ∨
      engine.config.allowComponentResults = false ∧
        fetched context (.query query) = .error (.error (.componentResult query.selector))) := by
  intro fetched called inside
  have ran : ∀ name, called name = _ := fun name =>
    engine.fetchWithin_call_queried limit now context query ⟨name, args⟩
  refine ⟨fun r given => ?_, fun h fails => ?_, engine.fetchWithin_queried limit now context query⟩
  · have single : ∀ leaf ∈ r.leaves, leaf.IsSingle := by
      unfold inside queried at given
      match engine.anchored limit now context, given with
      | (.ok anchor, p), given => exact executeQuery_single true anchor p r given
    have value {name : String} {f : TerminalFunction} {v : Json}
        (named : engine.functions.find? name = some f)
        (gives : ∀ p, f (engine.settingAt now) r args p = (.ok v, p)) : called name = .ok (.value v) := by
      rw [ran]
      obtain ⟨p, split⟩ : ∃ p, engine.queried limit now context query = (.ok r, p) :=
        ⟨_, Prod.ext given rfl⟩
      rw [split]
      dsimp only [callFunction]
      rw [named]
      dsimp only
      rw [toInput_ofResults, gives]
      rfl
    refine ⟨single, value counts fun p => ?_, value exists? fun p => ?_⟩
    · rw [← r.count_eq_handles single]
      rfl
    · rw [← r.nonempty_eq_handles]
      rfl
  · obtain ⟨p, split⟩ : ∃ p, engine.queried limit now context query = (.error h, p) :=
      ⟨_, Prod.ext fails rfl⟩
    constructor <;> rw [ran, split]

/-- From two nodes at once, from null and from a component: four items in all. -/
theorem fetchWithin_counts_mirror :
    let engine := ofPage mirrorPage .default
    let context : Context := .array [.nodes [⟨0⟩, ⟨1⟩], .null, .components [⟨0⟩]]
    let called := fun name =>
      (engine.fetchWithin 1 0 ⟨.fetcher context (.query (.all "li")), .call ⟨name, []⟩⟩).1
    engine.functions.find? "count" = some Functions.count ∧
      engine.functions.find? "exists" = some Functions.existence ∧
      called "count" = .ok (.value (.ofNat 4)) ∧ called "exists" = .ok (.value (.bool true)) := by
  intro engine context called
  have known : (engine.queried 1 0 context (.all "li")).1.toOption.map ResultSet.handles = some 4 := by
    decide +kernel
  obtain ⟨r, given, four⟩ := exists_ok_of_map known
  obtain ⟨-, counted, existing⟩ :=
    (@fetchWithin_counts engine rfl rfl 1 0 context (.all "li") []).1 r given
  rw [four] at counted existing
  exact ⟨rfl, rfl, counted, existing⟩

/-- The component that renders the list is refused by itself, where components are not allowed, and counted
inside a call. -/
theorem fetchWithin_counts_refused :
    let engine := ofPage mirrorPage .default
    let fetched := fun context operation => (engine.fetchWithin 1 0 ⟨context, operation⟩).1
    let menu : Operation := .query (.all "@Menu")
    let called := fun name => fetched (.fetcher (.root true) menu) (.call ⟨name, []⟩)
    fetched (.root true) menu = .error (.error (.componentResult "@Menu")) ∧
      called "count" = .ok (.value (.ofNat 1)) ∧ called "exists" = .ok (.value (.bool true)) := by
  intro engine fetched menu called
  have value {name : String} {v : Json} (known : (called name).toOption.map
      (fun o => o.casesOn (fun _ => none) some) = some (some v)) : called name = .ok (.value v) := by
    obtain ⟨o, given, same⟩ := exists_ok_of_map known
    cases o with
    | results r => cases same
    | value w => rw [given, Option.some.inj same]
  exact ⟨rfl, value (by decide +kernel), value (by decide +kernel)⟩

end Engine

end PageQuery
