/-
# Fetches have outcomes of their own

Every step of a resolution settles if the functions do, so what a fetch comes to hangs on the page, the
configuration and the fetcher and not on the fetches before it. What it comes to is read off the steps:
arrays are resolved item by item, contexts before operations.

An engine is reached from a new one by fetching, by registering functions that settle and by clearing
the overlay.

Key definitions: `Engine.refusal?`, `Engine.Reachable`.
Key theorems: `Engine.normalizeBy_settles`, `Engine.fetchWithin_fst`.
-/
import PageQuery.Engine.Basic
import PageQuery.Proofs.Component.BelowNodes
import PageQuery.Proofs.Engine.Functions

namespace PageQuery

open Run

namespace Engine

variable {setting : Setting} {functions : Functions}

/-! ### Queries settle -/

theorem searchNodes_settles (selector : String) (nodes : List NodeId) :
    Settles Halt.IsError (searchNodes setting selector nodes) :=
  (Settles.ofDocument Halt.isError).bind fun _ => Agree.pure _

theorem runSegment_settles : ∀ (segment : Segment) (reached : Reached),
    Settles Halt.IsError (runSegment setting segment reached)
  | .structural _, .root => (Settles.ofDocument Halt.isError).bind fun _ => Agree.pure _
  | .structural selector, .nodes nodes => (searchNodes_settles selector nodes).bind fun _ => Agree.pure _
  | .structural selector, .components components =>
    (Settles.ofSearch (setting.page.searchWithin_finds selector components) Halt.isError).bind fun _ =>
      Agree.pure _
  | .component _, .root =>
    (Settles.ofSearch (Page.findDescendants_finds .everywhere) Halt.isError).bind fun _ => Agree.pure _
  | .component _, .nodes nodes =>
    (Settles.ofSearch (Page.findBelowNodes_finds nodes) Halt.isError).bind fun _ => Agree.pure _
  | .component _, .components components =>
    (Settles.ofSearch (Page.findDescendants_finds (.below components)) Halt.isError).bind fun _ =>
      Agree.pure _

theorem runSegments_settles : ∀ (segments : List Segment) (reached : Reached),
    Settles Halt.IsError (runSegments setting segments reached)
  | [], reached => Agree.pure reached
  | segment :: rest, reached => (runSegment_settles segment reached).bind (runSegments_settles rest)

variable {query : Query} {selector : Selector}

theorem runFrom_settles (start : Reached) :
    Settles Halt.IsError (runFrom setting query selector start) :=
  (runSegments_settles selector.segments start).bind fun _ => Agree.pure _

mutual

theorem runQuery_settles : ∀ anchor : Anchor, Settles Halt.IsError (runQuery setting query selector anchor)
  | .null => Agree.pure _
  | .root => runFrom_settles _
  | .nodes _ => runFrom_settles _
  | .components _ => runFrom_settles _
  | .array items => (runQueryEach_settles items).bind fun _ => Agree.pure _

theorem runQueryEach_settles : ∀ items : List Anchor,
    Settles Halt.IsError (runQueryEach setting query selector items)
  | [] => Agree.pure []
  | a :: rest => (runQuery_settles a).bind fun _ => (runQueryEach_settles rest).bind fun _ => Agree.pure _

end

/-- Why a parsed query may not run where it stands, if it may not. -/
def refusal? (allowComponents : Bool) (query : Query) (selector : Selector) : Option QueryError :=
  if !allowComponents && selector.endsInComponent then some (.componentResult query.selector)
  else match query.multi, query.at? with
    | false, some index => some (.indexOnSingle query.selector index)
    | _, _ => none

/-- Runs a parsed query unless it is refused. -/
def runParsed (setting : Setting) (allowComponents : Bool) (query : Query) (anchor : Anchor)
    (selector : Selector) : Run ResultSet :=
  match refusal? allowComponents query selector with
  | some e => Run.fail e
  | none => runQuery setting query selector anchor

/-- At an anchor that is not null, a query is parsed and, unless it is refused, run. -/
theorem executeQuery_of_ne_null (allowComponents : Bool) (query : Query) {anchor : Anchor}
    (h : anchor ≠ .null) : executeQuery setting allowComponents query anchor =
      Run.parse query.selector >>= runParsed setting allowComponents query anchor := by
  have body : ∀ a : Anchor, (do
      let selector ← Run.parse query.selector
      if !allowComponents && selector.endsInComponent then
        Run.fail (.componentResult query.selector)
      match query.multi, query.at? with
      | false, some index => Run.fail (.indexOnSingle query.selector index)
      | _, _ => runQuery setting query selector a) =
        Run.parse query.selector >>= runParsed setting allowComponents query a := by
    intro a
    refine congrArg (Run.parse query.selector >>= ·) (funext fun selector => ?_)
    unfold runParsed refusal?
    cases !allowComponents && selector.endsInComponent <;> cases query.multi <;> cases query.at? <;> rfl
  match anchor, h with
  | .root, _ => exact body _
  | .nodes _, _ => exact body _
  | .components _, _ => exact body _
  | .array _, _ => exact body _

theorem runParsed_settles (allowComponents : Bool) (anchor : Anchor) (selector : Selector) :
    Settles Halt.IsError (runParsed setting allowComponents query anchor selector) := by
  unfold runParsed
  split
  · exact Agree.throw (Halt.isError _)
  · exact runQuery_settles anchor

theorem executeQuery_settles (allowComponents : Bool) (anchor : Anchor) :
    Settles Halt.IsError (executeQuery setting allowComponents query anchor) := by
  by_cases h : anchor = .null
  · exact h ▸ Agree.pure _
  · rw [executeQuery_of_ne_null allowComponents query h]
    exact (Settles.parse query.selector Halt.isError).bind (runParsed_settles allowComponents anchor)

/-! ### Operations and contexts settle -/

theorem callFunction_settles (settled : functions.Settled) (call : FunctionCall) (anchor : Anchor) :
    Settles Halt.IsError (callFunction setting functions call anchor) := by
  unfold callFunction
  cases e : functions.find? call.name with
  | none => exact Agree.throw (Halt.isError _)
  | some f => exact settled.find e setting _ call.args

theorem perform_settles (settled : functions.Settled) (allowComponents : Bool) :
    ∀ (operation : Operation) (anchor : Anchor),
      Settles Halt.IsError (perform setting functions allowComponents operation anchor)
  | .query _, anchor => (executeQuery_settles allowComponents anchor).bind fun _ => Agree.pure _
  | .call call, anchor => (callFunction_settles settled call anchor).bind fun _ => Agree.pure _

variable {allowed : Halt → Prop} {again : Json → Run Anchor}

theorem anchorOf_settles (h : ∀ value, Settles allowed (again value)) : ∀ outcome : Outcome,
    Settles allowed (anchorOf again outcome)
  | .results _ => Agree.pure _
  | .value value => h value

mutual

theorem normalizeBy_settles (settled : functions.Settled) (errors : ∀ x, Halt.IsError x → allowed x)
    (h : ∀ value, Settles allowed (again value)) : ∀ context : Context,
    Settles allowed (normalizeBy setting functions again context)
  | .null => Agree.pure _
  | .root true => Agree.pure _
  | .root false => Agree.throw (errors _ (Halt.isError _))
  | .node _ => Agree.pure _
  | .nodes _ => Agree.pure _
  | .components _ => Agree.pure _
  | .array items => (normalizeEachBy_settles settled errors h items).bind fun _ => Agree.pure _
  | .fetcher context operation => (normalizeBy_settles settled errors h context).bind fun anchor =>
    ((perform_settles settled true operation anchor).mono errors).bind (anchorOf_settles h)

theorem normalizeEachBy_settles (settled : functions.Settled)
    (errors : ∀ x, Halt.IsError x → allowed x) (h : ∀ value, Settles allowed (again value)) :
    ∀ items : List Context, Settles allowed (normalizeEachBy setting functions again items)
  | [] => Agree.pure []
  | c :: rest => (normalizeBy_settles settled errors h c).bind fun _ =>
    (normalizeEachBy_settles settled errors h rest).bind fun _ => Agree.pure _

end

/-- Nothing is ruled out. -/
def AnyHalt : Halt → Prop := fun _ => True

theorem reread_settles (settled : functions.Settled) : ∀ (limit : Nat) (value : Json),
    Settles AnyHalt (reread setting functions limit value)
  | 0, _ => Agree.throw trivial
  | limit + 1, value => by
    unfold reread
    cases Context.ofJson? value with
    | none => exact Agree.throw trivial
    | some context =>
      exact normalizeBy_settles settled (fun _ _ => trivial) (reread_settles settled limit) context

theorem resolve_settles (settled : functions.Settled) (limit : Nat) (fetcher : Fetcher) :
    Settles AnyHalt (resolve setting functions limit fetcher) :=
  (normalizeBy_settles settled (fun _ _ => trivial) (reread_settles settled limit) fetcher.context).bind
    fun anchor => (perform_settles settled _ fetcher.operation anchor).mono fun _ _ => trivial

/-! ### Engines -/

/-- Reached from a new engine; functions that are registered settle. -/
inductive Reachable : Engine → Prop
  | start (page : Page) (matcher : PropertyMatcher) (config : EngineConfig) :
    Reachable { ofPage page config with matcher }
  | register {engine : Engine} (name : String) {f : TerminalFunction} :
    f.Settles → Reachable engine →
      Reachable { engine with functions := engine.functions.register name f }
  | clear {engine : Engine} :
    Reachable engine → Reachable { engine with overlay := engine.overlay.clear }
  | fetch {engine : Engine} (limit now : Nat) (fetcher : Fetcher) :
    Reachable engine → Reachable (engine.fetchWithin limit now fetcher).2

theorem Reachable.sound {engine : Engine} (h : engine.Reachable) :
    engine.selectors.Sound ∧ engine.functions.Settled := by
  induction h with
  | start page matcher config => exact ⟨SelectorCache.sound_empty, Functions.builtin_settled⟩
  | register name hf _ ih => exact ⟨ih.1, ih.2.register name hf⟩
  | clear _ ih => exact ih
  | fetch limit now fetcher _ ih => exact ⟨(resolve_settles ih.2 limit fetcher).sound ih.1, ih.2⟩

/-- The engine without what earlier fetches left behind. -/
def renewed (engine : Engine) : Engine := { engine with selectors := .empty, overlay := .empty }

/-- **What a fetch comes to hangs on no fetch before it.** -/
theorem fetchWithin_fst {engine : Engine} (h : engine.Reachable) (limit now : Nat) (fetcher : Fetcher) :
    (engine.fetchWithin limit now fetcher).1 =
      outcome (resolve (engine.settingAt now) engine.functions limit fetcher) :=
  (resolve_settles h.sound.2 limit fetcher).apply h.sound.1

theorem fetchWithin_renewed {engine : Engine} (h : engine.Reachable) (limit now : Nat) (fetcher : Fetcher) :
    (engine.renewed.fetchWithin limit now fetcher).1 =
      outcome (resolve (engine.settingAt now) engine.functions limit fetcher) :=
  (resolve_settles h.sound.2 limit fetcher).apply SelectorCache.sound_empty

/-! ### What the steps come to -/

theorem outcome_runQuery_array (items : List Anchor) :
    outcome (runQuery setting query selector (.array items)) =
      (each (fun a => outcome (runQuery setting query selector a)) items).map .array := by
  have steps : ∀ items : List Anchor, outcome (runQueryEach setting query selector items) =
      each (fun a => outcome (runQuery setting query selector a)) items := by
    intro items
    induction items with
    | nil => rfl
    | cons a rest ih =>
      have rests : ∀ r : ResultSet, Settles Halt.IsError
          (runQueryEach setting query selector rest >>= fun results => pure (r :: results)) := fun _ =>
        (runQueryEach_settles rest).bind fun _ => Agree.pure _
      rw [each, ← ih]
      refine (outcome_bind (runQuery_settles a) rests).trans (congrArg _ (funext fun r => ?_))
      exact outcome_map _ (runQueryEach_settles rest)
  rw [← steps]
  exact outcome_map _ (runQueryEach_settles items)

theorem outcome_normalizeBy_array (settled : functions.Settled)
    (h : ∀ value, Settles AnyHalt (again value)) (items : List Context) :
    outcome (normalizeBy setting functions again (.array items)) =
      (each (fun c => outcome (normalizeBy setting functions again c)) items).map .array := by
  have one : ∀ c, Settles AnyHalt (normalizeBy setting functions again c) :=
    normalizeBy_settles settled (fun _ _ => trivial) h
  have all : ∀ cs, Settles AnyHalt (normalizeEachBy setting functions again cs) :=
    normalizeEachBy_settles settled (fun _ _ => trivial) h
  have steps : ∀ items : List Context, outcome (normalizeEachBy setting functions again items) =
      each (fun c => outcome (normalizeBy setting functions again c)) items := by
    intro items
    induction items with
    | nil => rfl
    | cons c rest ih =>
      have rests : ∀ a : Anchor, Settles AnyHalt
          (normalizeEachBy setting functions again rest >>= fun anchors => pure (a :: anchors)) := fun _ =>
        (all rest).bind fun _ => Agree.pure _
      rw [each, ← ih]
      refine (outcome_bind (one c) rests).trans (congrArg _ (funext fun a => ?_))
      exact outcome_map _ (all rest)
  rw [← steps]
  exact outcome_map _ (all items)

theorem outcome_normalizeBy_fetcher (settled : functions.Settled)
    (h : ∀ value, Settles AnyHalt (again value)) (context : Context) (operation : Operation) :
    outcome (normalizeBy setting functions again (.fetcher context operation)) =
      (outcome (normalizeBy setting functions again context)).bind fun anchor =>
        (outcome (perform setting functions true operation anchor)).bind fun o =>
          outcome (anchorOf again o) := by
  have performed : ∀ anchor, Settles Halt.IsError (perform setting functions true operation anchor) :=
    perform_settles settled true operation
  have rests : ∀ anchor, Settles AnyHalt
      (perform setting functions true operation anchor >>= anchorOf again) := fun anchor =>
    ((performed anchor).mono fun _ _ => trivial).bind (anchorOf_settles h)
  have normalized : Settles AnyHalt (normalizeBy setting functions again context) :=
    normalizeBy_settles settled (fun _ _ => trivial) h context
  refine (outcome_bind normalized rests).trans
    (congrArg _ (funext fun anchor => ?_))
  exact outcome_bind (performed anchor) (anchorOf_settles h)

theorem outcome_resolve (settled : functions.Settled) (limit : Nat) (fetcher : Fetcher) :
    outcome (resolve setting functions limit fetcher) =
      (outcome (normalizeBy setting functions (reread setting functions limit) fetcher.context)).bind
        fun anchor => outcome (perform setting functions setting.config.allowComponentResults
          fetcher.operation anchor) :=
  outcome_bind (normalizeBy_settles settled (fun _ _ => trivial) (reread_settles settled limit) _)
    fun anchor => perform_settles settled _ fetcher.operation anchor

theorem outcome_perform_execute (allowComponents : Bool) (anchor : Anchor) :
    outcome (perform setting functions allowComponents (.query query) anchor) =
      (outcome (executeQuery setting allowComponents query anchor)).map .results :=
  outcome_map _ (executeQuery_settles allowComponents anchor)

theorem outcome_perform_call (settled : functions.Settled) (allowComponents : Bool) (call : FunctionCall)
    (anchor : Anchor) : outcome (perform setting functions allowComponents (.call call) anchor) =
      (outcome (callFunction setting functions call anchor)).map .value :=
  outcome_map _ (callFunction_settles settled call anchor)

theorem outcome_executeQuery (allowComponents : Bool) (query : Query) {anchor : Anchor}
    (h : anchor ≠ .null) : outcome (executeQuery setting allowComponents query anchor) =
      ((Selector.parse query.selector).mapError fun e => .error (.selector e)).bind fun selector =>
        outcome (runParsed setting allowComponents query anchor selector) := by
  rw [executeQuery_of_ne_null allowComponents query h,
    outcome_bind (Settles.parse query.selector Halt.isError) (runParsed_settles allowComponents anchor),
    outcome_parse]

/-- A query that parses and is not refused runs, at null too. -/
theorem outcome_perform_query {allowComponents : Bool} (parsed : Selector.parse query.selector = .ok selector)
    (fits : refusal? allowComponents query selector = none) (anchor : Anchor) :
    outcome (perform setting functions allowComponents (.query query) anchor) =
      (outcome (runQuery setting query selector anchor)).map .results := by
  rw [outcome_perform_execute]
  by_cases h : anchor = .null
  · rw [h]; rfl
  · rw [outcome_executeQuery allowComponents query h, parsed]
    show (outcome (runParsed setting allowComponents query anchor selector)).map _ = _
    unfold runParsed
    rw [fits]

end Engine

end PageQuery
