/-
# Settings that differ for functions only

A query runs on the page and with the matcher; the rest of the configuration and the clock are there for
functions. So under two settings on the same page queries run alike, and where the functions come to the
same as well, contexts are anchored at the same places, values being read again alike. What differs in a
fetch is at most whether the outermost query may end in a component.

Key definitions: `Setting.Alike`, `Functions.Alike`.
Key theorems: `Engine.executeQuery_alike`, `Engine.anchorWithin_alike`, `Engine.outcome_resolve_alike`.
-/
import PageQuery.Proofs.Engine.Nesting

namespace PageQuery

open Run

/-- Both settings are on the same page with the same matcher. -/
def Setting.Alike (other setting : Setting) : Prop :=
  other.page = setting.page ∧ other.matcher = setting.matcher

/-- Every function comes to the same under both settings. -/
def Functions.Alike (fs : Functions) (other setting : Setting) : Prop := ∀ entry ∈ fs.entries,
  ∀ input args, outcome (entry.2 other input args) = outcome (entry.2 setting input args)

namespace Engine

variable {other setting : Setting} {functions : Functions}

variable {query : Query} {selector : Selector}

theorem runSegment_alike (alike : other.Alike setting) (segment : Segment) (reached : Reached) :
    runSegment other segment reached = runSegment setting segment reached := by
  obtain ⟨page, matcher, config, now⟩ := setting
  obtain ⟨_, _, config', now'⟩ := other
  obtain ⟨rfl, rfl⟩ : _ = page ∧ _ = matcher := alike
  cases segment <;> cases reached <;> rfl

theorem runSegments_alike (alike : other.Alike setting) : ∀ (segments : List Segment) (reached : Reached),
    runSegments other segments reached = runSegments setting segments reached
  | [], _ => rfl
  | segment :: rest, reached => by
    rw [runSegments, runSegments, runSegment_alike alike, funext (runSegments_alike alike rest)]

theorem runFrom_alike (alike : other.Alike setting) (start : Reached) :
    runFrom other query selector start = runFrom setting query selector start := by
  unfold runFrom
  rw [runSegments_alike alike, alike.1]

mutual

theorem runQuery_alike (alike : other.Alike setting) : ∀ anchor : Anchor,
    runQuery other query selector anchor = runQuery setting query selector anchor
  | .null => rfl
  | .root => runFrom_alike alike .root
  | .nodes nodes => runFrom_alike alike (.nodes nodes)
  | .components components => runFrom_alike alike (.components components)
  | .array items => by rw [runQuery, runQuery, runQueryEach_alike alike items]

theorem runQueryEach_alike (alike : other.Alike setting) : ∀ items : List Anchor,
    runQueryEach other query selector items = runQueryEach setting query selector items
  | [] => rfl
  | a :: rest => by rw [runQueryEach, runQueryEach, runQuery_alike alike a, runQueryEach_alike alike rest]

end

/-- **Queries run alike.** -/
theorem executeQuery_alike (alike : other.Alike setting) (allowComponents : Bool) (anchor : Anchor) :
    executeQuery other allowComponents query anchor =
      executeQuery setting allowComponents query anchor := by
  by_cases null : anchor = .null
  · rw [null]; rfl
  · rw [executeQuery_of_ne_null allowComponents query null,
      executeQuery_of_ne_null allowComponents query null]
    refine congrArg (_ >>= ·) (funext fun selector => ?_)
    unfold runParsed
    rw [runQuery_alike alike]

/-! ### Contexts -/

theorem outcome_perform_alike (settled : functions.Settled) (alike : other.Alike setting)
    (same : functions.Alike other setting) (allowComponents : Bool) :
    ∀ (operation : Operation) (anchor : Anchor),
      outcome (perform other functions allowComponents operation anchor) =
        outcome (perform setting functions allowComponents operation anchor)
  | .query query, anchor => by
    rw [outcome_perform_execute, outcome_perform_execute, executeQuery_alike alike]
  | .call call, anchor => by
    rw [outcome_perform_call settled, outcome_perform_call settled]
    refine congrArg _ ?_
    unfold callFunction
    cases found : functions.find? call.name with
    | none => rfl
    | some f =>
      rw [alike.1]
      exact same _ (Fields.mem_of_find? found) _ call.args

mutual

/-- Contexts are anchored at the same places if values that are read again are. -/
theorem outcome_normalizeBy_alike (settled : functions.Settled) (alike : other.Alike setting)
    (same : functions.Alike other setting) {again again' : Json → Run Anchor}
    (reads : ∀ value, Settles AnyHalt (again value)) (reads' : ∀ value, Settles AnyHalt (again' value))
    (rereads : ∀ value, outcome (again' value) = outcome (again value)) : ∀ context : Context,
      outcome (normalizeBy other functions again' context) =
        outcome (normalizeBy setting functions again context)
  | .null | .root true | .root false | .node _ | .nodes _ | .components _ => by
    rw [normalizeBy, normalizeBy]
  | .array items => by
    rw [outcome_normalizeBy_array settled reads', outcome_normalizeBy_array settled reads,
      each_outcome_normalizeBy_alike settled alike same reads reads' rereads items]
  | .fetcher context operation => by
    rw [outcome_normalizeBy_fetcher settled reads', outcome_normalizeBy_fetcher settled reads,
      outcome_normalizeBy_alike settled alike same reads reads' rereads context]
    refine congrArg _ (funext fun anchor => ?_)
    rw [outcome_perform_alike settled alike same]
    refine congrArg _ (funext fun o => ?_)
    cases o with
    | results r => rfl
    | value value => exact rereads value

theorem each_outcome_normalizeBy_alike (settled : functions.Settled) (alike : other.Alike setting)
    (same : functions.Alike other setting) {again again' : Json → Run Anchor}
    (reads : ∀ value, Settles AnyHalt (again value)) (reads' : ∀ value, Settles AnyHalt (again' value))
    (rereads : ∀ value, outcome (again' value) = outcome (again value)) : ∀ items : List Context,
      each (fun c => outcome (normalizeBy other functions again' c)) items =
        each (fun c => outcome (normalizeBy setting functions again c)) items
  | [] => by rw [each, each]
  | c :: rest => by
    rw [each, each, outcome_normalizeBy_alike settled alike same reads reads' rereads c,
      each_outcome_normalizeBy_alike settled alike same reads reads' rereads rest]

end

section resolution

variable (settled : functions.Settled) (alike : other.Alike setting) (same : functions.Alike other setting)

include settled alike same

theorem outcome_reread_alike : ∀ (limit : Nat) (value : Json),
    outcome (reread other functions limit value) = outcome (reread setting functions limit value)
  | 0, _ => rfl
  | limit + 1, value => by
    unfold reread
    cases Context.ofJson? value with
    | none => rfl
    | some context =>
      exact outcome_normalizeBy_alike settled alike same (reread_settles settled limit)
        (reread_settles settled limit) (outcome_reread_alike limit) context

/-- **Contexts are anchored at the same places.** -/
theorem anchorWithin_alike (limit : Nat) (context : Context) :
    anchorWithin other functions limit context = anchorWithin setting functions limit context :=
  outcome_normalizeBy_alike settled alike same (reread_settles settled limit)
    (reread_settles settled limit) (outcome_reread_alike settled alike same limit) context

/-- **Under settings that allow the same, a fetch comes to the same.** -/
theorem outcome_resolve_alike
    (gate : other.config.allowComponentResults = setting.config.allowComponentResults) (limit : Nat)
    (fetcher : Fetcher) :
    outcome (resolve other functions limit fetcher) = outcome (resolve setting functions limit fetcher) := by
  have anchored := anchorWithin_alike settled alike same limit fetcher.context
  unfold anchorWithin at anchored
  rw [outcome_resolve settled, outcome_resolve settled, anchored, gate]
  refine congrArg _ (funext fun anchor => ?_)
  exact outcome_perform_alike settled alike same _ fetcher.operation anchor

end resolution

end Engine

end PageQuery
