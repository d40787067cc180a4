/-
# Arrays of contexts are fetched item by item

The items of an array of contexts share the identities, the parses and the overlay of one fetch. None
of it shows: a query in such a context comes to the array of what it comes to in each of them, fetched
alone on an engine that has fetched nothing before.

Key theorem: `Engine.fetchWithin_array`.
-/
import PageQuery.Proofs.Engine.Resolution

namespace PageQuery

open Run

namespace Engine

variable {setting : Setting} {functions : Functions} {query : Query} {selector : Selector}

theorem refusal?_eq_none {allowComponents : Bool}
    (fits : allowComponents = true ∨ selector.endsInComponent = false)
    (plural : query.multi = true ∨ query.at? = none) : refusal? allowComponents query selector = none := by
  unfold refusal?
  rcases fits with fits | fits <;> rcases plural with plural | plural <;> simp [fits, plural]

/-- The results of a query in a context are what the query gives at the anchor. -/
theorem outcome_resolve_query (settled : functions.Settled)
    (parsed : Selector.parse query.selector = .ok selector)
    (fits : refusal? setting.config.allowComponentResults query selector = none) (limit : Nat)
    (context : Context) {o : Outcome} :
    outcome (resolve setting functions limit ⟨context, .query query⟩) = .ok o ↔
      ∃ r, o = .results r ∧ ∃ a,
        outcome (normalizeBy setting functions (reread setting functions limit) context) = .ok a ∧
          outcome (runQuery setting query selector a) = .ok r := by
  rw [outcome_resolve settled]
  simp only [outcome_perform_query parsed fits]
  cases outcome (normalizeBy setting functions (reread setting functions limit) context) with
  | error h => simp [Except.bind]
  | ok a =>
    show (outcome (runQuery setting query selector a)).map Outcome.results = .ok o ↔ _
    cases e : outcome (runQuery setting query selector a) with
    | error h => simp [Except.map, e]
    | ok r => simp [Except.map, e, eq_comm]

/-- In an array of contexts a query comes to the array of what it comes to in each. -/
theorem outcome_resolve_array (settled : functions.Settled)
    (parsed : Selector.parse query.selector = .ok selector)
    (fits : refusal? setting.config.allowComponentResults query selector = none) (limit : Nat)
    (contexts : List Context) {o : Outcome} :
    outcome (resolve setting functions limit ⟨.array contexts, .query query⟩) = .ok o ↔
      ∃ results, o = .results (.array results) ∧ List.Forall₂ (fun c r =>
        outcome (resolve setting functions limit ⟨c, .query query⟩) = .ok (.results r)) contexts results := by
  have alone : ∀ c r, outcome (resolve setting functions limit ⟨c, .query query⟩) = .ok (.results r) ↔
      ∃ a, outcome (normalizeBy setting functions (reread setting functions limit) c) = .ok a ∧
        outcome (runQuery setting query selector a) = .ok r := fun c r => by
    rw [outcome_resolve_query settled parsed fits]
    simp
  rw [outcome_resolve_query settled parsed fits,
    outcome_normalizeBy_array settled (reread_settles settled limit)]
  simp only [alone, ← forall₂_comp, ← each_ok_iff, map_ok_iff]
  constructor
  · rintro ⟨r, rfl, a, ⟨anchors, found, rfl⟩, run⟩
    rw [outcome_runQuery_array, map_ok_iff] at run
    obtain ⟨results, each, rfl⟩ := run
    exact ⟨results, rfl, anchors, found, each⟩
  · rintro ⟨results, rfl, anchors, found, each⟩
    refine ⟨_, rfl, _, ⟨anchors, found, rfl⟩, ?_⟩
    rw [outcome_runQuery_array, map_ok_iff]
    exact ⟨results, each, rfl⟩

/-- **A query maps over an array of contexts.** On any engine, whatever it fetched before, a query in an
array of contexts succeeds exactly when it does in each of them alone, fetched on an engine that has
fetched nothing, and what it then gives is the array of what it gives there. -/
theorem fetchWithin_array {engine : Engine} (reached : engine.Reachable) (limit now : Nat)
    (contexts : List Context) {query : Query} {selector : Selector}
    (parsed : Selector.parse query.selector = .ok selector)
    (fits : engine.config.allowComponentResults = true ∨ selector.endsInComponent = false)
    (plural : query.multi = true ∨ query.at? = none) :
    let whole := (engine.fetchWithin limit now ⟨.array contexts, .query query⟩).1
    let alone := fun c => (engine.renewed.fetchWithin limit now ⟨c, .query query⟩).1
    ((∃ o, whole = .ok o) ↔ ∀ c ∈ contexts, ∃ o, alone c = .ok o) ∧
      ∀ o, whole = .ok o → ∃ results, o = .results (.array results) ∧
        List.Forall₂ (fun c r => alone c = .ok (.results r)) contexts results := by
  intro whole alone
  have fits := refusal?_eq_none fits plural
  have settled := reached.sound.2
  have items : ∀ o, whole = .ok o ↔ ∃ results, o = .results (.array results) ∧
      List.Forall₂ (fun c r => alone c = .ok (.results r)) contexts results := by
    intro o
    simp only [whole, alone, fetchWithin_fst reached, fetchWithin_renewed reached]
    exact outcome_resolve_array settled parsed fits limit contexts
  refine ⟨?_, fun o h => (items o).mp h⟩
  have results : ∀ c, (∃ o, alone c = .ok o) ↔ ∃ r, alone c = .ok (.results r) := by
    intro c
    simp only [alone, fetchWithin_renewed reached]
    constructor
    · rintro ⟨o, h⟩
      obtain ⟨r, rfl, -⟩ := (outcome_resolve_query settled parsed fits limit c).mp h
      exact ⟨r, h⟩
    · rintro ⟨r, h⟩
      exact ⟨_, h⟩
  simp only [results, items, ← exists_forall₂_iff]
  constructor
  · rintro ⟨o, rs, -, h⟩
    exact ⟨rs, h⟩
  · rintro ⟨rs, h⟩
    exact ⟨_, rs, rfl, h⟩

/-- All items of the list, from the root and from nothing. -/
theorem fetchWithin_array_mirror :
    let engine : Engine := { ofPage mirrorPage .default with matcher := Predicate.matches }
    ∃ results, results.length = 2 ∧
      (engine.fetchWithin 1 0 ⟨.array [.root true, .null], .query ⟨"ul li", true, none⟩⟩).1 =
        .ok (.results (.array results)) := by
  intro engine
  have maps := @fetchWithin_array engine (.start mirrorPage Predicate.matches .default) 1 0
    [.root true, .null] ⟨"ul li", true, none⟩ ⟨"ul li", [.structural "ul li"]⟩ (by decide +kernel)
    (Or.inr (by decide)) (Or.inl rfl)
  have alone : ∀ c ∈ [Context.root true, .null],
      ∃ o, (engine.renewed.fetchWithin 1 0 ⟨c, .query ⟨"ul li", true, none⟩⟩).1 = .ok o := by
    intro c hc
    simp only [List.mem_cons, List.not_mem_nil, or_false] at hc
    rcases hc with rfl | rfl
    · exact exists_ok_of_toBool (by decide +kernel)
    · exact exists_ok_of_toBool (by decide +kernel)
  obtain ⟨o, h⟩ := maps.1.mpr alone
  obtain ⟨results, rfl, found⟩ := maps.2 o h
  exact ⟨results, found.length_eq.symm, h⟩

end Engine

end PageQuery
