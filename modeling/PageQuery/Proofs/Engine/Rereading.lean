/-
# Values of functions as contexts

The value of a function in a context is meant to be null, handles or an array of such values: the
operation behind the call runs at the handles that the value denotes, and any other value is an error.
But the value is read with all the forms that the context of a request may have. Where it reads as a
root marker or a fetcher, the operation runs at the root of the page or behind a query that was not
asked for; a prop that is a list of one truth value is enough. Where it reads as neither, at any depth,
the rule holds, and so it does for every function at hand but `prop`.

Key definitions: `Engine.fetchAtHandles`.
Key theorems: `Engine.outcome_resolve_value`, `Engine.fetchWithin_value_anchors`.
-/
import PageQuery.Proofs.Engine.PropValues

namespace PageQuery

open Run

namespace Engine

variable {setting : Setting} {functions : Functions}

/-- A call has the value that the function gives where the context is. -/
theorem outcome_resolve_call (settled : functions.Settled) {limit : Nat} {context : Context}
    {call : FunctionCall} {v : Json} :
    outcome (resolve setting functions limit ⟨context, .call call⟩) = .ok (.value v) ↔
      ∃ anchor, anchorWithin setting functions limit context = .ok anchor ∧
        outcome (callFunction setting functions call anchor) = .ok v := by
  rw [outcome_resolve settled, bind_ok_iff]
  refine exists_congr fun anchor => and_congr_right fun _ => ?_
  rw [outcome_perform_call settled, map_ok_iff]
  simp

/-- An operation behind a call runs where the value of the call reads as a context, or nowhere. -/
theorem outcome_resolve_value (settled : functions.Settled) {limit : Nat} {context : Context}
    {call : FunctionCall} {v : Json}
    (called : outcome (resolve setting functions limit ⟨context, .call call⟩) = .ok (.value v))
    (operation : Operation) :
    outcome (resolve setting functions (limit + 1) ⟨.fetcher context (.call call), operation⟩) =
      match Context.ofJson? v with
      | none => .error (.error (.notAContext v))
      | some c => outcome (resolve setting functions limit ⟨c, operation⟩) := by
  obtain ⟨anchor, there, given⟩ := (outcome_resolve_call settled).mp called
  -- One more turn for the value leaves what the context of the call comes to as it is.
  have kept : anchorWithin setting functions (limit + 1) context = .ok anchor := by
    rw [anchorWithin_le settled (Nat.le_succ limit) (there ▸ ends_ok anchor), there]
  have value : anchorWithin setting functions (limit + 1) (.fetcher context (.call call)) =
      outcome (reread setting functions (limit + 1) v) := by
    rw [anchorWithin_fetcher settled, kept, ok_bind, outcome_perform_call settled, given]
    rfl
  rw [outcome_resolve settled, show outcome _ = _ from value, outcome_reread_succ]
  cases Context.ofJson? v with
  | none => rfl
  | some c => exact (outcome_resolve settled limit ⟨c, operation⟩).symm

theorem readsHandles_of_called {call : FunctionCall} {anchor : Anchor} {v : Json}
    (tame : call.name ≠ "prop" ∨ setting.page.PropsMarkNothing)
    (called : outcome (callFunction setting .builtin call anchor) = .ok v) : v.ReadsHandles := by
  unfold callFunction at called
  cases e : Functions.builtin.find? call.name with
  | none => rw [e] at called; cases called
  | some f =>
    rw [e] at called
    by_cases name : call.name = "prop"
    · rw [name] at e
      cases e
      have props := tame.resolve_left (not_not_intro name)
      exact Functions.prop_readsHandles props _ _ fresh v called
    · exact Functions.readsHandles_of_ne_prop e name _ _ fresh v called

/-- The rule for values as contexts: an operation runs at the handles that the value denotes, and a value
that denotes none is an error. -/
def fetchAtHandles (engine : Engine) (limit now : Nat) (v : Json) (operation : Operation) :
    Except Halt Outcome :=
  match v.handles? with
  | some c => (engine.fetchWithin limit now ⟨c, operation⟩).1
  | none => .error (.error (.notAContext v))

/-- **An operation behind a call runs wherever the value of the call reads as a context.** That is where
the rule for values says if the value reads as no root marker and no fetcher, at any depth. With the
functions at hand the value does not, unless it is a prop and the page holds such props. -/
theorem fetchWithin_value_anchors {engine : Engine} (reached : engine.Reachable) {limit now : Nat}
    {context : Context} {call : FunctionCall} {v : Json}
    (called : (engine.fetchWithin limit now ⟨context, .call call⟩).1 = .ok (.value v))
    (operation : Operation) :
    let behind := (engine.fetchWithin (limit + 1) now ⟨.fetcher context (.call call), operation⟩).1
    (behind = match Context.ofJson? v with
      | some c => (engine.fetchWithin limit now ⟨c, operation⟩).1
      | none => .error (.error (.notAContext v))) ∧
    (v.ReadsHandles → behind = engine.fetchAtHandles limit now v operation) ∧
    (engine.functions = .builtin → call.name ≠ "prop" ∨ engine.page.PropsMarkNothing →
      v.ReadsHandles) := by
  intro behind
  have settled := reached.sound.2
  rw [fetchWithin_fst reached] at called
  have anywhere : behind = match Context.ofJson? v with
      | some c => (engine.fetchWithin limit now ⟨c, operation⟩).1
      | none => .error (.error (.notAContext v)) := by
    simp only [behind, fetchWithin_fst reached]
    rw [outcome_resolve_value settled called operation]
    cases Context.ofJson? v <;> rfl
  refine ⟨anywhere, fun handles => ?_, fun builtin tame => ?_⟩
  · rw [anywhere, Json.ofJson?_eq_handles?_iff.mpr handles]
    rfl
  · rw [builtin] at called
    obtain ⟨anchor, -, given⟩ := (outcome_resolve_call Functions.builtin_settled).mp called
    exact readsHandles_of_called tame given

/-- A list in a body, by a function component whose props look like contexts. -/
def lookalikePage : Page := Page.ofTables ⟨0⟩
  #[⟨some "body", [], none, "", none, .zero⟩, ⟨some "ul", [], some 0, "", some 1, .zero⟩,
    ⟨some "li", [], some 1, "one", some 2, .zero⟩]
  #[⟨none, none, .function, some "Menu", .object [("flags", .array [.bool true]),
      ("items", .array [.object [("node", .ofNat 1)], .null]),
      ("place", .object [("isRoot", .bool true)]),
      ("search", .object [("context", .object [("isRoot", .bool true)]),
        ("query", .object [("selector", .string "ul")])])], none⟩,
    ⟨some 0, none, .host, none, .null, some (.node ⟨1⟩)⟩,
    ⟨some 1, none, .host, none, .null, some (.node ⟨2⟩)⟩]

/-- The call for a prop of the component. -/
def lookalikeCall (key : String) : Context :=
  .fetcher (.components [⟨0⟩]) (.call ⟨"prop", [.string key]⟩)

/-- A list of a node and nothing is read item by item. -/
theorem fetchWithin_value_anchors_lookalike :
    let engine := ofPage lookalikePage .default
    (engine.fetchWithin 1 0 ⟨lookalikeCall "items", .query ⟨"li", true, none⟩⟩).1 =
      (engine.fetchWithin 0 0 ⟨.array [.node ⟨1⟩, .null], .query ⟨"li", true, none⟩⟩).1 := by
  intro engine
  have start : engine.Reachable := .start lookalikePage Predicate.matches .default
  let v : Json := .array [.object [("node", .ofNat 1)], .null]
  have called : (engine.fetchWithin 0 0 ⟨.components [⟨0⟩], .call ⟨"prop", [.string "items"]⟩⟩).1 =
      .ok (.value v) := rfl
  have handles : v.ReadsHandles := Json.ofJson?_eq_handles?_iff.mp rfl
  exact (fetchWithin_value_anchors start called (.query ⟨"li", true, none⟩)).2.1 handles

/-- A list of one truth value, a root marker and a fetcher denote no handles, and an operation behind the
calls that give them runs all the same. -/
theorem fetchWithin_lookalike_anchored :
    let engine := ofPage lookalikePage .default
    ∀ key ∈ ["flags", "place", "search"], ∃ v,
      (engine.fetchWithin 0 0 ⟨.components [⟨0⟩], .call ⟨"prop", [.string key]⟩⟩).1 = .ok (.value v) ∧
      engine.fetchAtHandles 0 0 v (.query ⟨"li", true, none⟩) = .error (.error (.notAContext v)) ∧
      ∃ o, (engine.fetchWithin 1 0 ⟨lookalikeCall key, .query ⟨"li", true, none⟩⟩).1 = .ok o := by
  intro engine key hk
  simp only [List.mem_cons, List.not_mem_nil, or_false] at hk
  rcases hk with rfl | rfl | rfl
  · exact ⟨_, rfl, rfl, exists_ok_of_toBool (by decide +kernel)⟩
  · exact ⟨_, rfl, rfl, exists_ok_of_toBool (by decide +kernel)⟩
  · exact ⟨_, rfl, rfl, exists_ok_of_toBool (by decide +kernel)⟩

end Engine

end PageQuery
