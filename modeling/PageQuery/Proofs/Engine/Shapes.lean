/-
# All, the first and the one at an index

A query can ask for all that a selector finds, for the first of it or for the one at an index that
counts from either end. The three run alike: they fail together, and where the first puts a list, at
each place of the context, the others put an item of that list or null.

The runs are compared step by step from the same progress (`Run.Paired`), since they look for the same
and differ only in what they make of it. So nothing is asked of the functions that the context calls.

Key definitions: `Run.Paired`, `Engine.Picks`, `IsFirst`, `IsAt`.
Key theorems: `Engine.runQuery_paired`, `Engine.fetchWithin_shapes`.
-/
import PageQuery.Proofs.Engine.Chaining

namespace PageQuery

/-! ### Runs side by side -/

namespace Run

variable {α β γ δ : Type} {R : α → β → Prop} {S : γ → δ → Prop}

/-- Both fail for the same reason, or both give something and it is related. -/
inductive EndsAlike (R : α → β → Prop) : Except Halt α → Except Halt β → Prop
  | ok {a : α} {b : β} : R a b → EndsAlike R (.ok a) (.ok b)
  | error (h : Halt) : EndsAlike R (.error h) (.error h)

theorem EndsAlike.of_error {h : Halt} {r : Except Halt β} (ends : EndsAlike R (.error h) r) : r = .error h := by
  cases ends
  rfl

theorem EndsAlike.of_ok {a : α} {r : Except Halt β} (ends : EndsAlike R (.ok a) r) :
    ∃ b, r = .ok b ∧ R a b := by
  cases ends with
  | ok related => exact ⟨_, rfl, related⟩

/-- From the same progress, both runs come to the same progress and end alike. -/
def Paired (R : α → β → Prop) (m : Run α) (n : Run β) : Prop :=
  ∀ p, (m p).2 = (n p).2 ∧ EndsAlike R (m p).1 (n p).1

theorem Paired.pure {a : α} {b : β} (h : R a b) : Paired R (pure a : Run α) (Pure.pure b : Run β) :=
  fun _ => ⟨rfl, .ok h⟩

theorem Paired.fail (e : QueryError) : Paired R (fail e : Run α) (fail e : Run β) :=
  fun _ => ⟨rfl, .error _⟩

theorem Paired.same (m : Run α) : Paired Eq m m := by
  refine fun p => ⟨rfl, ?_⟩
  cases (m p).1 with
  | ok a => exact .ok rfl
  | error h => exact .error h

theorem Paired.bind {m : Run α} {n : Run β} {f : α → Run γ} {g : β → Run δ} (hm : Paired R m n)
    (hf : ∀ a b, R a b → Paired S (f a) (g b)) : Paired S (m >>= f) (n >>= g) := by
  intro p
  obtain ⟨same, ends⟩ := hm p
  rw [bind_apply, bind_apply]
  generalize m p = left at *
  generalize n p = right at *
  obtain ⟨r, q⟩ := left
  obtain ⟨s, q'⟩ := right
  obtain rfl : q = q' := same
  cases ends with
  | ok related => exact hf _ _ related q
  | error h => exact ⟨rfl, .error h⟩

/-- What both do first does not matter. -/
theorem Paired.behind (m : Run α) {f : α → Run γ} {g : α → Run δ} (hf : ∀ a, Paired S (f a) (g a)) :
    Paired S (m >>= f) (m >>= g) :=
  (Paired.same m).bind fun a _ e => e ▸ hf a

end Run

/-! ### Items of a list -/

/-- The first item, or null if there is none. -/
def IsFirst (items : List ResultSet) (r : ResultSet) : Prop := r = items.head?.getD .null

/-- The item at an index, which counts from the end if it is negative, or null beyond both ends. -/
structure IsAt (k : Int) (items : List ResultSet) (r : ResultSet) : Prop where
  inside : ∀ (place : Nat) (h : place < items.length),
    k = place ∨ k = place - (items.length : Int) → r = items[place]
  outside : k < -(items.length : Int) ∨ (items.length : Int) ≤ k → r = .null

open Run

namespace Engine

theorem isAt_itemAt (k : Int) (items : List ResultSet) : IsAt k items (itemAt items k) where
  inside place h counted := by
    have placed : (if k < 0 then items.length + k else k) = (place : Int) := by
      split <;> omega
    unfold itemAt
    rw [placed, if_neg (by omega), Int.toNat_natCast, List.getElem?_eq_getElem h, Option.getD_some]
  outside beyond := by
    unfold itemAt
    dsimp only
    rcases beyond with below | above
    · have placed : (if k < 0 then items.length + k else k) < 0 := by
        split <;> omega
      rw [if_pos placed]
    · have placed : (if k < 0 then items.length + k else k) = k := if_neg (by omega)
      rw [placed, if_neg (by omega), List.getElem?_eq_none (by omega), Option.getD_none]

theorem isFirst_shape (text : String) (items : List ResultSet) :
    IsFirst items (shape ⟨text, false, none⟩ items) := rfl

theorem isAt_shape (text : String) (k : Int) (items : List ResultSet) :
    IsAt k items (shape ⟨text, true, some k⟩ items) := isAt_itemAt k items

/-! ### Shapes along an anchor -/

mutual

/-- Along the anchor, the first result has a list at each place where the second has what is picked from
it; at null both are null. -/
inductive Picks (pick : List ResultSet → ResultSet → Prop) : Anchor → ResultSet → ResultSet → Prop
  | null : Picks pick .null .null .null
  | place (start : Reached) {items : List ResultSet} {r : ResultSet} :
    pick items r → Picks pick (anchorAt start) (.array items) r
  | array {anchors : List Anchor} {alls picked : List ResultSet} :
    PicksEach pick anchors alls picked → Picks pick (.array anchors) (.array alls) (.array picked)

inductive PicksEach (pick : List ResultSet → ResultSet → Prop) :
    List Anchor → List ResultSet → List ResultSet → Prop
  | nil : PicksEach pick [] [] []
  | cons {anchor : Anchor} {all picked : ResultSet} {anchors : List Anchor}
    {alls rest : List ResultSet} : Picks pick anchor all picked → PicksEach pick anchors alls rest →
      PicksEach pick (anchor :: anchors) (all :: alls) (picked :: rest)

end

section alike

variable {setting : Setting} {query : Query} {selector : Selector}
  {pick : List ResultSet → ResultSet → Prop}

theorem runFrom_paired (text : String) (picks : ∀ items, pick items (shape query items))
    (start : Reached) : Paired (Picks pick (anchorAt start))
      (runFrom setting (.all text) selector start) (runFrom setting query selector start) :=
  .behind (runSegments setting selector.segments start) fun reached =>
    .pure (.place start (picks (itemsOf setting.page.root reached)))

mutual

/-- A query that picks from lists runs like the one for all of them. -/
theorem runQuery_paired (text : String) (picks : ∀ items, pick items (shape query items)) :
    ∀ anchor : Anchor, Paired (Picks pick anchor) (runQuery setting (.all text) selector anchor)
      (runQuery setting query selector anchor)
  | .null => .pure .null
  | .root => runFrom_paired text picks .root
  | .nodes nodes => runFrom_paired text picks (.nodes nodes)
  | .components components => runFrom_paired text picks (.components components)
  | .array anchors => (runQueryEach_paired text picks anchors).bind fun _ _ each => .pure (.array each)

theorem runQueryEach_paired (text : String) (picks : ∀ items, pick items (shape query items)) :
    ∀ anchors : List Anchor, Paired (PicksEach pick anchors)
      (runQueryEach setting (.all text) selector anchors) (runQueryEach setting query selector anchors)
  | [] => .pure .nil
  | anchor :: anchors => (runQuery_paired text picks anchor).bind fun _ _ one =>
    (runQueryEach_paired text picks anchors).bind fun _ _ rest => .pure (.cons one rest)

end

/-- As long as it is not refused on its own account, it is executed like the one for all of them. -/
theorem executeQuery_paired (setting : Setting) (allow : Bool) (query : Query)
    (alike : ∀ s, refusal? allow query s = refusal? allow (.all query.selector) s)
    (picks : ∀ items, pick items (shape query items)) (anchor : Anchor) :
    Paired (Picks pick anchor) (executeQuery setting allow (.all query.selector) anchor)
      (executeQuery setting allow query anchor) := by
  by_cases null : anchor = .null
  · subst null
    exact .pure .null
  · rw [executeQuery_of_ne_null allow _ null, executeQuery_of_ne_null allow _ null]
    refine .behind (Run.parse query.selector) fun s => ?_
    unfold runParsed
    rw [alike]
    cases refusal? allow (.all query.selector) s with
    | some e => exact .fail e
    | none => exact runQuery_paired query.selector picks anchor

end alike

/-! ### Fetches -/

/-- What a context comes to at the beginning of a fetch, and the progress then. -/
def anchored (engine : Engine) (limit now : Nat) (context : Context) : Except Halt Anchor × Progress :=
  let setting := engine.settingAt now
  normalizeBy setting engine.functions (reread setting engine.functions limit) context (engine.start now)

/-- A fetch of a query executes it at what its context comes to. -/
theorem fetchWithin_query (engine : Engine) (limit now : Nat) (context : Context) (query : Query) :
    (engine.fetchWithin limit now ⟨context, .query query⟩).1 =
      match engine.anchored limit now context with
      | (.error h, _) => .error h
      | (.ok anchor, p) =>
        (executeQuery (engine.settingAt now) engine.config.allowComponentResults query anchor p).1.map
          .results := by
  unfold fetchWithin resolve anchored
  dsimp only
  rw [bind_apply]
  generalize normalizeBy (engine.settingAt now) engine.functions _ context _ = normalized
  match normalized with
  | (.error h, _) => rfl
  | (.ok anchor, p) => exact map_apply _ Outcome.results p

/-- **The first and the one at an index are items of all.** For one context and selector, the query for
all, the one for the first and the one for the item at an index fail together and for one reason, or all
of them succeed; and then, along what the context comes to, the second has the first item or null
where the first has a list, and the third the item of that list at the index, counted from the end if it
is negative, or null beyond both ends. Where the context is null all three are null. -/
theorem fetchWithin_shapes (engine : Engine) (limit now : Nat) (context : Context) (text : String)
    (k : Int) :
    let fetched := fun (multi : Bool) (at? : Option Int) =>
      (engine.fetchWithin limit now ⟨context, .query ⟨text, multi, at?⟩⟩).1
    (∃ h, fetched true none = .error h ∧ fetched false none = .error h ∧
        fetched true (some k) = .error h) ∨
      ∃ anchor all first indexed, (engine.anchored limit now context).1 = .ok anchor ∧
        fetched true none = .ok (.results all) ∧ fetched false none = .ok (.results first) ∧
        fetched true (some k) = .ok (.results indexed) ∧
        Picks IsFirst anchor all first ∧ Picks (IsAt k) anchor all indexed := by
  intro fetched
  have run : ∀ multi at?, fetched multi at? = _ := fun multi at? =>
    engine.fetchWithin_query limit now context ⟨text, multi, at?⟩
  simp only [run]
  match engine.anchored limit now context with
  | (.error h, _) => exact .inl ⟨h, rfl, rfl, rfl⟩
  | (.ok anchor, p) =>
    let setting := engine.settingAt now
    let allow := engine.config.allowComponentResults
    have ofFirst : EndsAlike (Picks IsFirst anchor) (executeQuery setting allow (.all text) anchor p).1 _ :=
      (executeQuery_paired setting allow ⟨text, false, none⟩ (fun _ => rfl) (isFirst_shape text) anchor p).2
    have ofIndexed : EndsAlike (Picks (IsAt k) anchor) (executeQuery setting allow (.all text) anchor p).1 _ :=
      (executeQuery_paired setting allow ⟨text, true, some k⟩ (fun _ => rfl) (isAt_shape text k) anchor p).2
    cases all : (executeQuery setting allow (.all text) anchor p).1 with
    | error h =>
      rw [all] at ofFirst ofIndexed
      refine .inl ⟨h, ?_, ?_, ?_⟩
      · exact congrArg (Except.map Outcome.results) all
      · exact congrArg (Except.map Outcome.results) ofFirst.of_error
      · exact congrArg (Except.map Outcome.results) ofIndexed.of_error
    | ok results =>
      rw [all] at ofFirst ofIndexed
      obtain ⟨first, one, firsts⟩ := ofFirst.of_ok
      obtain ⟨indexed, other, places⟩ := ofIndexed.of_ok
      refine .inr ⟨anchor, results, first, indexed, rfl, ?_, ?_, ?_, firsts, places⟩
      · exact congrArg (Except.map Outcome.results) all
      · exact congrArg (Except.map Outcome.results) one
      · exact congrArg (Except.map Outcome.results) other

end Engine

end PageQuery
