/-
# The gate on component results

An engine may keep the outermost query of a fetch from ending in a component segment. The configuration
says so, and nothing but that query and functions ever sees it; the functions at hand do not look. So
with the gate closed a fetch comes to what it comes to with the gate open, except that a query whose
selector ends in a component segment is refused. The leaves of any other query are nodes or null, from
wherever it starts, and so no component passes a closed gate. Inner queries are never refused.

A query at null is not even parsed, and gives null on both sides of the gate.

Key definitions: `Setting.allowing`, `Engine.allowing`, `ResultSet.HasComponents`,
`Functions.IgnoreGate`.
Key theorems: `Functions.builtin_ignoreGate`, `Engine.runQuery_no_components`,
`Engine.outcome_runParsed_closed`, `Engine.fetchWithin_gate`.
-/
import PageQuery.Proofs.Engine.Alike
import PageQuery.Proofs.Engine.FoundComponents

namespace PageQuery

open Run

/-- The setting with the gate open or closed. -/
def Setting.allowing (setting : Setting) (allowed : Bool) : Setting :=
  { setting with config := { setting.config with allowComponentResults := allowed } }

/-- The engine with the gate open or closed. -/
def Engine.allowing (engine : Engine) (allowed : Bool) : Engine :=
  { engine with config := { engine.config with allowComponentResults := allowed } }

/-- There are components at some depth. -/
def ResultSet.HasComponents (r : ResultSet) : Prop := ∃ is, .components is ∈ r.leaves

def ResultSet.isComponents : ResultSet → Bool
  | .components _ => true
  | _ => false

theorem ResultSet.hasComponents_iff {r : ResultSet} :
    r.HasComponents ↔ r.leaves.any ResultSet.isComponents = true := by
  rw [List.any_eq_true]
  constructor
  · rintro ⟨is, mem⟩
    exact ⟨_, mem, rfl⟩
  · rintro ⟨leaf, mem, kind⟩
    cases leaf with
    | components is => exact ⟨is, mem⟩
    | null => cases kind
    | nodes nodes => cases kind
    | array items => cases kind

instance (r : ResultSet) : Decidable r.HasComponents := decidable_of_iff' _ ResultSet.hasComponents_iff

theorem Setting.alike_allowing (setting : Setting) (allowed allowed' : Bool) :
    (setting.allowing allowed).Alike (setting.allowing allowed') := ⟨rfl, rfl⟩

theorem Setting.alike_allowed (setting : Setting) (allowed : Bool) :
    (setting.allowing allowed).Alike setting := ⟨rfl, rfl⟩

/-! ### Functions -/

/-- The function comes to the same whether the gate is open or closed. -/
def TerminalFunction.IgnoresGate (f : TerminalFunction) : Prop := ∀ (setting : Setting) allowed input args,
  outcome (f (setting.allowing allowed) input args) = outcome (f setting input args)

namespace Functions

variable {setting : Setting} {allowed : Bool}

theorem firstControl_allowing (component : InstanceId) : ∀ controls : List String,
    firstControl (setting.allowing allowed) component controls = firstControl setting component controls
  | [] => rfl
  | control :: rest => by
    unfold firstControl
    refine congrArg (_ >>= ·) (funext fun found => ?_)
    cases found with
    | nil => exact firstControl_allowing component rest
    | cons n more => rfl

@[simp] theorem interactionElement_allowing (input : ResultSet) (args : List Json) :
    interactionElement (setting.allowing allowed) input args = interactionElement setting input args := by
  have target (component : InstanceId) : interactionTarget (setting.allowing allowed) component =
      interactionTarget setting component := by
    unfold interactionTarget
    rw [firstControl_allowing]
    rfl
  unfold interactionElement
  simp only [target]

@[simp] theorem highlight_allowing (input : ResultSet) (args : List Json) :
    highlight (setting.allowing allowed) input args = highlight setting input args := by
  have timeout : timeoutOf (setting.allowing allowed).config args = timeoutOf setting.config args := by
    unfold timeoutOf
    rfl
  unfold highlight
  rw [timeout]
  rfl

/-- **The functions at hand do not look at the gate.** -/
theorem builtin_ignoresGate : ∀ entry ∈ builtin.entries, entry.2.IgnoresGate := by
  rintro ⟨name, f⟩ listed setting allowed input args
  simp only [builtin, List.mem_cons, Prod.mk.injEq, List.not_mem_nil, or_false] at listed
  rcases listed with ⟨-, rfl⟩ | ⟨-, rfl⟩ | ⟨-, rfl⟩ | ⟨-, rfl⟩ | ⟨-, rfl⟩ | ⟨-, rfl⟩
  · rfl
  · rfl
  · exact congrArg outcome (highlight_allowing input args)
  · exact congrArg outcome (interactionElement_allowing input args)
  · rfl
  · rfl

/-- Every function is one of those at hand or comes to the same whether the gate is open or closed. -/
def IgnoreGate (fs : Functions) : Prop := ∀ entry ∈ fs.entries, entry ∈ builtin.entries ∨ entry.2.IgnoresGate

theorem builtin_ignoreGate : builtin.IgnoreGate := fun _ listed => .inl listed

theorem IgnoreGate.alike {fs : Functions} (h : fs.IgnoreGate) (setting : Setting) (allowed allowed' : Bool) :
    fs.Alike (setting.allowing allowed) (setting.allowing allowed') := by
  intro entry listed input args
  have ignores : entry.2.IgnoresGate := (h entry listed).elim (builtin_ignoresGate entry) id
  rw [ignores, ignores]

end Functions

namespace Engine

variable {setting : Setting} {functions : Functions} {query : Query} {selector : Selector} {anchor : Anchor}
  {r : ResultSet}

/-! ### Queries at the gate -/

/-- **No component is among the leaves of a query that does not end in one.** -/
theorem runQuery_no_components (some : selector.segments ≠ []) (ends : selector.endsInComponent = false)
    (anchor : Anchor) : Yields (runQuery setting query selector anchor) fun r => ¬ r.HasComponents := by
  have last := List.getLast?_eq_some_getLast some
  generalize selector.segments.getLast some = segment at last
  unfold Selector.endsInComponent at ends
  rw [last] at ends
  cases segment with
  | component query => cases ends
  | structural text =>
    have leaves : Yields (runQuery setting query selector anchor) fun r =>
        ∀ leaf ∈ r.leaves, ∀ is, leaf ≠ .components is := by
      refine runQuery_leaves (fun _ => nofun) (fun start => ?_) anchor
      refine (runSegments_yields (runSegment_structural text) last start).mono ?_
      rintro _ ⟨ns, rfl⟩ leaf mem
      obtain ⟨n, -, rfl⟩ := List.mem_map.mp mem
      exact fun _ => nofun
    exact leaves.mono fun r none ⟨is, mem⟩ => none _ mem is rfl

/-- **A closed gate refuses what ends in a component and changes nothing else.** -/
theorem outcome_runParsed_closed : outcome (runParsed setting false query anchor selector) =
    if selector.endsInComponent then .error (.error (.componentResult query.selector))
    else outcome (runParsed setting true query anchor selector) := by
  unfold runParsed refusal?
  cases selector.endsInComponent <;> rfl

/-- What a query gives at a closed gate it gives at an open one, and there is no component in it. -/
theorem outcome_executeQuery_closed (h : outcome (executeQuery setting false query anchor) = .ok r) :
    outcome (executeQuery setting true query anchor) = .ok r ∧ ¬ r.HasComponents := by
  by_cases null : anchor = .null
  · subst null
    cases h
    exact ⟨rfl, fun ⟨is, mem⟩ => nomatch List.mem_singleton.mp mem⟩
  rw [outcome_executeQuery _ query null] at h ⊢
  obtain ⟨selector, parsed, ran⟩ := bind_ok_iff.mp h
  rw [outcome_runParsed_closed] at ran
  split at ran
  · cases ran
  next ends =>
  refine ⟨bind_ok_iff.mpr ⟨selector, parsed, ran⟩, ?_⟩
  unfold runParsed at ran
  split at ran
  · cases ran
  · exact runQuery_no_components (Selector.segments_ne_nil (mapError_ok_iff.mp parsed))
      (Bool.eq_false_iff.mpr ends) anchor fresh r ran

/-- A query that gives components at an open gate is refused at a closed one. -/
theorem outcome_executeQuery_refused (h : outcome (executeQuery setting true query anchor) = .ok r)
    (found : r.HasComponents) : outcome (executeQuery setting false query anchor) =
      .error (.error (.componentResult query.selector)) := by
  by_cases null : anchor = .null
  · subst null
    cases h
    obtain ⟨is, mem⟩ := found
    cases List.mem_singleton.mp mem
  cases closed : outcome (executeQuery setting false query anchor) with
  | ok r' =>
    obtain ⟨same, none⟩ := outcome_executeQuery_closed closed
    obtain rfl : r' = r := Except.ok.inj (same.symm.trans h)
    exact absurd found none
  | error x =>
    rw [outcome_executeQuery _ query null] at h closed
    obtain ⟨selector, parsed, ran⟩ := bind_ok_iff.mp h
    rw [parsed] at closed
    replace closed : outcome (runParsed setting false query anchor selector) = .error x := closed
    rw [outcome_runParsed_closed, ran] at closed
    split at closed
    · exact closed.symm
    · cases closed

/-! ### Fetches at the gate -/

theorem fetchWithin_allowing {engine : Engine} (reached : engine.Reachable) (allowed : Bool) (limit now : Nat)
    (fetcher : Fetcher) : ((engine.allowing allowed).fetchWithin limit now fetcher).1 =
      outcome (resolve ((engine.settingAt now).allowing allowed) engine.functions limit fetcher) :=
  (resolve_settles reached.sound.2 limit fetcher).apply reached.sound.1

/-- With the gate open or closed, a query is executed where its context is anchored. -/
theorem outcome_resolve_allowing (settled : functions.Settled) (blind : functions.IgnoreGate)
    (allowed : Bool) (limit : Nat) (context : Context) (query : Query) :
    outcome (resolve (setting.allowing allowed) functions limit ⟨context, .query query⟩) =
      (anchorWithin (setting.allowing true) functions limit context).bind fun anchor =>
        (outcome (executeQuery setting allowed query anchor)).map .results := by
  have anchored := anchorWithin_alike settled (setting.alike_allowing allowed true)
    (blind.alike setting allowed true) limit context
  rw [← anchored, outcome_resolve settled]
  refine congrArg _ (funext fun anchor => ?_)
  rw [outcome_perform_execute]
  exact congrArg (fun run => (outcome run).map _)
    (executeQuery_alike (setting.alike_allowed allowed) allowed anchor)

/-- **The gate keeps components from coming out and does nothing else.** With the gate closed, what a
fetch gives has no component at any depth and is what it gives with the gate open. Where the open gate
lets a component through, the closed one refuses the query. The context is anchored at the same places,
and a call comes to the same, on both sides. -/
theorem fetchWithin_gate {engine : Engine} (reached : engine.Reachable) (blind : engine.functions.IgnoreGate)
    (limit now : Nat) (context : Context) (query : Query) :
    let fetched := fun allowed operation =>
      ((engine.allowing allowed).fetchWithin limit now ⟨context, operation⟩).1
    let anchored := fun allowed =>
      anchorWithin ((engine.allowing allowed).settingAt now) engine.functions limit context
    (∀ o, fetched false (.query query) = .ok o → ∃ r, o = .results r ∧ ¬ r.HasComponents) ∧
    (∀ o, fetched false (.query query) = .ok o → fetched true (.query query) = .ok o) ∧
    (∀ r, fetched true (.query query) = .ok (.results r) → r.HasComponents →
      fetched false (.query query) = .error (.error (.componentResult query.selector))) ∧
    anchored false = anchored true ∧ ∀ call, fetched false (.call call) = fetched true (.call call) := by
  intro fetched anchored
  have settled := reached.sound.2
  have ran (allowed : Bool) : fetched allowed (.query query) =
      (anchored true).bind fun anchor =>
        (outcome (executeQuery (engine.settingAt now) allowed query anchor)).map .results :=
    (fetchWithin_allowing reached allowed limit now _).trans
      (outcome_resolve_allowing settled blind allowed limit context query)
  have alike := (engine.settingAt now).alike_allowing false true
  have same := blind.alike (engine.settingAt now) false true
  refine ⟨fun o given => ?_, fun o given => ?_, fun r given found => ?_, ?_, fun call => ?_⟩
  · rw [ran] at given
    obtain ⟨anchor, -, performed⟩ := bind_ok_iff.mp given
    obtain ⟨r, executed, same⟩ := map_ok_iff.mp performed
    exact ⟨r, same.symm, (outcome_executeQuery_closed executed).2⟩
  · rw [ran] at given ⊢
    obtain ⟨anchor, here, performed⟩ := bind_ok_iff.mp given
    obtain ⟨r, executed, same⟩ := map_ok_iff.mp performed
    exact bind_ok_iff.mpr ⟨anchor, here, map_ok_iff.mpr ⟨r, (outcome_executeQuery_closed executed).1, same⟩⟩
  · rw [ran] at given ⊢
    obtain ⟨anchor, here, performed⟩ := bind_ok_iff.mp given
    obtain ⟨r', executed, same⟩ := map_ok_iff.mp performed
    obtain rfl : r' = r := Outcome.results.inj same
    rw [here]
    show (outcome (executeQuery (engine.settingAt now) false query anchor)).map _ = _
    rw [outcome_executeQuery_refused executed found]
    rfl
  · exact anchorWithin_alike settled alike same limit context
  · have called (allowed : Bool) : fetched allowed (.call call) = (anchored allowed).bind fun anchor =>
        outcome (perform ((engine.settingAt now).allowing allowed) engine.functions allowed (.call call)
          anchor) :=
      (fetchWithin_allowing reached allowed limit now _).trans (outcome_resolve settled limit _)
    rw [called, called, show anchored false = anchored true from
      anchorWithin_alike settled alike same limit context]
    refine congrArg _ (funext fun anchor => ?_)
    exact outcome_perform_alike settled alike same _ (.call call) anchor

/-- The component that renders the list is refused at a closed gate, and its items come out at both. -/
theorem fetchWithin_gate_mirror :
    let engine : Engine := { ofPage mirrorPage .default with matcher := Predicate.matches }
    let fetched := fun allowed selector =>
      ((engine.allowing allowed).fetchWithin 1 0 ⟨.root true, .query (.all selector)⟩).1
    fetched false "@Menu" = .error (.error (.componentResult "@Menu")) ∧
      ∃ o, fetched false "@Menu li" = .ok o ∧ fetched true "@Menu li" = .ok o := by
  intro engine fetched
  have start : engine.Reachable := .start mirrorPage Predicate.matches .default
  obtain ⟨-, -, refused, -⟩ := fetchWithin_gate start Functions.builtin_ignoreGate 1 0 (.root true)
    (.all "@Menu")
  obtain ⟨-, opened, -⟩ := fetchWithin_gate start Functions.builtin_ignoreGate 1 0 (.root true)
    (.all "@Menu li")
  obtain ⟨o, e⟩ : ∃ o, fetched false "@Menu li" = .ok o := exists_ok_of_toBool (by decide +kernel)
  obtain ⟨found, given⟩ : ∃ o, fetched true "@Menu" = .ok o := exists_ok_of_toBool (by decide +kernel)
  have component : (fetched true "@Menu").toOption.map
      (fun o => o.casesOn (fun r => decide r.HasComponents) fun _ => false) = some true := by decide +kernel
  rw [given] at component
  cases found with
  | value value => cases component
  | results r => exact ⟨refused r given (of_decide_eq_true (Option.some.inj component)), o, e, opened o e⟩

end Engine

end PageQuery
