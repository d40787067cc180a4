/-
# Only values of props lead on

Of the functions at hand only `prop` has values that can hold a fetcher: what the others give reads as
handles or nothing, if it reads as a context at all. So whether a fetch returns is up to the props of
the page. A page whose props hold no fetchers is safe; a prop that holds the call which gives it is
not, as that call is then made without end.

Key definitions: `Context.IsPlain`, `Json.ReadsPlain`, `Engine.PropCall`.
Key theorems: `Functions.readsPlain_of_ne_prop`, `Engine.exists_ends_iff_acc_prop`,
`Engine.acc_of_plain_props`, `Engine.fetchWithin_returns_iff`.
-/
import PageQuery.Proofs.Engine.FunctionValues
import PageQuery.Proofs.Engine.Nesting

namespace PageQuery

/-! ### Contexts without fetchers -/

namespace Context

mutual

/-- No fetcher stands anywhere in the context. -/
def IsPlain : Context → Prop
  | .fetcher _ _ => False
  | .array items => AllPlain items
  | _ => True

def AllPlain : List Context → Prop
  | [] => True
  | c :: rest => IsPlain c ∧ AllPlain rest

end

theorem isPlain_of_rootOf? {v : Json} {c : Context} (h : rootOf? v = some c) : c.IsPlain := by
  unfold rootOf? at h
  obtain ⟨parts, -, h⟩ := Option.bind_eq_some_iff.mp h
  split at h
  · obtain ⟨isRoot, -, rfl⟩ := Option.map_eq_some_iff.mp h
    trivial
  · cases h

mutual

/-- Handles are no fetchers. -/
theorem IsHandles.isPlain : ∀ {c : Context}, c.IsHandles → c.IsPlain
  | .node _, _ | .nodes _, _ | .components _, _ | .null, _ => trivial
  | .array _, h => AllHandles.allPlain h

theorem AllHandles.allPlain : ∀ {cs : List Context}, AllHandles cs → AllPlain cs
  | [], _ => trivial
  | _ :: _, ⟨h, more⟩ => ⟨h.isPlain, more.allPlain⟩

end

end Context

namespace Json

/-- If the value reads as a context, then as one without fetchers. -/
def ReadsPlain (v : Json) : Prop := ∀ c, Context.ofJson? v = some c → c.IsPlain

theorem readsPlain_null : ReadsPlain .null := by
  rintro _ ⟨⟩
  trivial

theorem ReadsHandles.readsPlain {v : Json} (h : v.ReadsHandles) : v.ReadsPlain := fun c e => (h c e).isPlain

theorem allPlain_of_items : ∀ {items : List Json} {cs : List Context},
    (∀ v ∈ items, v.ReadsPlain) → Context.ofItems? items = some cs → Context.AllPlain cs
  | [], _, _, e => by cases e; trivial
  | v :: rest, cs, h, e => by
    unfold Context.ofItems? at e
    split at e
    · next c more first others =>
      cases e
      exact ⟨h v List.mem_cons_self c first,
        allPlain_of_items (fun w hw => h w (List.mem_cons_of_mem v hw)) others⟩
    · cases e

theorem readsPlain_array {items : List Json} (h : ∀ v ∈ items, v.ReadsPlain) :
    ReadsPlain (.array items) := by
  intro c e
  unfold Context.ofJson? at e
  rcases Option.or_eq_some_iff.mp e with e | ⟨-, e⟩
  · exact Context.isPlain_of_rootOf? e
  · obtain ⟨cs, all, rfl⟩ := Option.map_eq_some_iff.mp e
    exact allPlain_of_items h all

end Json

open Run

/-! ### Values of functions -/

/-- Whatever the function is given, its value reads as a context without fetchers, if as one at all. -/
def TerminalFunction.ReadsPlain (f : TerminalFunction) (setting : Setting) : Prop :=
  ∀ input args, Yields (f setting input args) Json.ReadsPlain

namespace Functions

variable {setting : Setting}

/-- The value of a prop reads so if the props of the page do. -/
theorem prop_readsPlain (h : ∀ i key v, (setting.page.props i).field? key = some v → v.ReadsPlain) :
    prop.ReadsPlain setting := prop_yields Json.readsPlain_null h fun _ => Json.readsPlain_array

/-- **Of the functions at hand only `prop` has values that may hold fetchers.** -/
theorem readsPlain_of_ne_prop {name : String} {f : TerminalFunction} (h : builtin.find? name = some f)
    (other : name ≠ "prop") : f.ReadsPlain setting := fun input args =>
  (readsHandles_of_ne_prop h other input args).mono fun _ reads => reads.readsPlain

end Functions

namespace Engine

variable {setting : Setting} {functions : Functions} {calls : FunctionCall → Prop}

/-! ### Where a resolution leads on -/

/-- A call for a prop. -/
def PropCall (call : FunctionCall) : Prop := call.name = "prop"

mutual

/-- A context without fetchers asks for nothing. -/
theorem not_asks_of_isPlain : ∀ {context : Context}, context.IsPlain → ∀ {value : Json},
    ¬Asks setting functions calls context value
  | .array items, plain, value, asks => by
    cases asks with
    | @item before context after _ _ asks =>
      exact not_asks_of_allPlain plain context (by simp) asks
  | .fetcher _ _, plain, _, _ => plain

theorem not_asks_of_allPlain : ∀ {items : List Context}, Context.AllPlain items → ∀ c ∈ items,
    ∀ {value : Json}, ¬Asks setting functions calls c value
  | item :: rest, plain, c, hc, value, asks => by
    rcases List.mem_cons.mp hc with same | hc
    · rw [same] at asks
      exact not_asks_of_isPlain plain.1 asks
    · exact not_asks_of_allPlain plain.2 c hc asks

end

theorem acc_of_isPlain {context : Context} (plain : context.IsPlain) :
    Acc (fun next c => LeadsTo setting functions calls c next) context :=
  ⟨_, fun _ ⟨_, asks, _⟩ => absurd asks (not_asks_of_isPlain plain)⟩

theorem Asks.mono {more : FunctionCall → Prop} (h : ∀ call, calls call → more call) {context : Context}
    {value : Json} (asks : Asks setting functions calls context value) :
    Asks setting functions more context value := by
  induction asks with
  | value fits resolves called => exact .value (h _ fits) resolves called
  | within _ ih => exact ih.within
  | item resolve _ ih => exact .item resolve ih

theorem readsPlain_of_called {call : FunctionCall} (other : ¬PropCall call) {anchor : Anchor} {value : Json}
    (called : outcome (callFunction setting .builtin call anchor) = .ok value) : value.ReadsPlain := by
  unfold callFunction at called
  cases e : Functions.builtin.find? call.name with
  | none => rw [e] at called; cases called
  | some f =>
    rw [e] at called
    exact Functions.readsPlain_of_ne_prop e other _ _ fresh value called

/-- What is asked for is the value of a prop, or it holds no fetcher. -/
theorem asks_prop_or_readsPlain {context : Context} {value : Json}
    (asks : Asks setting .builtin AnyCall context value) :
    Asks setting .builtin PropCall context value ∨ value.ReadsPlain := by
  induction asks with
  | @value _ call _ _ _ resolves called =>
    by_cases fits : PropCall call
    · exact Or.inl (.value fits resolves called)
    · exact Or.inr (readsPlain_of_called fits called)
  | within _ ih => exact ih.imp_left .within
  | item resolve _ ih => exact ih.imp_left (.item resolve)

/-- **With the functions at hand a resolution ends exactly when no endless way leads on from its context
through the values of props.** -/
theorem exists_ends_iff_acc_prop (context : Context) :
    (∃ limit, Ends (anchorWithin setting .builtin limit context)) ↔
      Acc (fun next c => LeadsTo setting .builtin PropCall c next) context := by
  rw [exists_ends_iff_acc Functions.builtin_settled]
  constructor
  · intro acc
    induction acc with
    | intro context _ ih =>
      exact ⟨_, fun next ⟨value, asks, read⟩ => ih next ⟨value, asks.mono fun _ _ => trivial, read⟩⟩
  · intro acc
    induction acc with
    | intro context _ ih =>
      refine ⟨_, fun next ⟨value, asks, read⟩ => ?_⟩
      rcases asks_prop_or_readsPlain asks with asks | plain
      · exact ih next ⟨value, asks, read⟩
      · exact acc_of_isPlain (plain next read)

theorem readsPlain_of_asks (h : ∀ call anchor value, calls call →
      outcome (callFunction setting functions call anchor) = .ok value → value.ReadsPlain)
    {context : Context} {value : Json} (asks : Asks setting functions calls context value) :
    value.ReadsPlain := by
  induction asks with
  | value fits _ called => exact h _ _ _ fits called
  | within _ ih => exact ih
  | item _ _ ih => exact ih

/-- Where props hold no fetchers, every way ends at their values. -/
theorem acc_of_plain_props (plain : ∀ i key v, (setting.page.props i).field? key = some v → v.ReadsPlain)
    (context : Context) : Acc (fun next c => LeadsTo setting .builtin PropCall c next) context := by
  have values : ∀ call anchor value, PropCall call →
      outcome (callFunction setting .builtin call anchor) = .ok value → value.ReadsPlain := by
    intro call anchor value fits called
    have name : call.name = "prop" := fits
    unfold callFunction at called
    rw [name] at called
    exact Functions.prop_readsPlain plain _ _ fresh value called
  refine ⟨_, fun next leads => ?_⟩
  obtain ⟨value, asks, read⟩ := leads
  exact acc_of_isPlain (readsPlain_of_asks values asks next read)

/-! ### When a fetch returns -/

theorem ends_resolve_iff (settled : functions.Settled) (limit : Nat) (fetcher : Fetcher) :
    Ends (outcome (resolve setting functions limit fetcher)) ↔
      Ends (anchorWithin setting functions limit fetcher.context) := by
  rw [outcome_resolve settled]
  refine ⟨Ends.of_bind, fun e => ?_⟩
  cases r : anchorWithin setting functions limit fetcher.context with
  | error x => rw [show outcome _ = _ from r]; exact (r ▸ e).error
  | ok anchor =>
    rw [show outcome _ = _ from r]
    exact (perform_settles settled _ fetcher.operation anchor).ends

theorem outcome_resolve_le (settled : functions.Settled) {limit more : Nat} (h : limit ≤ more)
    {fetcher : Fetcher} (e : Ends (outcome (resolve setting functions limit fetcher))) :
    outcome (resolve setting functions more fetcher) = outcome (resolve setting functions limit fetcher) := by
  have same := anchorWithin_le settled h ((ends_resolve_iff settled limit fetcher).mp e)
  rw [outcome_resolve settled, outcome_resolve settled]
  exact congrArg (Except.bind · _) same

/-- **A fetch returns exactly when no endless way leads on from its context through the values of
props**, so always on a page whose props hold no fetchers. What it then comes to does not change with
larger limits. -/
theorem fetchWithin_returns_iff {engine : Engine} (reached : engine.Reachable)
    (builtin : engine.functions = .builtin) (now : Nat) (fetcher : Fetcher) :
    ((∃ limit, (engine.fetchWithin limit now fetcher).1 ≠ .error .exhausted) ↔
      Acc (fun next c => LeadsTo (engine.settingAt now) .builtin PropCall c next) fetcher.context) ∧
    ((∀ i key v, (engine.page.props i).field? key = some v → v.ReadsPlain) →
      ∃ limit, (engine.fetchWithin limit now fetcher).1 ≠ .error .exhausted) ∧
    ∀ limit more, limit ≤ more → (engine.fetchWithin limit now fetcher).1 ≠ .error .exhausted →
      (engine.fetchWithin more now fetcher).1 = (engine.fetchWithin limit now fetcher).1 := by
  have settled := reached.sound.2
  simp only [fetchWithin_fst reached]
  have returns : (∃ limit, outcome (resolve (engine.settingAt now) engine.functions limit fetcher) ≠
      .error .exhausted) ↔
        Acc (fun next c => LeadsTo (engine.settingAt now) .builtin PropCall c next) fetcher.context := by
    rw [builtin, ← exists_ends_iff_acc_prop]
    exact exists_congr fun limit => ends_resolve_iff Functions.builtin_settled limit fetcher
  refine ⟨returns, fun plain => ?_, fun limit more h e => outcome_resolve_le settled h e⟩
  have acc : Acc (fun next c => LeadsTo (engine.settingAt now) .builtin PropCall c next) fetcher.context :=
    acc_of_plain_props plain fetcher.context
  exact returns.mpr acc

/-- The element to interact with of the list is read as a context, and nothing after it. -/
theorem fetchWithin_returns_mirror :
    let engine : Engine := { ofPage mirrorPage .default with matcher := Predicate.matches }
    ∃ limit, (engine.fetchWithin limit 0 ⟨.fetcher (.nodes [⟨1⟩]) (.call ⟨"interactionElement", []⟩),
      .query ⟨"li", false, none⟩⟩).1 ≠ .error .exhausted := by
  intro engine
  have returns := (fetchWithin_returns_iff (.start mirrorPage Predicate.matches .default) rfl 0
    ⟨.fetcher (.nodes [⟨1⟩]) (.call ⟨"interactionElement", []⟩), .query ⟨"li", false, none⟩⟩).1
  refine returns.mpr ⟨_, fun next ⟨value, asks, _⟩ => ?_⟩
  cases asks with
  | value fits =>
    have other : "interactionElement" ≠ "prop" := by decide
    exact absurd fits other
  | within asks => cases asks

/-- The call whose value is read as the same call. -/
def mirrorCall : Context := .fetcher (.components [⟨0⟩]) (.call ⟨"prop", [.string "self"]⟩)

theorem outcome_callFunction_self (mirror : setting.page = mirrorPage) :
    outcome (callFunction setting .builtin ⟨"prop", [.string "self"]⟩ (.components [⟨0⟩])) =
      .ok mirrorValue := by
  have given : (mirrorPage.props ⟨0⟩).field? "self" = some mirrorValue := by decide +kernel
  show Except.ok (((setting.page.props ⟨0⟩).field? "self").getD .null) = _
  rw [mirror, given]
  rfl

/-- Where a prop is the call that gives it, no limit is enough to read it. -/
theorem anchorWithin_mirrorCall (mirror : setting.page = mirrorPage) : ∀ limit : Nat,
    anchorWithin setting .builtin limit mirrorCall = .error .exhausted := by
  -- The call comes to its own value, read as a context with one less in hand.
  have around : ∀ limit, anchorWithin setting .builtin limit mirrorCall =
      outcome (reread setting .builtin limit mirrorValue) := by
    intro limit
    have place : anchorWithin setting .builtin limit (.components [⟨0⟩]) = .ok (.components [⟨0⟩]) := rfl
    unfold mirrorCall
    rw [anchorWithin_fetcher Functions.builtin_settled, place, ok_bind,
      outcome_perform_call Functions.builtin_settled, outcome_callFunction_self mirror]
    rfl
  have read : Context.ofJson? mirrorValue = some mirrorCall := rfl
  intro limit
  induction limit with
  | zero => exact around 0
  | succ limit ih =>
    rw [around, outcome_reread_succ, read]
    exact ih

/-- A fetch whose context is the call that is read as itself returns at no limit. -/
theorem fetchWithin_mirror_exhausted :
    ¬∃ limit, ((ofPage mirrorPage .default).fetchWithin limit 0
      ⟨mirrorCall, .call ⟨"exists", []⟩⟩).1 ≠ .error .exhausted := by
  rintro ⟨limit, returns⟩
  have start : (ofPage mirrorPage .default).Reachable := .start mirrorPage Predicate.matches .default
  rw [fetchWithin_fst start] at returns
  have ends := (ends_resolve_iff Functions.builtin_settled limit _).mp returns
  exact ends (anchorWithin_mirrorCall rfl limit)

end Engine

end PageQuery
