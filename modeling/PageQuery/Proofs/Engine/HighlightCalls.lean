/-
# Calls of highlight

A fetch evaluates its context before its operation, fetchers inside first, and values of functions are
read again as contexts. On the way calls run, each on the overlay that those before it left. Among them
only the calls of `highlight` touch the overlay: one that has its time takes a name and adds its markers,
any other changes nothing. Nothing takes a name back, whether the fetch fails or not. So the names that
highlights of an engine took are among the first of the counter, and the next one is new.

A function that is registered could reach for the overlay as well. Here it must not, and `highlight` stays
under its name.

Key definitions: `Engine.RunsBy`, `Engine.Runs`, `Engine.ReachedWith`, `Calling.uid?`.
Key theorems: `Engine.normalizeBy_untouched`, `Engine.normalizeBy_accounted`, `Engine.ReachedWith.accounts`,
`Engine.fetchWithin_marks`.
-/
import PageQuery.Proofs.Engine.Highlights
import PageQuery.Proofs.Engine.OverlayRuns
import PageQuery.Proofs.Engine.Shapes

namespace PageQuery

/-! ### Names handed out -/

namespace Overlay

/-- The name is among those that the overlay handed out. -/
def HandedOut (o : Overlay) (uid : String) : Prop := ∃ k < o.named, uid = uidOf k

variable {o p : Overlay} {uid : String}

theorem HandedOut.mono (h : o.HandedOut uid) (le : o.named ≤ p.named) : p.HandedOut uid := by
  obtain ⟨k, lt, rfl⟩ := h
  exact ⟨k, Nat.lt_of_lt_of_le lt le, rfl⟩

/-- The next name is new. -/
theorem not_handedOut_nextUid (o : Overlay) : ¬ o.HandedOut o.nextUid.1 := by
  rintro ⟨k, lt, same⟩
  exact Nat.ne_of_gt lt (uidOf_injective same)

end Overlay

namespace Run

variable {α β : Type}

/-- The run takes no name back, whatever it comes to. -/
def NamesOn (m : Run α) : Prop := ∀ p, p.overlay.named ≤ (m p).2.overlay.named

theorem SparesOverlay.namesOn {m : Run α} (h : SparesOverlay m) : NamesOn m := fun p =>
  Nat.le_of_eq (congrArg Overlay.named (h p)).symm

/-- What follows a run takes no name back. -/
theorem NamesOn.behind {f : α → Run β} (hf : ∀ a, NamesOn (f a)) (m : Run α) (p : Progress) :
    (m p).2.overlay.named ≤ ((m >>= f) p).2.overlay.named := by
  rw [bind_apply]
  match m p with
  | (.ok a, q) => exact hf a q
  | (.error _, _) => exact Nat.le_refl _

theorem NamesOn.bind {m : Run α} {f : α → Run β} (hm : NamesOn m) (hf : ∀ a, NamesOn (f a)) :
    NamesOn (m >>= f) := fun p => Nat.le_trans (hm p) (NamesOn.behind hf m p)

/-- The overlay stays as it is if neither the run nor what follows on what it gives touches it. -/
theorem bind_untouched {m : Run α} {f : α → Run β} {p : Progress} (first : (m p).2.overlay = p.overlay)
    (rest : ∀ a q, m p = (.ok a, q) → (f a q).2.overlay = q.overlay) :
    ((m >>= f) p).2.overlay = p.overlay := by
  rw [bind_apply]
  match run : m p with
  | (.ok a, q) => exact (rest a q run).trans (by rw [run] at first; exact first)
  | (.error _, _) => rw [run] at first; exact first

end Run

open Run

/-! ### Functions -/

namespace Functions

/-- The function `highlight` stands under its name, and no other reaches for the overlay. -/
structure OnlyHighlight (fs : Functions) : Prop where
  highlight : fs.find? "highlight" = some Functions.highlight
  others : ∀ {name f}, fs.find? name = some f → name ≠ "highlight" → f.SparesOverlay

theorem onlyHighlight_builtin : builtin.OnlyHighlight where
  highlight := rfl
  others found other := (highlight_or_spares_of_builtin found).resolve_left fun h => other h.1

theorem OnlyHighlight.register {fs : Functions} (h : fs.OnlyHighlight) {name : String}
    {f : TerminalFunction} (other : name ≠ "highlight") (spares : f.SparesOverlay) :
    (fs.register name f).OnlyHighlight where
  highlight := by
    rw [find?, Functions.register, Fields.find?_put, if_neg other]
    exact h.highlight
  others {key g} found differs := by
    rw [find?, Functions.register, Fields.find?_put] at found
    split at found
    · exact Option.some.inj found ▸ spares
    · exact h.others found differs

variable {setting : Setting}

theorem highlight_untimed {args : List Json} {e : QueryError} (untimed : timeoutOf setting.config args = .error e)
    (input : ResultSet) : highlight setting input args = Run.fail e := by
  unfold highlight
  rw [untimed]

theorem highlight_namesOn (input : ResultSet) (args : List Json) : NamesOn (highlight setting input args) := by
  intro p
  cases timed : timeoutOf setting.config args with
  | error e =>
    rw [highlight_untimed timed]
    exact Nat.le_refl _
  | ok timeout? =>
    obtain ⟨q, run, added⟩ := highlight_apply timed input p
    rw [run, added]
    exact Nat.le_succ _

end Functions

/-! ### Calls that run -/

/-- A call that runs, with the overlay that it finds. -/
structure Calling where
  call : FunctionCall
  overlay : Overlay

namespace Calling

/-- The name that a call takes: a highlight takes one if it has a time. -/
def uid? (config : EngineConfig) (c : Calling) : Option String :=
  if c.call.name = "highlight" then
    (Functions.timeoutOf config c.call.args).toOption.map fun _ => c.overlay.nextUid.1
  else none

/-- If the call takes a name, the overlay has handed it out. -/
def AccountedIn (config : EngineConfig) (c : Calling) (o : Overlay) : Prop :=
  ∀ uid ∈ c.uid? config, o.HandedOut uid

variable {config : EngineConfig} {c : Calling} {o p : Overlay}

theorem AccountedIn.mono (h : c.AccountedIn config o) (le : o.named ≤ p.named) : c.AccountedIn config p :=
  fun uid taken => (h uid taken).mono le

end Calling

namespace Engine

mutual

/-- The call runs while the context is evaluated. Values of functions are read again by `reread`, during
which the calls of `runsAgain` run. -/
inductive RunsBy (setting : Setting) (functions : Functions) (reread : Json → Run Anchor)
    (runsAgain : Json → Progress → Calling → Prop) : Context → Progress → Calling → Prop
  | within {context : Context} {operation : Operation} {p : Progress} {c : Calling} :
    RunsBy setting functions reread runsAgain context p c →
      RunsBy setting functions reread runsAgain (.fetcher context operation) p c
  | call {context : Context} {call : FunctionCall} {p q : Progress} {anchor : Anchor} :
    normalizeBy setting functions reread context p = (.ok anchor, q) →
      RunsBy setting functions reread runsAgain (.fetcher context (.call call)) p ⟨call, q.overlay⟩
  | again {context : Context} {operation : Operation} {p q r : Progress} {anchor : Anchor} {value : Json}
      {c : Calling} :
    normalizeBy setting functions reread context p = (.ok anchor, q) →
      perform setting functions true operation anchor q = (.ok (.value value), r) → runsAgain value r c →
      RunsBy setting functions reread runsAgain (.fetcher context operation) p c
  | item {items : List Context} {p : Progress} {c : Calling} :
    RunsEachBy setting functions reread runsAgain items p c →
      RunsBy setting functions reread runsAgain (.array items) p c

inductive RunsEachBy (setting : Setting) (functions : Functions) (reread : Json → Run Anchor)
    (runsAgain : Json → Progress → Calling → Prop) : List Context → Progress → Calling → Prop
  | head {context : Context} {rest : List Context} {p : Progress} {c : Calling} :
    RunsBy setting functions reread runsAgain context p c →
      RunsEachBy setting functions reread runsAgain (context :: rest) p c
  | tail {context : Context} {rest : List Context} {p q : Progress} {anchor : Anchor} {c : Calling} :
    normalizeBy setting functions reread context p = (.ok anchor, q) →
      RunsEachBy setting functions reread runsAgain rest q c →
      RunsEachBy setting functions reread runsAgain (context :: rest) p c

end

/-- The call runs while the value of a function is read again as a context. -/
def RunsAgain (setting : Setting) (functions : Functions) : Nat → Json → Progress → Calling → Prop
  | 0, _, _, _ => False
  | limit + 1, value, p, c => ∃ context, Context.ofJson? value = some context ∧
    RunsBy setting functions (reread setting functions limit) (RunsAgain setting functions limit) context p c

/-- The call runs while a fetch evaluates its context. -/
def RunsInContext (engine : Engine) (limit now : Nat) (context : Context) : Calling → Prop :=
  let setting := engine.settingAt now
  RunsBy setting engine.functions (reread setting engine.functions limit)
    (RunsAgain setting engine.functions limit) context (engine.start now)

/-- The call runs during the fetch: in the context, or as what is fetched there. -/
inductive Runs (engine : Engine) (limit now : Nat) : Fetcher → Calling → Prop
  | inContext {context : Context} {operation : Operation} {c : Calling} :
    engine.RunsInContext limit now context c → Runs engine limit now ⟨context, operation⟩ c
  | call {context : Context} {call : FunctionCall} {anchor : Anchor} {q : Progress} :
    engine.anchored limit now context = (.ok anchor, q) →
      Runs engine limit now ⟨context, .call call⟩ ⟨call, q.overlay⟩

/-- Reached from a new engine, and those calls ran on the way. Functions that are registered spare the
overlay and leave `highlight` in its place. -/
inductive ReachedWith : Engine → (Calling → Prop) → Prop
  | start (page : Page) (matcher : PropertyMatcher) (config : EngineConfig) :
    ReachedWith { ofPage page config with matcher } fun _ => False
  | register {engine : Engine} {ran : Calling → Prop} {name : String} {f : TerminalFunction} :
    name ≠ "highlight" → f.SparesOverlay → ReachedWith engine ran →
      ReachedWith { engine with functions := engine.functions.register name f } ran
  | clear {engine : Engine} {ran : Calling → Prop} :
    ReachedWith engine ran → ReachedWith { engine with overlay := engine.overlay.clear } ran
  | fetch {engine : Engine} {ran : Calling → Prop} (limit now : Nat) (fetcher : Fetcher) :
    ReachedWith engine ran →
      ReachedWith (engine.fetchWithin limit now fetcher).2 fun c => ran c ∨ engine.Runs limit now fetcher c

variable {setting : Setting} {functions : Functions}

/-- Only the calls of its context run on account of a query, since its results are no value. -/
theorem RunsBy.of_query {again : Json → Run Anchor} {runsAgain : Json → Progress → Calling → Prop}
    {context : Context} {query : Query} {p : Progress} {c : Calling}
    (runs : RunsBy setting functions again runsAgain (.fetcher context (.query query)) p c) :
    RunsBy setting functions again runsAgain context p c := by
  cases runs with
  | within runs => exact runs
  | again _ performed _ =>
    have noValue (anchor : Anchor) :
        Yields (perform setting functions true (.query query) anchor) fun o => ∀ v, o ≠ .value v := by
      unfold perform
      exact Yields.of_rest fun _ => Yields.pure fun _ => nofun
    exact absurd rfl (noValue _ _ _ (congrArg Prod.fst performed) _)

/-! ### Without a highlight the overlay stays -/

theorem callFunction_spares (only : functions.OnlyHighlight) {call : FunctionCall}
    (other : call.name ≠ "highlight") (anchor : Anchor) :
    SparesOverlay (callFunction setting functions call anchor) := by
  unfold callFunction
  cases found : functions.find? call.name with
  | none => exact .fail _
  | some f => exact only.others found other setting _ call.args

theorem perform_spares (only : functions.OnlyHighlight) (allowComponents : Bool) (anchor : Anchor) :
    ∀ {operation : Operation}, (∀ call, operation = .call call → call.name ≠ "highlight") →
      SparesOverlay (perform setting functions allowComponents operation anchor)
  | .query _, _ => perform_query_spares allowComponents anchor
  | .call _, other => (callFunction_spares only (other _ rfl) anchor).bind fun _ => .pure _

/-- A highlight without a time fails and takes no name. -/
theorem perform_untimed (only : functions.OnlyHighlight) (allowComponents : Bool) {args : List Json}
    {e : QueryError} (untimed : Functions.timeoutOf setting.config args = .error e) (anchor : Anchor) :
    perform setting functions allowComponents (.call ⟨"highlight", args⟩) anchor = Run.fail e := by
  unfold perform callFunction
  dsimp only
  rw [only.highlight]
  dsimp only
  rw [Functions.highlight_untimed untimed]
  rfl

variable {again : Json → Run Anchor} {runsAgain : Json → Progress → Calling → Prop}

mutual

/-- **A context during which no highlight runs leaves the overlay as it was**, also if it fails. -/
theorem normalizeBy_untouched (only : functions.OnlyHighlight)
    (untouched : ∀ value p, (∀ c, runsAgain value p c → c.call.name ≠ "highlight") →
      (again value p).2.overlay = p.overlay) : ∀ (context : Context) (p : Progress),
    (∀ c, RunsBy setting functions again runsAgain context p c → c.call.name ≠ "highlight") →
      (normalizeBy setting functions again context p).2.overlay = p.overlay
  | .null, _, _ => rfl
  | .root true, _, _ => rfl
  | .root false, _, _ => rfl
  | .node _, _, _ => rfl
  | .nodes _, _, _ => rfl
  | .components _, _, _ => rfl
  | .array items, p, silent =>
    bind_untouched (normalizeEachBy_untouched only untouched items p fun c runs => silent c (.item runs))
      fun _ _ _ => rfl
  | .fetcher context operation, p, silent => by
    refine bind_untouched
      (normalizeBy_untouched only untouched context p fun c runs => silent c (.within runs))
      fun anchor q anchored => bind_untouched ?_ fun outcome r performed => ?_
    -- each part has its own calls: here the one that the fetcher ends in, below those of its value
    · refine perform_spares only true anchor (fun call called => ?_) q
      subst called
      exact silent _ (.call anchored)
    · cases outcome with
      | results _ => rfl
      | value value => exact untouched value r fun c runs => silent c (.again anchored performed runs)

theorem normalizeEachBy_untouched (only : functions.OnlyHighlight)
    (untouched : ∀ value p, (∀ c, runsAgain value p c → c.call.name ≠ "highlight") →
      (again value p).2.overlay = p.overlay) : ∀ (items : List Context) (p : Progress),
    (∀ c, RunsEachBy setting functions again runsAgain items p c → c.call.name ≠ "highlight") →
      (normalizeEachBy setting functions again items p).2.overlay = p.overlay
  | [], _, _ => rfl
  | context :: rest, p, silent =>
    bind_untouched (normalizeBy_untouched only untouched context p fun c runs => silent c (.head runs))
      fun _ q anchored => bind_untouched
        (normalizeEachBy_untouched only untouched rest q fun c runs => silent c (.tail anchored runs))
        fun _ _ _ => rfl

end

theorem reread_untouched (only : functions.OnlyHighlight) : ∀ (limit : Nat) (value : Json) (p : Progress),
    (∀ c, RunsAgain setting functions limit value p c → c.call.name ≠ "highlight") →
      (reread setting functions limit value p).2.overlay = p.overlay
  | 0, _, _, _ => rfl
  | limit + 1, value, p, silent => by
    unfold reread
    cases read : Context.ofJson? value with
    | none => rfl
    | some context =>
      exact normalizeBy_untouched only (reread_untouched only limit) context p fun c runs =>
        silent c ⟨context, read, runs⟩

/-! ### The names that calls take are handed out -/

theorem callFunction_namesOn (only : functions.OnlyHighlight) (call : FunctionCall) (anchor : Anchor) :
    NamesOn (callFunction setting functions call anchor) := by
  by_cases name : call.name = "highlight"
  · unfold callFunction
    rw [name, only.highlight]
    exact Functions.highlight_namesOn _ _
  · exact (callFunction_spares only name anchor).namesOn

theorem perform_namesOn (only : functions.OnlyHighlight) (allowComponents : Bool) (anchor : Anchor) :
    ∀ operation : Operation, NamesOn (perform setting functions allowComponents operation anchor)
  | .query _ => (perform_query_spares allowComponents anchor).namesOn
  | .call call => (callFunction_namesOn only call anchor).bind fun _ => (SparesOverlay.pure _).namesOn

theorem anchorOf_namesOn (namesOn : ∀ value, NamesOn (again value)) :
    ∀ outcome : Outcome, NamesOn (anchorOf again outcome)
  | .results _ => (SparesOverlay.pure _).namesOn
  | .value value => namesOn value

mutual

theorem normalizeBy_namesOn (only : functions.OnlyHighlight) (namesOn : ∀ value, NamesOn (again value)) :
    ∀ context : Context, NamesOn (normalizeBy setting functions again context)
  | .null => (SparesOverlay.pure _).namesOn
  | .root true => (SparesOverlay.pure _).namesOn
  | .root false => (SparesOverlay.fail _).namesOn
  | .node _ => (SparesOverlay.pure _).namesOn
  | .nodes _ => (SparesOverlay.pure _).namesOn
  | .components _ => (SparesOverlay.pure _).namesOn
  | .array items => (normalizeEachBy_namesOn only namesOn items).bind fun _ => (SparesOverlay.pure _).namesOn
  | .fetcher context operation => (normalizeBy_namesOn only namesOn context).bind fun anchor =>
    (perform_namesOn only true anchor operation).bind (anchorOf_namesOn namesOn)

theorem normalizeEachBy_namesOn (only : functions.OnlyHighlight) (namesOn : ∀ value, NamesOn (again value)) :
    ∀ items : List Context, NamesOn (normalizeEachBy setting functions again items)
  | [] => (SparesOverlay.pure _).namesOn
  | context :: rest => (normalizeBy_namesOn only namesOn context).bind fun _ =>
    (normalizeEachBy_namesOn only namesOn rest).bind fun _ => (SparesOverlay.pure _).namesOn

end

theorem reread_namesOn (only : functions.OnlyHighlight) : ∀ (limit : Nat) (value : Json),
    NamesOn (reread setting functions limit value)
  | 0, _ => fun _ => Nat.le_refl _
  | limit + 1, value => by
    unfold reread
    cases Context.ofJson? value with
    | none => exact (SparesOverlay.fail _).namesOn
    | some context => exact normalizeBy_namesOn only (reread_namesOn only limit) context

theorem callFunction_accounted (only : functions.OnlyHighlight) (call : FunctionCall) (anchor : Anchor)
    (q : Progress) : Calling.AccountedIn setting.config ⟨call, q.overlay⟩
      (callFunction setting functions call anchor q).2.overlay := by
  intro uid taken
  unfold Calling.uid? at taken
  split at taken
  case isFalse => cases taken
  case isTrue name =>
    dsimp only at name
    cases timed : Functions.timeoutOf setting.config call.args with
    | error e => rw [timed] at taken; cases taken
    | ok timeout? =>
      rw [timed] at taken
      obtain rfl := Option.some.inj taken
      obtain ⟨r, run, added⟩ := Functions.highlight_apply timed (anchor.toInput setting.page.root) q
      unfold callFunction
      rw [name, only.highlight]
      dsimp only
      rw [run, added]
      exact ⟨q.overlay.named, Nat.lt_succ_self _, rfl⟩

/-- A call is accounted for by what is performed at the end of a fetcher. -/
theorem perform_accounted (only : functions.OnlyHighlight) (allowComponents : Bool) (call : FunctionCall)
    (anchor : Anchor) (q : Progress) : Calling.AccountedIn setting.config ⟨call, q.overlay⟩
      (perform setting functions allowComponents (.call call) anchor q).2.overlay :=
  (callFunction_accounted only call anchor q).mono
    (NamesOn.behind (fun _ => (SparesOverlay.pure _).namesOn) _ q)

mutual

/-- **The names that calls take while a context is evaluated are handed out when it ends**, also if it
fails. -/
theorem normalizeBy_accounted (only : functions.OnlyHighlight) (namesOn : ∀ value, NamesOn (again value))
    (accounted : ∀ value p c, runsAgain value p c → c.AccountedIn setting.config (again value p).2.overlay) :
    ∀ (context : Context) (p : Progress) (c : Calling),
      RunsBy setting functions again runsAgain context p c →
        c.AccountedIn setting.config (normalizeBy setting functions again context p).2.overlay
  | .array items, p, c, .item runs =>
    (normalizeEachBy_accounted only namesOn accounted items p c runs).mono
      (NamesOn.behind (fun _ => (SparesOverlay.pure _).namesOn) _ p)
  | .fetcher context operation, p, c, .within runs =>
    (normalizeBy_accounted only namesOn accounted context p c runs).mono (NamesOn.behind (fun anchor =>
      (perform_namesOn only true anchor operation).bind (anchorOf_namesOn namesOn)) _ p)
  | .fetcher context (.call call), p, ⟨_, _⟩, .call anchored => by
    unfold normalizeBy
    rw [bind_ok_apply anchored]
    exact (perform_accounted only true call _ _).mono (NamesOn.behind (anchorOf_namesOn namesOn) _ _)
  | .fetcher context operation, p, c, .again anchored performed runs => by
    unfold normalizeBy
    rw [bind_ok_apply anchored, bind_ok_apply performed]
    exact accounted _ _ c runs

theorem normalizeEachBy_accounted (only : functions.OnlyHighlight) (namesOn : ∀ value, NamesOn (again value))
    (accounted : ∀ value p c, runsAgain value p c → c.AccountedIn setting.config (again value p).2.overlay) :
    ∀ (items : List Context) (p : Progress) (c : Calling),
      RunsEachBy setting functions again runsAgain items p c →
        c.AccountedIn setting.config (normalizeEachBy setting functions again items p).2.overlay
  | context :: rest, p, c, .head runs =>
    (normalizeBy_accounted only namesOn accounted context p c runs).mono (NamesOn.behind (fun _ =>
      (normalizeEachBy_namesOn only namesOn rest).bind fun _ => (SparesOverlay.pure _).namesOn) _ p)
  | context :: rest, p, c, .tail anchored runs => by
    unfold normalizeEachBy
    rw [bind_ok_apply anchored]
    exact (normalizeEachBy_accounted only namesOn accounted rest _ c runs).mono
      (NamesOn.behind (fun _ => (SparesOverlay.pure _).namesOn) _ _)

end

theorem reread_accounted (only : functions.OnlyHighlight) : ∀ (limit : Nat) (value : Json) (p : Progress)
    (c : Calling), RunsAgain setting functions limit value p c →
      c.AccountedIn setting.config (reread setting functions limit value p).2.overlay
  | 0, _, _, _, runs => runs.elim
  | limit + 1, value, p, c, ⟨context, read, runs⟩ => by
    unfold reread
    rw [read]
    exact normalizeBy_accounted only (reread_namesOn only limit) (reread_accounted only limit) context p c runs

/-! ### Fetches -/

section fetches

/-- A fetch performs its operation where its context is anchored. -/
theorem fetchWithin_of_anchored {engine : Engine} {limit now : Nat} {context : Context} {anchor : Anchor}
    {q : Progress} (anchored : engine.anchored limit now context = (.ok anchor, q)) (operation : Operation) :
    let run := perform (engine.settingAt now) engine.functions engine.config.allowComponentResults operation
      anchor q
    engine.fetchWithin limit now ⟨context, operation⟩ =
      (run.1, { engine with selectors := run.2.selectors, overlay := run.2.overlay }) := by
  unfold fetchWithin resolve
  dsimp only
  rw [bind_ok_apply anchored]
  rfl

theorem fetchWithin_of_unanchored {engine : Engine} {limit now : Nat} {context : Context} {h : Halt}
    {q : Progress} (fails : engine.anchored limit now context = (.error h, q)) (operation : Operation) :
    engine.fetchWithin limit now ⟨context, operation⟩ =
      (.error h, { engine with selectors := q.selectors, overlay := q.overlay }) := by
  unfold fetchWithin resolve
  dsimp only
  rw [bind_apply]
  unfold anchored at fails
  rw [fails]

variable {engine : Engine} (only : engine.functions.OnlyHighlight)

include only

/-- A context during which no highlight runs leaves the overlay pruned. -/
theorem anchored_untouched {limit now : Nat} {context : Context}
    (silent : ∀ c, engine.RunsInContext limit now context c → c.call.name ≠ "highlight") :
    (engine.anchored limit now context).2.overlay = engine.overlay.prune now :=
  normalizeBy_untouched only (reread_untouched only limit) context (engine.start now) silent

/-- **A fetch during which no highlight runs drops the markers that expired and does no more to the
overlay**, also if it fails. -/
theorem fetchWithin_untouched {limit now : Nat} : ∀ {fetcher : Fetcher},
    (∀ c, engine.Runs limit now fetcher c → c.call.name ≠ "highlight") →
      (engine.fetchWithin limit now fetcher).2.overlay = engine.overlay.prune now
  | ⟨context, operation⟩, silent => by
    refine bind_untouched (anchored_untouched only fun c runs => silent c (.inContext runs))
      fun anchor q anchored => perform_spares only _ anchor (fun call called => ?_) q
    subst called
    exact silent _ (.call anchored)

theorem fetchWithin_namesOn (limit now : Nat) (fetcher : Fetcher) :
    engine.overlay.named ≤ (engine.fetchWithin limit now fetcher).2.overlay.named :=
  (normalizeBy_namesOn only (reread_namesOn only limit) fetcher.context).bind
    (fun anchor => perform_namesOn only _ anchor fetcher.operation) (engine.start now)

theorem fetchWithin_accounted {limit now : Nat} : ∀ {fetcher : Fetcher} {c : Calling},
    engine.Runs limit now fetcher c →
      c.AccountedIn engine.config (engine.fetchWithin limit now fetcher).2.overlay
  | ⟨context, operation⟩, c, .inContext runs =>
    (normalizeBy_accounted only (reread_namesOn only limit) (reread_accounted only limit) context
      (engine.start now) c runs).mono
      (NamesOn.behind (fun anchor => perform_namesOn only _ anchor operation) _ (engine.start now))
  | ⟨context, .call call⟩, ⟨_, _⟩, .call anchored => by
    rw [fetchWithin_of_anchored anchored]
    exact @perform_accounted (engine.settingAt now) _ only _ call _ _

end fetches

/-- Of an engine that is reached, all names that its calls took are handed out. -/
theorem ReachedWith.accounts {engine : Engine} {ran : Calling → Prop} (h : engine.ReachedWith ran) :
    engine.functions.OnlyHighlight ∧ ∀ c, ran c → c.AccountedIn engine.config engine.overlay := by
  induction h with
  | start page matcher config => exact ⟨Functions.onlyHighlight_builtin, fun _ none => none.elim⟩
  | register other spares _ ih => exact ⟨ih.1.register other spares, ih.2⟩
  | clear _ ih => exact ih
  | fetch limit now fetcher _ ih =>
    refine ⟨ih.1, fun c ran => ?_⟩
    rcases ran with earlier | runs
    · exact (ih.2 c earlier).mono (fetchWithin_namesOn ih.1 limit now fetcher)
    · exact fetchWithin_accounted ih.1 runs

end Engine

/-! ### Markers of the leaves that project -/

/-- The markers of leaves stand one by one for those that project a node. -/
theorem Page.forall₂_markers (page : Page) (mark : Rect → Marker) (leaves : List ResultSet) :
    List.Forall₂ (fun leaf m => ∃ rect, page.boxOf? leaf = some rect ∧ m = mark rect)
      (leaves.filter page.projects) ((leaves.filterMap page.boxOf?).map mark) := by
  induction leaves with
  | nil => exact .nil
  | cons leaf rest others =>
    cases box : page.boxOf? leaf with
    | none =>
      have silent : page.projects leaf = false := by rw [← page.isSome_boxOf?, box]; rfl
      rwa [List.filterMap_cons_none box, List.filter_cons_of_neg (by simp [silent])]
    | some rect =>
      have projects : page.projects leaf = true := by rw [← page.isSome_boxOf?, box]; rfl
      rw [List.filterMap_cons_some box, List.filter_cons_of_pos projects]
      exact .cons ⟨rect, box, rfl⟩ others

namespace Engine

/-- **A highlight marks all or nothing.** Let no highlight run in its context. If it fails, the markers that
have not expired and the number of names taken are as before. If it succeeds, the markers that have not
expired are followed by one for each leaf of its input that projects a node, from left to right and all of
one name, which no call took before. A fetch during which no highlight runs changes neither. -/
theorem fetchWithin_marks {engine : Engine} {ran : Calling → Prop} (reached : engine.ReachedWith ran)
    (limit now : Nat) :
    (∀ context args, (∀ c, engine.RunsInContext limit now context c → c.call.name ≠ "highlight") →
      let fetched := engine.fetchWithin limit now ⟨context, .call ⟨"highlight", args⟩⟩
      (∀ h, fetched.1 = .error h → fetched.2.overlay = engine.overlay.prune now) ∧
        ∀ o, fetched.1 = .ok o → ∃ anchor timeout? uid added,
          (engine.anchored limit now context).1 = .ok anchor ∧
          Functions.timeoutOf engine.config args = .ok timeout? ∧
          fetched.2.overlay = ⟨engine.overlay.active now ++ added, engine.overlay.named + 1⟩ ∧
          List.Forall₂ (fun leaf m => ∃ rect, engine.page.boxOf? leaf = some rect ∧
              m = (engine.settingAt now).marker uid timeout? rect)
            ((anchor.toInput engine.page.root).leaves.filter engine.page.projects) added ∧
          ∀ c, ran c → c.uid? engine.config ≠ some uid) ∧
    ∀ fetcher, (∀ c, engine.Runs limit now fetcher c → c.call.name ≠ "highlight") →
      (engine.fetchWithin limit now fetcher).2.overlay = engine.overlay.prune now := by
  -- the names of earlier calls are among those handed out, and pruning hands out none
  obtain ⟨only, accounts⟩ := reached.accounts
  refine ⟨fun context args silent => ?_, fun fetcher silent => fetchWithin_untouched only silent⟩
  have untouched := anchored_untouched only silent
  match anchored : engine.anchored limit now context with
  | (.error h, q) =>
    rw [anchored] at untouched
    rw [fetchWithin_of_unanchored anchored]
    exact ⟨fun _ _ => untouched, fun _ => nofun⟩
  | (.ok anchor, q) =>
    rw [anchored] at untouched
    rw [fetchWithin_of_anchored anchored]
    cases timed : Functions.timeoutOf engine.config args with
    | error e =>
      -- the argument is looked at before a name is taken
      rw [@perform_untimed (engine.settingAt now) _ only _ _ _ timed anchor]
      exact ⟨fun _ _ => untouched, fun _ => nofun⟩
    | ok timeout? =>
      obtain ⟨r, run, added⟩ := @perform_highlight (engine.settingAt now) _ only.highlight
        engine.config.allowComponentResults args timeout? timed anchor q
      rw [run]
      refine ⟨fun _ => nofun, fun o _ => ⟨anchor, timeout?, q.overlay.nextUid.1, _, rfl, rfl, ?_,
        engine.page.forall₂_markers _ _, fun c earlier taken => ?_⟩⟩
      · rw [added, untouched]
        rfl
      · rw [untouched] at taken
        exact engine.overlay.not_handedOut_nextUid (accounts c earlier _ taken)

/-- The body is highlighted for a time. Then a highlight of null and the two items is refused for its
argument, another marks the items, and a count changes nothing. -/
theorem fetchWithin_marks_mirror :
    let new : Engine := { ofPage mirrorPage .default with matcher := Predicate.matches }
    let body : Fetcher := ⟨.root true, .call ⟨"highlight", [.ofNat 500]⟩⟩
    let used := (new.fetchWithin 1 0 body).2
    let items : Context := .array [.null, .fetcher (.root true) (.query ⟨"li", true, none⟩)]
    let refused := used.fetchWithin 1 10 ⟨items, .call ⟨"highlight", [.string "soon"]⟩⟩
    let marked := used.fetchWithin 1 10 ⟨items, .call ⟨"highlight", []⟩⟩
    (∀ c, used.RunsInContext 1 10 items c → c.call.name ≠ "highlight") ∧
      refused.1 = .error (.error (.badTimeout (.string "soon"))) ∧
      refused.2.overlay = used.overlay.prune 10 ∧
      (∃ o, marked.1 = .ok o) ∧ (∃ uid added, marked.2.overlay = ⟨used.overlay.active 10 ++ added, 2⟩ ∧
        ∀ c, new.Runs 1 0 body c → c.uid? used.config ≠ some uid) ∧
      (used.fetchWithin 1 10 ⟨items, .call ⟨"count", []⟩⟩).2.overlay = used.overlay.prune 10 := by
  intro new body used items refused marked
  have silent : ∀ c, ¬ used.RunsInContext 1 10 items c := by
    intro c runs
    change RunsBy _ _ _ _ (.array _) _ _ at runs
    cases runs with | item each =>
    cases each with
    | head runs => cases runs
    | tail _ each =>
      cases each with
      | head runs => cases runs.of_query
      | tail _ each => cases each
  have reached : used.ReachedWith fun c => False ∨ new.Runs 1 0 body c :=
    .fetch 1 0 body (.start mirrorPage Predicate.matches .default)
  obtain ⟨highlights, others⟩ := fetchWithin_marks reached 1 10
  have fails : refused.1 = .error (.error (.badTimeout (.string "soon"))) := rfl
  obtain ⟨o, succeeds⟩ : ∃ o, marked.1 = .ok o := exists_ok_of_toBool (by decide +kernel)
  obtain ⟨untouched, -⟩ := highlights items [.string "soon"] fun c runs => (silent c runs).elim
  obtain ⟨-, marks⟩ := highlights items [] fun c runs => (silent c runs).elim
  obtain ⟨_, _, uid, added, -, -, overlay, -, fresh⟩ := marks o succeeds
  have named : used.overlay.named = 1 := by decide +kernel
  refine ⟨fun c runs => (silent c runs).elim, fails, untouched _ fails, ⟨o, succeeds⟩, ?_, ?_⟩
  · exact ⟨uid, added, overlay.trans (by rw [named]), fun c runs => fresh c (.inr runs)⟩
  · refine others _ fun c runs => ?_
    cases runs with
    | inContext runs => exact (silent c runs).elim
    | call _ => exact of_decide_eq_true rfl

end Engine

end PageQuery
