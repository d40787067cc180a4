/-
# How far values of functions nest

The value of a function in a context is read as a context in its turn. A resolution that is given too
small a limit on how often this nests is exhausted; one that is not comes to the same with any larger
limit. So a fetch returns if some limit is large enough.

The contexts that follow one on another in this way are given by a relation: a context leads to what is
read from the value of a call that its resolution makes. The resolution returns exactly when there is no
endless way along it.

Key definitions: `Engine.Asks`, `Engine.LeadsTo`, `Engine.anchorWithin`, `Ends`.
Key theorems: `Engine.anchorWithin_le`, `Engine.exists_ends_iff_acc`.
-/
import PageQuery.Proofs.Engine.Resolution

namespace PageQuery

/-! ### Results that are not cut off -/

section Ends

variable {α β : Type}

/-- The run ended before the limit was reached. -/
def Ends (r : Except Halt α) : Prop := r ≠ .error .exhausted

theorem ends_ok (a : α) : Ends (.ok a) := fun h => (nomatch h)

theorem Ends.of_bind {r : Except Halt α} {f : α → Except Halt β} (h : Ends (r.bind f)) : Ends r := by
  rintro rfl
  exact h rfl

@[simp] theorem ends_map_iff {r : Except Halt α} {f : α → β} : Ends (r.map f) ↔ Ends r := by
  cases r <;> simp [Ends, Except.map]

theorem Ends.error {h : Halt} {a b : Type} (e : Ends (.error h : Except Halt a)) :
    Ends (.error h : Except Halt b) := fun k => e (by cases k; rfl)

/-- A run that settles for reasons of its own is not cut off. -/
theorem Run.Settles.ends {m : Run α} (h : Run.Settles Halt.IsError m) : Ends (Run.outcome m) := fun e =>
  h.reason e rfl

/-- Where the first function is not cut off, the second gives the same. -/
theorem each_eq_of_ends {f g : α → Except Halt β} : ∀ {as : List α},
    (∀ a ∈ as, Ends (f a) → g a = f a) → Ends (each f as) → each g as = each f as
  | [], _, _ => rfl
  | a :: rest, h, e => by
    unfold each at e ⊢
    rw [h a List.mem_cons_self e.of_bind]
    cases r : f a with
    | error x => rfl
    | ok b =>
      rw [r] at e
      have same := each_eq_of_ends (fun c hc => h c (List.mem_cons_of_mem a hc)) (ends_map_iff.mp e)
      show (each g rest).map _ = (each f rest).map _
      rw [same]

/-- What comes behind arguments that have results is not cut off either. -/
theorem ends_of_each {f : α → Except Halt β} {a : α} {after : List α} : ∀ {before : List α},
    (∀ b ∈ before, Ends (f b) → ∃ r, f b = .ok r) → Ends (each f (before ++ a :: after)) → Ends (f a)
  | [], _, e => e.of_bind
  | b :: before, h, e => by
    obtain ⟨r, hr⟩ := h b List.mem_cons_self e.of_bind
    rw [List.cons_append, each, hr] at e
    exact ends_of_each (fun c hc => h c (List.mem_cons_of_mem b hc)) (ends_map_iff.mp e)

end Ends

open Run

namespace Engine

variable {setting : Setting} {functions : Functions}

/-! ### Larger limits change nothing -/

/-- What a context comes to if values may nest so many times. -/
def anchorWithin (setting : Setting) (functions : Functions) (limit : Nat) (context : Context) :
    Except Halt Anchor := outcome (normalizeBy setting functions (reread setting functions limit) context)

theorem outcome_reread_succ (limit : Nat) (value : Json) :
    outcome (reread setting functions (limit + 1) value) =
      match Context.ofJson? value with
      | none => .error (.error (.notAContext value))
      | some context => anchorWithin setting functions limit context := by
  unfold reread
  cases Context.ofJson? value <;> rfl

theorem anchorWithin_array (settled : functions.Settled) (limit : Nat) (items : List Context) :
    anchorWithin setting functions limit (.array items) =
      (each (anchorWithin setting functions limit) items).map .array :=
  outcome_normalizeBy_array settled (reread_settles settled limit) items

theorem anchorWithin_fetcher (settled : functions.Settled) (limit : Nat) (context : Context)
    (operation : Operation) :
    anchorWithin setting functions limit (.fetcher context operation) =
      (anchorWithin setting functions limit context).bind fun anchor =>
        (outcome (perform setting functions true operation anchor)).bind fun o =>
          outcome (anchorOf (reread setting functions limit) o) :=
  outcome_normalizeBy_fetcher settled (reread_settles settled limit) context operation

mutual

/-- The second limit gives what the first one does where that ends, if it does so for values. -/
theorem anchorWithin_agrees (settled : functions.Settled) {limit more : Nat}
    (h : ∀ value, Ends (outcome (reread setting functions limit value)) →
      outcome (reread setting functions more value) = outcome (reread setting functions limit value)) :
    ∀ context : Context, Ends (anchorWithin setting functions limit context) →
      anchorWithin setting functions more context = anchorWithin setting functions limit context
  | .null, _ => rfl
  | .root true, _ => rfl
  | .root false, _ => rfl
  | .node _, _ => rfl
  | .nodes _, _ => rfl
  | .components _, _ => rfl
  | .array items, e => by
    rw [anchorWithin_array settled, anchorWithin_array settled] at *
    rw [each_eq_of_ends (anchorWithin_agrees_each settled h items) (ends_map_iff.mp e)]
  | .fetcher context operation, e => by
    rw [anchorWithin_fetcher settled, anchorWithin_fetcher settled] at *
    rw [anchorWithin_agrees settled h context e.of_bind]
    cases r : anchorWithin setting functions limit context with
    | error x => rfl
    | ok anchor =>
      rw [r] at e
      show (outcome (perform setting functions true operation anchor)).bind _ =
        (outcome (perform setting functions true operation anchor)).bind _
      cases p : outcome (perform setting functions true operation anchor) with
      | error x => rfl
      | ok o =>
        replace e : Ends ((outcome (perform setting functions true operation anchor)).bind _) := e
        rw [p] at e
        cases o with
        | results _ => rfl
        | value value => exact h value e

theorem anchorWithin_agrees_each (settled : functions.Settled) {limit more : Nat}
    (h : ∀ value, Ends (outcome (reread setting functions limit value)) →
      outcome (reread setting functions more value) = outcome (reread setting functions limit value)) :
    ∀ (items : List Context), ∀ c ∈ items, Ends (anchorWithin setting functions limit c) →
      anchorWithin setting functions more c = anchorWithin setting functions limit c
  | item :: rest, c, hc, e => by
    rcases List.mem_cons.mp hc with same | hc
    · rw [same] at e ⊢
      exact anchorWithin_agrees settled h item e
    · exact anchorWithin_agrees_each settled h rest c hc e

end

theorem reread_succ (settled : functions.Settled) : ∀ (limit : Nat) (value : Json),
    Ends (outcome (reread setting functions limit value)) →
      outcome (reread setting functions (limit + 1) value) = outcome (reread setting functions limit value)
  | 0, _, e => absurd rfl e
  | limit + 1, value, e => by
    rw [outcome_reread_succ] at e
    rw [outcome_reread_succ, outcome_reread_succ]
    cases c : Context.ofJson? value with
    | none => rfl
    | some context =>
      rw [c] at e
      exact anchorWithin_agrees settled (reread_succ settled limit) context e

theorem reread_le (settled : functions.Settled) {limit more : Nat} (h : limit ≤ more) {value : Json}
    (e : Ends (outcome (reread setting functions limit value))) :
    outcome (reread setting functions more value) = outcome (reread setting functions limit value) := by
  induction more, h using Nat.le_induction with
  | base => rfl
  | succ more _ ih =>
    rw [reread_succ settled more value (ih ▸ e), ih]

/-- **A resolution that ends comes to the same with any larger limit.** -/
theorem anchorWithin_le (settled : functions.Settled) {limit more : Nat} (h : limit ≤ more)
    {context : Context} (e : Ends (anchorWithin setting functions limit context)) :
    anchorWithin setting functions more context = anchorWithin setting functions limit context :=
  anchorWithin_agrees settled (fun _ => reread_le settled h) context e

/-! ### The values that a resolution reads -/

/-- The context comes to the anchor if values may nest often enough. -/
def ResolvesTo (setting : Setting) (functions : Functions) (context : Context) (anchor : Anchor) : Prop :=
  ∃ limit, anchorWithin setting functions limit context = .ok anchor

theorem ResolvesTo.within (settled : functions.Settled) {context : Context} {anchor : Anchor}
    (h : ResolvesTo setting functions context anchor) {limit : Nat}
    (e : Ends (anchorWithin setting functions limit context)) :
    anchorWithin setting functions limit context = .ok anchor := by
  obtain ⟨enough, h⟩ := h
  rcases Nat.le_total enough limit with le | le
  · rw [anchorWithin_le settled le (h ▸ ends_ok anchor), h]
  · rw [← anchorWithin_le settled le e, h]

/-- Resolving the context calls a function, of those in question, whose value is then read. In an array
the items before have to resolve. -/
inductive Asks (setting : Setting) (functions : Functions) (calls : FunctionCall → Prop) :
    Context → Json → Prop
  | value {context : Context} {call : FunctionCall} {anchor : Anchor} {value : Json} :
    calls call → ResolvesTo setting functions context anchor →
      outcome (callFunction setting functions call anchor) = .ok value →
      Asks setting functions calls (.fetcher context (.call call)) value
  | within {context : Context} {operation : Operation} {value : Json} :
    Asks setting functions calls context value →
      Asks setting functions calls (.fetcher context operation) value
  | item {before : List Context} {context : Context} {after : List Context} {value : Json} :
    (∀ c ∈ before, ∃ anchor, ResolvesTo setting functions c anchor) →
      Asks setting functions calls context value →
      Asks setting functions calls (.array (before ++ context :: after)) value

/-- The first context leads to what is read from a value that its resolution asks for. -/
def LeadsTo (setting : Setting) (functions : Functions) (calls : FunctionCall → Prop)
    (context next : Context) : Prop :=
  ∃ value, Asks setting functions calls context value ∧ Context.ofJson? value = some next

/-- A resolution that ends has read the values that it asks for to the end. -/
theorem ends_reread_of_asks (settled : functions.Settled) {calls : FunctionCall → Prop}
    {context : Context} {value : Json} (h : Asks setting functions calls context value) {limit : Nat}
    (e : Ends (anchorWithin setting functions limit context)) :
    Ends (outcome (reread setting functions limit value)) := by
  induction h with
  | value _ resolves called =>
    rw [anchorWithin_fetcher settled] at e
    rw [resolves.within settled e.of_bind] at e
    replace e : Ends ((outcome (perform setting functions true _ _)).bind _) := e
    rw [outcome_perform_call settled, called] at e
    exact e
  | within _ ih =>
    rw [anchorWithin_fetcher settled] at e
    exact ih e.of_bind
  | item resolve _ ih =>
    rw [anchorWithin_array settled] at e
    refine ih (ends_of_each (fun c hc e => ?_) (ends_map_iff.mp e))
    obtain ⟨anchor, h⟩ := resolve c hc
    exact ⟨anchor, h.within settled e⟩

/-- Where the context resolves, only the value of a call is left to be read. -/
theorem ends_fetcher (settled : functions.Settled) {limit : Nat} {context : Context} {anchor : Anchor}
    (r : anchorWithin setting functions limit context = .ok anchor) {operation : Operation}
    (h : ∀ call value, operation = .call call →
      outcome (callFunction setting functions call anchor) = .ok value →
      Ends (outcome (reread setting functions limit value))) :
    Ends (anchorWithin setting functions limit (.fetcher context operation)) := by
  rw [anchorWithin_fetcher settled, r]
  show Ends ((outcome (perform setting functions true operation anchor)).bind _)
  have performed : Ends (outcome (perform setting functions true operation anchor)) :=
    (perform_settles settled true operation anchor).ends
  cases p : outcome (perform setting functions true operation anchor) with
  | error x => exact (p ▸ performed).error
  | ok o =>
    cases o with
    | results r => exact ends_ok _
    | value value =>
      cases operation with
      | query query =>
        rw [outcome_perform_execute] at p
        obtain ⟨_, -, e⟩ := map_ok_iff.mp p
        cases e
      | call call =>
        rw [outcome_perform_call settled] at p
        obtain ⟨v, called, e⟩ := map_ok_iff.mp p
        cases e
        exact h call value rfl called

/-- Any call. -/
def AnyCall : FunctionCall → Prop := fun _ => True

mutual

/-- Where every value that is asked for can be read to the end, the resolution ends. -/
theorem exists_ends (settled : functions.Settled) : ∀ context : Context,
    (∀ value, Asks setting functions AnyCall context value →
      ∃ limit, Ends (outcome (reread setting functions limit value))) →
    ∃ limit, Ends (anchorWithin setting functions limit context)
  | .null, _ => ⟨0, ends_ok _⟩
  | .root true, _ => ⟨0, ends_ok _⟩
  | .root false, _ => ⟨0, fun h => (nomatch h)⟩
  | .node _, _ => ⟨0, ends_ok _⟩
  | .nodes _, _ => ⟨0, ends_ok _⟩
  | .components _, _ => ⟨0, ends_ok _⟩
  | .array items, h => by
    obtain ⟨limit, e⟩ := exists_ends_each settled items [] (fun _ hc => (nomatch hc)) h
    exact ⟨limit, by rw [anchorWithin_array settled]; exact ends_map_iff.mpr e⟩
  | .fetcher context operation, h => by
    obtain ⟨limit, e⟩ := exists_ends settled context fun value asks => h value asks.within
    cases r : anchorWithin setting functions limit context with
    | error x =>
      refine ⟨limit, ?_⟩
      rw [anchorWithin_fetcher settled, r]
      exact (r ▸ e).error
    | ok anchor =>
      by_cases called : ∃ call value, operation = .call call ∧
          outcome (callFunction setting functions call anchor) = .ok value
      · obtain ⟨call, value, rfl, called⟩ := called
        obtain ⟨more, e'⟩ := h value (.value trivial ⟨limit, r⟩ called)
        refine ⟨max limit more, ends_fetcher settled
          ((anchorWithin_le settled (Nat.le_max_left limit more) e).trans r) fun call' value' same called' => ?_⟩
        cases same
        obtain rfl : value = value' := Except.ok.inj (called.symm.trans called')
        rw [reread_le settled (Nat.le_max_right limit more) e']
        exact e'
      · exact ⟨limit, ends_fetcher settled r fun call value same called' =>
          absurd ⟨call, value, same, called'⟩ called⟩

theorem exists_ends_each (settled : functions.Settled) : ∀ items before : List Context,
    (∀ c ∈ before, ∃ anchor, ResolvesTo setting functions c anchor) →
    (∀ value, Asks setting functions AnyCall (.array (before ++ items)) value →
      ∃ limit, Ends (outcome (reread setting functions limit value))) →
    ∃ limit, Ends (each (anchorWithin setting functions limit) items)
  | [], _, _, _ => ⟨0, ends_ok _⟩
  | c :: rest, before, resolve, h => by
    obtain ⟨limit, e⟩ := exists_ends settled c fun value asks => h value (.item resolve asks)
    cases r : anchorWithin setting functions limit c with
    | error x =>
      refine ⟨limit, ?_⟩
      rw [each, r]
      exact (r ▸ e).error
    | ok anchor =>
      have resolve : ∀ c' ∈ before ++ [c], ∃ anchor, ResolvesTo setting functions c' anchor := by
        intro c' hc
        rcases List.mem_append.mp hc with hc | hc
        · exact resolve c' hc
        · exact List.mem_singleton.mp hc ▸ ⟨anchor, limit, r⟩
      obtain ⟨more, e'⟩ := exists_ends_each settled rest (before ++ [c]) resolve (by simpa using h)
      refine ⟨max limit more, ?_⟩
      rw [each, anchorWithin_le settled (Nat.le_max_left limit more) e, r]
      refine ends_map_iff.mpr ?_
      rw [each_eq_of_ends (fun _ _ => anchorWithin_le settled (Nat.le_max_right limit more)) e']
      exact e'

end

/-- **A resolution ends for some limit exactly when no endless way leads on from its context.** -/
theorem exists_ends_iff_acc (settled : functions.Settled) (context : Context) :
    (∃ limit, Ends (anchorWithin setting functions limit context)) ↔
      Acc (fun next c => LeadsTo setting functions AnyCall c next) context := by
  constructor
  · rintro ⟨limit, e⟩
    induction limit generalizing context with
    | zero =>
      refine ⟨_, fun next ⟨value, asks, read⟩ => ?_⟩
      exact absurd rfl (ends_reread_of_asks settled asks e)
    | succ limit ih =>
      refine ⟨_, fun next ⟨value, asks, read⟩ => ih next ?_⟩
      have ends := ends_reread_of_asks settled asks e
      rw [outcome_reread_succ, read] at ends
      exact ends
  · intro acc
    induction acc with
    | intro context _ ih =>
      refine exists_ends settled context fun value asks => ?_
      cases read : Context.ofJson? value with
      | none =>
        refine ⟨1, ?_⟩
        rw [outcome_reread_succ, read]
        exact fun h => (nomatch h)
      | some next =>
        obtain ⟨limit, e⟩ := ih next ⟨value, asks, read⟩
        refine ⟨limit + 1, ?_⟩
        rw [outcome_reread_succ, read]
        exact e

end Engine

end PageQuery
