/-
# Earlier fetches do not show

From one fetch to the next an engine keeps the parses of selectors and the overlay, also what a fetch
has left in them that failed halfway. The invariant is that every parse kept is what parsing gives and
that nothing else but the overlay has changed. One fetch keeps it, so any number of them do. A fetch
reads the parses only to spare itself the parsing, and the overlay not so that it shows in what it gives;
hence it comes to what it comes to on an engine that has fetched nothing, and that at any moment.

Identities need no invariant, since each fetch starts without any. The functions at hand give the same
whatever the overlay holds. One that is registered has to as well, or its fetches could tell what came
before.

Key definitions: `Engine.Request`, `Engine.after`, `Engine.ContinuesFrom`.
Key theorems: `Engine.ContinuesFrom.fetch`, `Engine.continuesFrom_after`, `Engine.fetchWithin_after`.
-/
import PageQuery.Proofs.Engine.Clock

namespace PageQuery

open Run

namespace Functions

/-- Every function is one of those at hand or reads nothing that other fetches or the time change. -/
def KeepsNoRecord (fs : Functions) : Prop :=
  ∀ entry ∈ fs.entries, entry ∈ builtin.entries ∨ entry.2.Timeless

theorem keepsNoRecord_builtin : builtin.KeepsNoRecord := fun _ listed => Or.inl listed

variable {fs : Functions}

theorem KeepsNoRecord.timeless (h : fs.KeepsNoRecord) : ∀ entry ∈ fs.entries, entry.2.Timeless :=
  fun entry listed => (h entry listed).elim (builtin_timeless entry) id

theorem KeepsNoRecord.settled (h : fs.KeepsNoRecord) : fs.Settled := fun entry listed =>
  (h.timeless entry listed).settles

theorem KeepsNoRecord.steady (h : fs.KeepsNoRecord) (now later : Nat) : fs.Steady now later :=
  fun entry listed setting input args => (h.timeless entry listed setting now later input args).outcome_eq

end Functions

namespace Engine

/-- A fetch at some moment; values of functions may nest so many times. -/
structure Request where
  limit : Nat
  now : Nat
  fetcher : Fetcher

/-- The engine after some fetches, whatever they came to. -/
def after (engine : Engine) (history : List Request) : Engine :=
  history.foldl (fun engine r => (engine.fetchWithin r.limit r.now r.fetcher).2) engine

/-- The engine has right parses and is, but for them and the overlay, still the one it comes from. -/
structure ContinuesFrom (fresh engine : Engine) : Prop where
  selectors : engine.selectors.Sound
  renewed : engine.renewed = fresh.renewed

variable {fresh engine : Engine}

namespace ContinuesFrom

variable (h : ContinuesFrom fresh engine)

include h

theorem settingAt (now : Nat) : engine.settingAt now = fresh.settingAt now := by
  show engine.renewed.settingAt now = fresh.renewed.settingAt now
  rw [h.renewed]

theorem functions : engine.functions = fresh.functions := by
  show engine.renewed.functions = fresh.renewed.functions
  rw [h.renewed]

variable (settled : fresh.functions.Settled)

include settled

/-- What a fetch on it comes to is read off the engine that it comes from. -/
theorem fetchWithin_fst (limit now : Nat) (fetcher : Fetcher) : (engine.fetchWithin limit now fetcher).1 =
    outcome (resolve (fresh.settingAt now) fresh.functions limit fetcher) := by
  rw [← h.settingAt, ← h.functions]
  exact (resolve_settles (h.functions ▸ settled) limit fetcher).apply h.selectors

/-- **A fetch leaves the engine one that continues**, also when it fails. -/
theorem fetch (limit now : Nat) (fetcher : Fetcher) :
    ContinuesFrom fresh (engine.fetchWithin limit now fetcher).2 :=
  ⟨(resolve_settles (h.functions ▸ settled) limit fetcher).sound h.selectors, h.renewed⟩

end ContinuesFrom

/-- **Any number of fetches do.** -/
theorem continuesFrom_after (settled : fresh.functions.Settled) : ∀ (history : List Request) {engine : Engine},
    ContinuesFrom fresh engine → ContinuesFrom fresh (engine.after history)
  | [], _, h => h
  | r :: rest, _, h => continuesFrom_after settled rest (h.fetch settled r.limit r.now r.fetcher)

/-- **No fetch shows what was fetched before it.** Whatever a new engine has fetched, with success or
not, the next fetch comes to what it comes to on an engine that is as new, at whatever moment. -/
theorem fetchWithin_after (page : Page) (matcher : PropertyMatcher) (config : EngineConfig)
    {functions : Functions} (noRecord : functions.KeepsNoRecord) (history : List Request)
    (limit now later : Nat) (fetcher : Fetcher) :
    let fresh : Engine := { ofPage page config with matcher, functions }
    ((fresh.after history).fetchWithin limit later fetcher).1 = (fresh.fetchWithin limit now fetcher).1 := by
  intro fresh
  have new : ContinuesFrom fresh fresh := ⟨SelectorCache.sound_empty, rfl⟩
  have used : ContinuesFrom fresh (fresh.after history) := continuesFrom_after noRecord.settled history new
  calc ((fresh.after history).fetchWithin limit later fetcher).1
      = outcome (resolve (fresh.settingAt later) functions limit fetcher) :=
        used.fetchWithin_fst noRecord.settled limit later fetcher
    _ = outcome (resolve (fresh.settingAt now) functions limit fetcher) :=
        @outcome_resolve_moved now later (fresh.settingAt now) functions noRecord.settled
          (noRecord.steady now later) limit fetcher
    _ = (fresh.fetchWithin limit now fetcher).1 :=
        (new.fetchWithin_fst noRecord.settled limit now fetcher).symm

/-- The list is highlighted; then a fetch fails, but not at once; then it is highlighted again. -/
theorem fetchWithin_after_mirror :
    let fresh : Engine :=
      { ofPage mirrorPage .default with matcher := Predicate.matches, functions := .builtin }
    let highlight : Fetcher := ⟨.fetcher (.root true) (.query ⟨"ul", true, none⟩), .call ⟨"highlight", []⟩⟩
    let failing : Fetcher :=
      ⟨.array [.fetcher (.root true) (.query ⟨"li", true, none⟩), .root false], .query ⟨"ul", true, none⟩⟩
    let used := fresh.after [⟨1, 0, highlight⟩, ⟨1, 10, failing⟩]
    used.overlay.named = 1 ∧ used.selectors.entries.length = 2 ∧
      (used.fetchWithin 1 20 highlight).1 = (fresh.fetchWithin 1 0 highlight).1 := by
  intro fresh highlight failing used
  refine ⟨?_, ?_, ?_⟩
  · decide +kernel
  · decide +kernel
  · exact fetchWithin_after mirrorPage Predicate.matches .default Functions.keepsNoRecord_builtin
      [⟨1, 0, highlight⟩, ⟨1, 10, failing⟩] 1 0 20 highlight

end Engine

end PageQuery
