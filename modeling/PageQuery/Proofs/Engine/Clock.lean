/-
# Fetches come to the same at any moment

The clock is read for the deadlines of markers only. Queries run alike at any two moments, and the
functions at hand give the same, so contexts are anchored at the same places and a fetch comes to the
same. A function that is registered may read the clock; the fetches at two moments can differ only if it
gives something else at the one than at the other.

Key definitions: `TerminalFunction.Steady`, `Functions.Steady`.
Key theorems: `Functions.builtin_steady`, `Engine.outcome_resolve_moved`.
-/
import PageQuery.Proofs.Engine.Alike

namespace PageQuery

open Run

variable {now later : Nat}

/-- The function gives the same at both moments. -/
def TerminalFunction.Steady (f : TerminalFunction) (now later : Nat) : Prop :=
  ∀ (setting : Setting) input args,
    outcome (f (setting.moved later) input args) = outcome (f (setting.moved now) input args)

theorem Setting.alike_moved (setting : Setting) (now later : Nat) :
    (setting.moved later).Alike (setting.moved now) := ⟨rfl, rfl⟩

namespace Functions

/-- Every function gives the same at both moments. -/
def Steady (fs : Functions) (now later : Nat) : Prop := ∀ entry ∈ fs.entries, entry.2.Steady now later

/-- At one moment there is nothing to tell apart. -/
theorem steady_refl (fs : Functions) (now : Nat) : fs.Steady now now := fun _ _ _ _ _ => rfl

/-- **The functions at hand give the same at any two moments.** -/
theorem builtin_steady : builtin.Steady now later := fun entry listed setting input args =>
  (builtin_timeless entry listed setting now later input args).outcome_eq

theorem Steady.alike {fs : Functions} (h : fs.Steady now later) (setting : Setting) :
    fs.Alike (setting.moved later) (setting.moved now) := fun entry listed => h entry listed setting

end Functions

/-- **At two moments at which the functions give the same, a fetch comes to the same.** -/
theorem Engine.outcome_resolve_moved {setting : Setting} {functions : Functions}
    (settled : functions.Settled) (steady : functions.Steady now later) (limit : Nat) (fetcher : Fetcher) :
    outcome (resolve (setting.moved later) functions limit fetcher) =
      outcome (resolve (setting.moved now) functions limit fetcher) :=
  outcome_resolve_alike settled (setting.alike_moved now later) (steady.alike setting) rfl limit fetcher

end PageQuery
