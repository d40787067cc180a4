/-
# Balanced texts inside a token

A text is balanced when a walk over it from between two tokens comes back to where nothing is open. What
stood open before, and the token begun, make no difference to the walk, so a balanced text inside
brackets only makes the token longer, blanks and all.

Key definitions: `TokenState.run?`, `Balanced`.
Key theorems: `TokenState.run?_within`, `Balanced.append`, `Balanced.bracketed`, `tokensFrom_balanced`.
-/
import PageQuery.Proofs.Selector.Concatenation

namespace PageQuery

namespace TokenState

/-- The state behind a text whose blanks separate nothing. -/
def run? : TokenState → List Char → Option TokenState
  | s, [] => some s
  | s, c :: rest => (s.step? c).bind fun next => next.run? rest

/-- The same walk behind an earlier part of the token and inside outer brackets. -/
def within (s : TokenState) (token outer : List Char) : TokenState :=
  { s with token := s.token ++ token, closers := s.closers ++ outer }

theorem run?_append : ∀ (s : TokenState) (a b : List Char),
    s.run? (a ++ b) = (s.run? a).bind fun next => next.run? b
  | _, [], _ => rfl
  | s, c :: a, b => by
    rw [List.cons_append, run?, run?, Option.bind_assoc]
    exact congrArg _ (funext fun next => run?_append next a b)

/-- What is open around a walk takes no part in it. -/
theorem step?_within {s next : TokenState} {c : Char} (h : s.step? c = some next)
    (token outer : List Char) : (s.within token outer).step? c = some (next.within token outer) := by
  obtain ⟨begun, closers, quote, escaped⟩ := s
  cases escaped with
  | true => cases h; rfl
  | false =>
    simp only [step?, within, add, Bool.false_eq_true, if_false] at h ⊢
    cases quote with
    | some q => grind
    | none =>
      dsimp only at h ⊢
      cases opener : closerOf? c with
      | some closer => grind
      | none =>
        cases closers with
        | nil =>
          -- a closing bracket would have stopped the walk, so the outer ones are not looked at
          by_cases closes : isCloser c = true
          · have plain : c ≠ '"' ∧ c ≠ '\'' ∧ c ≠ '\\' := by grind
            simp [plain, opener, closes] at h
          · grind
        | cons closer inner => grind

theorem run?_within (token outer : List Char) : ∀ {text : List Char} {s last : TokenState},
    s.run? text = some last → (s.within token outer).run? text = some (last.within token outer)
  | [], _, _, h => by cases h; rfl
  | c :: text, s, last, h => by
    obtain ⟨next, step, h⟩ := Option.bind_eq_some_iff.mp h
    rw [run?, step?_within step, Option.bind_some, run?_within token outer h]

/-- A text that is not split is part of the token begun. -/
theorem tokensFrom_run {outer : List Char} (token rest : List Char) :
    ∀ {text : List Char} {s last : TokenState}, s.run? text = some last →
      (outer ≠ [] ∨ ∀ c ∈ text, isBlankChar c = false) →
      tokensFrom (s.within token outer) (text ++ rest) = tokensFrom (last.within token outer) rest
  | [], _, _, h, _ => by cases h; rfl
  | c :: text, s, last, h, whole => by
    obtain ⟨next, step, h⟩ := Option.bind_eq_some_iff.mp h
    have inside : ¬(s.within token outer).separates c = true := by
      rw [separates_iff]
      rintro ⟨-, -, shut, blank⟩
      rcases whole with some | solid
      · exact some (List.append_eq_nil_iff.mp shut).2
      · simp [solid c (by simp)] at blank
    rw [List.cons_append, tokensFrom, if_neg inside, step?_within step]
    exact tokensFrom_run token rest h (whole.imp_right fun solid d hd => solid d (by simp [hd]))

end TokenState

open TokenState

/-- A text behind which nothing is open that was not open before it. -/
def Balanced (text : List Char) : Prop :=
  TokenState.between.run? text = some ⟨text.reverse, [], none, false⟩
  deriving Decidable

namespace Balanced

theorem nil : Balanced [] := rfl

/-- A walk over a balanced text from where no quote and no escape is open. -/
theorem run {text : List Char} (h : Balanced text) (token closers : List Char) :
    TokenState.run? ⟨token, closers, none, false⟩ text =
      some ⟨text.reverse ++ token, closers, none, false⟩ :=
  run?_within token closers h

theorem append {a b : List Char} (ha : Balanced a) (hb : Balanced b) : Balanced (a ++ b) := by
  have behind := hb.run a.reverse []
  rw [Balanced, run?_append, ha, Option.bind_some, behind, List.reverse_append]

/-- A character that opens and closes nothing. -/
theorem singleton {c : Char} (quote : c ≠ '"' ∧ c ≠ '\'') (escape : c ≠ '\\')
    (opener : closerOf? c = none) (closer : isCloser c = false) : Balanced [c] := by
  simp [Balanced, run?, step?, between, add, quote, escape, opener, closer]

/-- Brackets of one kind around a balanced text. -/
theorem bracketed {opener closer : Char} {text : List Char} (pair : closerOf? opener = some closer)
    (h : Balanced text) : Balanced (opener :: (text ++ [closer])) := by
  have kinds : (opener = '(' ∧ closer = ')') ∨ (opener = '[' ∧ closer = ']') ∨
      (opener = '{' ∧ closer = '}') := by
    grind
  have opened : between.step? opener = some ⟨[opener], [closer], none, false⟩ := by
    rcases kinds with ⟨rfl, rfl⟩ | ⟨rfl, rfl⟩ | ⟨rfl, rfl⟩ <;> rfl
  have closed (token : List Char) : TokenState.step? ⟨token, [closer], none, false⟩ closer =
      some ⟨closer :: token, [], none, false⟩ := by
    rcases kinds with ⟨rfl, rfl⟩ | ⟨rfl, rfl⟩ | ⟨rfl, rfl⟩ <;> rfl
  rw [Balanced, run?, opened, Option.bind_some, run?_append, h.run, Option.bind_some, run?, closed]
  simp [run?]

end Balanced

/-- **A balanced text inside brackets only makes the token longer.** -/
theorem tokensFrom_balanced {text : List Char} (h : Balanced text) {token closers : List Char}
    (inside : closers ≠ [] ∨ ∀ c ∈ text, isBlankChar c = false) (rest : List Char) :
    tokensFrom ⟨token, closers, none, false⟩ (text ++ rest) =
      tokensFrom ⟨text.reverse ++ token, closers, none, false⟩ rest :=
  tokensFrom_run token rest h inside

end PageQuery
