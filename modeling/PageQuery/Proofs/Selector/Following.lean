/-
# Objects behind one another

A text that reads as objects reads as the same objects with more text behind it, unless a comment or a
regular expression of it reaches into that: a line comment takes in all the rest of the line, and a
regular expression that begins with a star becomes a comment once there is an end of one. Whether a
comment or a regular expression does can be told aside by aside (`Literal.Spares`); in front of the end
of an object only the regular expressions matter (`Literal.Held`).

Each reader of the grammar is shown to read the same with more text behind, as long as no number and no
word goes on into it (`Literal.CutsOff`). For numbers it is shown of any change behind them that keeps
them as they are (`Literal.KeepsRuns`).

Key definitions: `Literal.KeepsRuns`, `Literal.Spares`, `Literal.Held`, `Literal.ReadsObjects`.
Key theorems: `Literal.scan?_keeps`, `Literal.skip_behind`, `Literal.value?_behind`,
`Literal.ReadsObjects.behind`, `Literal.blocks?_eq_some_iff`, `Literal.blocks?_append`.
-/
import PageQuery.Proofs.Selector.Literals

namespace PageQuery

namespace Literal

variable {cs rest m more : List Char}

/-! ### Runs of characters -/

section runs

variable {p : Char → Bool} (none : p '{' = false)

include none

theorem takeWhile_brace_behind : ∀ cs : List Char, (cs ++ '{' :: m).takeWhile p = cs.takeWhile p
  | [] => by simp [none]
  | c :: cs => by
    rw [List.cons_append, List.takeWhile_cons, List.takeWhile_cons, takeWhile_brace_behind cs]

theorem dropWhile_brace_behind : ∀ cs : List Char,
    (cs ++ '{' :: m).dropWhile p = cs.dropWhile p ++ '{' :: m
  | [] => by simp [none]
  | c :: cs => by
    rw [List.cons_append, List.dropWhile_cons, List.dropWhile_cons, dropWhile_brace_behind cs]
    split <;> rfl

end runs

/-- The characters of which numbers and words are made. -/
def isRunChar (c : Char) : Bool := isNameChar c || c = '.' || c = '+' || c = '-'

/-- A text that no number and no word before it goes on into. -/
def CutsOff (more : List Char) : Prop := ∀ c ∈ more.head?, isRunChar c = false

/-- A change of texts that keeps numbers and words: their characters stay in place, and where one ends
it still ends. -/
structure KeepsRuns (f : List Char → List Char) : Prop where
  cons : ∀ {c}, isRunChar c = true → ∀ rest, f (c :: rest) = c :: f rest
  stop : ∀ {cs}, CutsOff cs → CutsOff (f cs)

theorem keepsRuns_append (cut : CutsOff more) : KeepsRuns (· ++ more) where
  cons _ _ := rfl
  stop {cs} h := by
    cases cs with
    | nil => exact cut
    | cons c cs => exact h

/-- A text begins with such a character, or with none. -/
theorem run_cases (cs : List Char) : (∃ c rest, cs = c :: rest ∧ isRunChar c = true) ∨ CutsOff cs := by
  cases cs with
  | nil => exact .inr nofun
  | cons c rest =>
    by_cases run : isRunChar c = true
    · exact .inl ⟨c, rest, rfl, run⟩
    · exact .inr fun d first => by simpa [← Option.some.inj first] using run

theorem CutsOff.ne {c : Char} (h : CutsOff (c :: rest)) {d : Char} (run : isRunChar d = true) : c ≠ d := by
  rintro rfl
  exact absurd (h c rfl) (by simp [run])

section kept

variable {f : List Char → List Char} (keeps : KeepsRuns f)

include keeps

variable {p : Char → Bool} (run : ∀ c, p c = true → isRunChar c = true)

include run

theorem KeepsRuns.while : ∀ cs : List Char,
    (f cs).takeWhile p = cs.takeWhile p ∧ (f cs).dropWhile p = f (cs.dropWhile p) := by
  -- where a run ends, nothing is taken of the changed text either
  have stops {cs : List Char} (cut : CutsOff cs) : cs.takeWhile p = [] ∧ cs.dropWhile p = cs := by
    cases cs with
    | nil => exact ⟨rfl, rfl⟩
    | cons c rest =>
      have other : ¬p c = true := fun pc => by simpa [run c pc] using cut c rfl
      simp [other]
  intro cs
  induction cs with
  | nil =>
    have cut : CutsOff [] := nofun
    rw [(stops cut).1, (stops cut).2]
    exact stops (keeps.stop cut)
  | cons c rest ih =>
    by_cases here : isRunChar c = true
    · rw [keeps.cons here]
      by_cases pc : p c = true
      · simp [pc, ih]
      · simp [pc, keeps.cons here]
    · have cut : CutsOff (c :: rest) := fun d first => by simpa [← Option.some.inj first] using here
      rw [(stops cut).1, (stops cut).2]
      exact stops (keeps.stop cut)

end kept

/-! ### Numbers -/

theorem isRunChar_of_isNameChar {c : Char} (h : isNameChar c = true) : isRunChar c = true := by
  simp [isRunChar, h]

theorem isNameChar_of_isDigit {c : Char} (h : isDigit c = true) : isNameChar c = true := by
  simp [isNameChar, h]

theorem isRunChar_of_isDigit {c : Char} (h : isDigit c = true) : isRunChar c = true :=
  isRunChar_of_isNameChar (isNameChar_of_isDigit h)

open NumberText in
/-- The number behind its sign. -/
def unsigned? (negative : Bool) (cs : List Char) : Option (NumberText × List Char) :=
  (scanWhole cs).map fun (whole, rest) =>
    (⟨negative, whole, (scanFraction rest).1, (scanExponent (scanFraction rest).2).1⟩,
      (scanExponent (scanFraction rest).2).2)

@[simp] theorem scan?_minus (cs : List Char) : NumberText.scan? ('-' :: cs) = unsigned? true cs := by
  rw [NumberText.scan?, unsigned?]
  cases NumberText.scanWhole cs <;> rfl

theorem scan?_of_ne_minus {c : Char} (h : c ≠ '-') (cs : List Char) :
    NumberText.scan? (c :: cs) = unsigned? false (c :: cs) := by
  rw [unsigned?]
  unfold NumberText.scan?
  split
  next negative digits sign =>
  obtain ⟨rfl, rfl⟩ : false = negative ∧ c :: cs = digits := by
    split at sign
    · next first => exact absurd (List.cons.inj first).1 h
    · exact Prod.mk.inj sign
  cases NumberText.scanWhole (c :: cs) <;> rfl

open NumberText in
theorem scanExponent_unsigned {c : Char} (letter : c = 'e' ∨ c = 'E') (plus : ∀ more, rest ≠ '+' :: more)
    (minus : ∀ more, rest ≠ '-' :: more) : scanExponent (c :: rest) = scanPower (c :: rest) false rest := by
  simp only [scanExponent, if_pos letter]

open NumberText in
theorem CutsOff.scanFraction_eq (h : CutsOff cs) : scanFraction cs = (none, cs) := by
  cases cs with
  | nil => rfl
  | cons c rest => simp [scanFraction, h.ne (show isRunChar '.' = true from rfl)]

open NumberText in
theorem CutsOff.scanExponent_eq (h : CutsOff cs) : scanExponent cs = (none, cs) := by
  cases cs with
  | nil => rfl
  | cons c rest =>
    simp [scanExponent, h.ne (show isRunChar 'e' = true from rfl),
      h.ne (show isRunChar 'E' = true from rfl)]

open NumberText in
theorem CutsOff.scanWhole_eq (h : CutsOff cs) : scanWhole cs = none := by
  cases cs with
  | nil => rfl
  | cons c rest =>
    have digit : ¬isDigit c = true := fun digit => h.ne (isRunChar_of_isDigit digit) rfl
    simp [scanWhole, h.ne (show isRunChar '0' = true from rfl), digit]

open NumberText in
theorem CutsOff.scan?_eq (h : CutsOff cs) : scan? cs = none := by
  cases cs with
  | nil => rfl
  | cons c rest =>
    rw [scan?_of_ne_minus (h.ne (show isRunChar '-' = true from rfl)), unsigned?, h.scanWhole_eq]
    rfl

section kept

variable {f : List Char → List Char} (keeps : KeepsRuns f)

include keeps

open NumberText

theorem scanFraction_keeps (cs : List Char) :
    scanFraction (f cs) = ((scanFraction cs).1, f (scanFraction cs).2) := by
  rcases run_cases cs with ⟨c, rest, rfl, run⟩ | cut
  · rw [keeps.cons run]
    by_cases point : c = '.'
    · subst point
      obtain ⟨taken, left⟩ := keeps.while (fun _ => isRunChar_of_isDigit) rest
      simp only [scanFraction, taken, left]
      split
      · rw [keeps.cons run]
      · rfl
    · simp [scanFraction, point, keeps.cons run]
  · rw [cut.scanFraction_eq, (keeps.stop cut).scanFraction_eq]

theorem scanPower_keeps (whole : List Char) (negative : Bool) (cs : List Char) :
    scanPower (f whole) negative (f cs) =
      ((scanPower whole negative cs).1, f (scanPower whole negative cs).2) := by
  obtain ⟨taken, left⟩ := keeps.while (fun _ => isRunChar_of_isDigit) cs
  simp only [scanPower, taken, left]
  split <;> rfl

theorem scanExponent_keeps (cs : List Char) :
    scanExponent (f cs) = ((scanExponent cs).1, f (scanExponent cs).2) := by
  rcases run_cases cs with ⟨c, rest, rfl, run⟩ | cut
  · rw [keeps.cons run]
    by_cases letter : c = 'e' ∨ c = 'E'
    · have power := scanPower_keeps keeps (c :: rest)
      rw [keeps.cons run] at power
      rcases run_cases rest with ⟨d, more, rfl, digit⟩ | cut
      · rw [keeps.cons digit] at power ⊢
        by_cases plus : d = '+'
        · subst plus
          simpa [scanExponent, letter] using power false more
        · by_cases minus : d = '-'
          · subst minus
            simpa [scanExponent, letter] using power true more
          · rw [scanExponent_unsigned letter (by simp [plus]) (by simp [minus]),
              scanExponent_unsigned letter (by simp [plus]) (by simp [minus])]
            simpa [keeps.cons digit] using power false (d :: more)
      · have unsigned {rest} (cut : CutsOff rest) :
            scanExponent (c :: rest) = scanPower (c :: rest) false rest :=
          scanExponent_unsigned letter (fun _ same => (same ▸ cut).ne (d := '+') rfl rfl)
            fun _ same => (same ▸ cut).ne (d := '-') rfl rfl
        rw [unsigned cut, unsigned (keeps.stop cut)]
        exact power false rest
    · simp [scanExponent, letter, keeps.cons run]
  · rw [cut.scanExponent_eq, (keeps.stop cut).scanExponent_eq]

theorem scanWhole_keeps (cs : List Char) :
    scanWhole (f cs) = (scanWhole cs).map fun (digits, rest) => (digits, f rest) := by
  rcases run_cases cs with ⟨c, rest, rfl, run⟩ | cut
  · rw [keeps.cons run]
    by_cases zero : c = '0'
    · subst zero; rfl
    · obtain ⟨taken, left⟩ := keeps.while (fun _ => isRunChar_of_isDigit) rest
      simp only [scanWhole, taken, left]
      split <;> rfl
  · rw [cut.scanWhole_eq, (keeps.stop cut).scanWhole_eq]
    rfl

theorem unsigned?_keeps (negative : Bool) (cs : List Char) : unsigned? negative (f cs) =
    (unsigned? negative cs).map fun (parts, rest) => (parts, f rest) := by
  unfold unsigned?
  rw [scanWhole_keeps keeps]
  cases scanWhole cs with
  | none => rfl
  | some read =>
    dsimp only [Option.map_some]
    rw [scanFraction_keeps keeps, scanExponent_keeps keeps]

/-- **A number is read as before** when only what stands behind it changes. -/
theorem scan?_keeps (cs : List Char) :
    scan? (f cs) = (scan? cs).map fun (parts, rest) => (parts, f rest) := by
  rcases run_cases cs with ⟨c, rest, rfl, run⟩ | cut
  · by_cases minus : c = '-'
    · subst minus
      rw [keeps.cons run, scan?_minus, scan?_minus, unsigned?_keeps keeps]
    · have same := unsigned?_keeps keeps false (c :: rest)
      rw [keeps.cons run] at same ⊢
      rw [scan?_of_ne_minus minus, scan?_of_ne_minus minus, same]
  · rw [cut.scan?_eq, (keeps.stop cut).scan?_eq]
    rfl

end kept

/-- A number is spelled as before. -/
theorem spelledNumber?_behind (cut : CutsOff more) {n : String × NumberText}
    (h : spelledNumber? cs = some (n, rest)) : spelledNumber? (cs ++ more) = some (n, rest ++ more) := by
  have shorter := (spans_of_spelledNumber h).length_le
  have kept : NumberText.scan? (cs ++ more) = _ := scan?_keeps (keepsRuns_append cut) cs
  unfold spelledNumber? at h ⊢
  rw [kept]
  cases scanned : NumberText.scan? cs with
  | none => rw [scanned] at h; cases h
  | some read =>
    obtain ⟨parts, behind⟩ := read
    rw [scanned] at h
    cases h
    dsimp only [Option.map_some]
    rw [List.length_append, List.length_append, Nat.add_sub_add_right,
      List.take_append_of_le_length (Nat.sub_le ..)]

/-! ### Strings, regular expressions, words -/

/-- A string ends at the same quote whatever stands behind. -/
theorem quotedRest_append {q : Char} (more : List Char) {cs : List Char} :
    ∀ {value rest : List Char}, quotedRest q cs = some (value, rest) →
      quotedRest q (cs ++ more) = some (value, rest ++ more) := by
  fun_induction quotedRest q cs with
  | case1 => intro value rest h; cases h
  | case2 => intro value rest h; cases h
  | case3 a b c d behind unit digits ih =>
    intro value rest h
    obtain ⟨⟨inner, _⟩, h, same⟩ := Option.map_eq_some_iff.mp h
    cases same
    simp [quotedRest, digits, ih h, Json.consTo]
  | case4 => intro value rest h; cases h
  | case5 c behind short e escape ih =>
    intro value rest h
    obtain ⟨⟨inner, _⟩, h, same⟩ := Option.map_eq_some_iff.mp h
    cases same
    have letter : c ≠ 'u' := by rintro rfl; cases escape
    simp [quotedRest, letter, escape, ih h, Json.consTo]
  | case6 => intro value rest h; cases h
  | case7 behind =>
    intro value rest h
    cases h
    simp_all [quotedRest]
  | case8 c behind _ _ plain inner ih =>
    intro value rest h
    obtain ⟨⟨inner, _⟩, h, same⟩ := Option.map_eq_some_iff.mp h
    cases same
    simp_all [quotedRest, Json.consTo]

theorem regexBody_append_slash (more : List Char) {cs : List Char} :
    ∀ {body rest : List Char}, regexBody cs = (body, '/' :: rest) →
      regexBody (cs ++ more) = (body, '/' :: (rest ++ more)) := by
  fun_induction regexBody cs with
  | case1 c behind found rest' read ih =>
    intro body rest h
    cases h
    simp [regexBody, ih read]
  | case2 c behind _ stop =>
    intro body rest h
    cases h
    simp [regexBody]
  | case3 c behind escape go found rest' read ih =>
    intro body rest h
    cases h
    simp only [not_or] at go
    simp [regexBody, go, ih read]
  | case4 => exact nofun

theorem regexRest_behind (cut : CutsOff more) {v : Literal} (h : regexRest cs = some (v, rest)) :
    regexRest (cs ++ more) = some (v, rest ++ more) := by
  unfold regexRest at h ⊢
  split at h
  · cases h
  · next body behind some read =>
    cases h
    have flags (c : Char) (letter : isAsciiLetter c = true) : isRunChar c = true :=
      isRunChar_of_isNameChar (by simp [isNameChar, isNameStart, letter])
    obtain ⟨taken, left⟩ := (keepsRuns_append cut).while flags behind
    rw [regexBody_append_slash _ read]
    simp only [taken, left]
  · cases h

theorem word?_behind (cut : CutsOff more) {v : Literal} (h : word? cs = some (v, rest)) :
    word? (cs ++ more) = some (v, rest ++ more) := by
  obtain ⟨taken, left⟩ := (keepsRuns_append cut).while (fun _ => isRunChar_of_isNameChar) cs
  unfold word? at h ⊢
  rw [taken, left]
  dsimp only at h ⊢
  generalize cs.takeWhile isNameChar = word at *
  split at h <;> cases h <;> rfl

theorem key?_behind (cut : CutsOff more) {key : String} (h : key? cs = some (key, rest)) :
    key? (cs ++ more) = some (key, rest ++ more) := by
  match cs with
  | c :: cs =>
    rw [List.cons_append]
    unfold key? at h ⊢
    dsimp only at h ⊢
    split at h
    · next quote =>
      obtain ⟨⟨value, _⟩, read, same⟩ := Option.map_eq_some_iff.mp h
      cases same
      rw [if_pos quote, quotedRest_append _ read]
      rfl
    · next unquoted =>
      rw [if_neg unquoted]
      split at h
      · next start =>
        cases h
        obtain ⟨taken, left⟩ := (keepsRuns_append cut).while (fun _ => isRunChar_of_isNameChar) cs
        rw [if_pos start, taken, left]
      · next other =>
        obtain ⟨⟨value, _⟩, read, same⟩ := Option.map_eq_some_iff.mp h
        cases same
        have spelled := spelledNumber?_behind cut read
        rw [List.cons_append] at spelled
        rw [if_neg other, spelled]
        rfl

/-! ### Comments -/

/-- The comment or the regular expression is passed with the text behind it just as it is without. -/
def Spares (aside behind : List Char) : Prop := skip (aside ++ behind) = skip aside ++ behind
  deriving Decidable

/-- No comment and no regular expression of the text reaches into a text that a brace begins. -/
def Spared (cs m : List Char) : Prop := ∀ aside ∈ asides cs, Spares aside ('{' :: m)

theorem asides_subset_of_spans (spans : Spans cs rest) : asides rest ⊆ asides cs := by
  obtain ⟨read, found, -, all, -⟩ := spans
  exact all ▸ List.subset_append_right found _

theorem asides_cons {c : Char} (quote : ¬(c = '"' ∨ c = '\'')) (slash : c ≠ '/') (cs : List Char) :
    asides (c :: cs) = asides cs := by
  rw [asides, if_neg slash, behindLexeme, if_neg quote, if_neg slash, List.nil_append]

theorem Spared.of_spans (h : Spared cs m) (spans : Spans cs rest) : Spared rest m :=
  fun aside mem => h aside (asides_subset_of_spans spans mem)

theorem Spared.tail {c : Char} (h : Spared (c :: cs) m) (quote : ¬(c = '"' ∨ c = '\'')) (slash : c ≠ '/') :
    Spared cs m := by
  unfold Spared at h
  rwa [asides_cons quote slash] at h

/-- A slash at the beginning of a text is that of a regular expression. -/
def Stands (cs : List Char) : Prop := ∀ rest, cs = '/' :: rest → ∃ v behind, regexRest rest = some (v, behind)

theorem Stands.of_ne {c : Char} (h : c ≠ '/') (rest : List Char) : Stands (c :: rest) :=
  fun _ same => absurd (List.cons.inj same).1 h

theorem skipFrom_blockComment_cons {c : Char} (h : ∀ rest, c = '*' → cs ≠ '/' :: rest) (start : List Char) :
    skipFrom (.blockComment start) (c :: cs) = skipFrom (.blockComment start) cs := by
  rw [skipFrom]
  exact h

/-- The text has no end of a comment. -/
def Unclosed (cs : List Char) : Prop := ∀ start, skipFrom (.blockComment start) cs = start

/-- A comment has no end, or ends in the same place wherever it began and whatever stands behind. -/
theorem unclosed_or_ends : ∀ cs : List Char, Unclosed cs ∨ ∃ rest, rest <:+ cs ∧
    ∀ start more, skipFrom (.blockComment start) (cs ++ more) = skip (rest ++ more)
  | [] => .inl fun _ => rfl
  | [_] => .inl fun start => skipFrom_blockComment_cons (fun _ _ => (List.cons_ne_nil _ _).symm) start
  | c :: d :: cs => by
    by_cases ends : c = '*' ∧ d = '/'
    · obtain ⟨rfl, rfl⟩ := ends
      exact .inr ⟨cs, suffix_cons (suffix_cons List.suffix_rfl), fun _ _ => by rw [skip]; rfl⟩
    · have on (start more : List Char) : skipFrom (.blockComment start) (c :: (d :: cs ++ more)) =
          skipFrom (.blockComment start) (d :: cs ++ more) :=
        skipFrom_blockComment_cons (fun _ star slash => ends ⟨star, (List.cons.inj slash).1⟩) start
      rcases unclosed_or_ends (d :: cs) with unclosed | ⟨rest, behind, same⟩
      · refine .inl fun start => ?_
        have alone := on start []
        rw [List.append_nil] at alone
        exact alone.trans (unclosed start)
      · exact .inr ⟨rest, suffix_cons behind, fun start more => (on start more).trans (same start more)⟩

/-- A line comment takes in all that stands behind, or ends in the same place whatever it is. -/
theorem endless_or_ends : ∀ cs : List Char,
    (∀ more, skipFrom .lineComment (cs ++ more) = skipFrom .lineComment more) ∨
    ∃ rest, rest <:+ cs ∧ ∀ more, skipFrom .lineComment (cs ++ more) = skip (rest ++ more)
  | [] => .inl fun _ => rfl
  | c :: cs => by
    by_cases ends : c = '\n'
    · exact .inr ⟨cs, List.suffix_cons c cs, fun more => by rw [List.cons_append, skipFrom, if_pos ends]; rfl⟩
    · have on (more : List Char) : skipFrom .lineComment (c :: cs ++ more) =
          skipFrom .lineComment (cs ++ more) := by rw [List.cons_append, skipFrom, if_neg ends]
      rcases endless_or_ends cs with same | ⟨rest, behind, same⟩
      · exact .inl fun more => (on more).trans (same more)
      · exact .inr ⟨rest, suffix_cons behind, fun more => (on more).trans (same more)⟩

theorem unclosed_cons_iff {c : Char} : Unclosed (c :: cs) ↔
    (∀ rest, c = '*' → cs ≠ '/' :: rest) ∧ Unclosed cs := by
  constructor
  · intro h
    have goes : ∀ rest, c = '*' → cs ≠ '/' :: rest := by
      rintro rest rfl rfl
      have same := h ('/' :: rest)
      rw [skipFrom] at same
      exact absurd (same ▸ skip_suffix rest : ('/' :: rest) <:+ rest).length_le (Nat.not_succ_le_self _)
    exact ⟨goes, fun start => (skipFrom_blockComment_cons goes start).symm.trans (h start)⟩
  · rintro ⟨goes, h⟩ start
    exact (skipFrom_blockComment_cons goes start).trans (h start)

theorem Unclosed.of_append : ∀ {a b : List Char}, Unclosed (a ++ b) → Unclosed a
  | [], _, _ => fun _ => rfl
  | c :: a, b, h => by
    obtain ⟨goes, h⟩ := unclosed_cons_iff.mp h
    exact unclosed_cons_iff.mpr
      ⟨fun rest star slash => goes (rest ++ b) star (by rw [slash]; rfl), h.of_append⟩

/-- A text that ends no comment does not end one that ends behind it either. -/
theorem Unclosed.brace_behind : ∀ {cs : List Char}, Unclosed cs → ∀ start,
    skipFrom (.blockComment start) (cs ++ '{' :: m) = skipFrom (.blockComment start) m
  | [], _, start => skipFrom_blockComment_cons (fun _ star => absurd star (by decide)) start
  | c :: cs, h, start => by
    obtain ⟨goes, h⟩ := unclosed_cons_iff.mp h
    have on : ∀ rest, c = '*' → cs ++ '{' :: m ≠ '/' :: rest := by
      intro rest star slash
      cases cs with
      | nil => cases slash
      | cons d cs => exact goes cs star (by rw [(List.cons.inj slash).1])
    exact (skipFrom_blockComment_cons on start).trans (h.brace_behind start)

@[simp] theorem skip_star (cs : List Char) :
    skip ('/' :: '*' :: cs) = skipFrom (.blockComment ('/' :: '*' :: cs)) cs := by
  rw [skip, skipFrom]

@[simp] theorem skip_line (cs : List Char) : skip ('/' :: '/' :: cs) = skipFrom .lineComment cs := by
  rw [skip, skipFrom]

theorem skip_slash {d : Char} (star : d ≠ '*') (slash : d ≠ '/') (cs : List Char) :
    skip ('/' :: d :: cs) = '/' :: d :: cs := by
  rw [skip, skipFrom] <;> simp_all [isBlank]

theorem skip_star_iff : skip ('/' :: '*' :: cs) = '/' :: '*' :: cs ↔ Unclosed cs := by
  rw [skip_star]
  refine ⟨fun same => (unclosed_or_ends cs).resolve_right ?_, fun h => h _⟩
  rintro ⟨rest, behind, ends⟩
  have shut := ends ('/' :: '*' :: cs) []
  rw [List.append_nil, List.append_nil, same] at shut
  have shorter := (shut ▸ (skip_suffix rest).trans behind : ('/' :: '*' :: cs) <:+ cs).length_le
  simp only [List.length_cons] at shorter
  omega

/-- A walk that stops within a text goes on from there if there is more text. -/
theorem skip_append (more : List Char) : ∀ (cs : List Char), skip cs ≠ [] →
    skip (cs ++ more) = skip (skip cs ++ more)
  | [], stops => absurd rfl stops
  | c :: cs, stops => by
    by_cases slash : c = '/'
    · subst slash
      cases cs with
      | nil => rfl
      | cons d cs =>
        -- behind a comment that ends, the walk goes on from a rest of it
        have resume {rest : List Char} (behind : rest <:+ cs)
            (ends : ∀ more, skip ('/' :: d :: (cs ++ more)) = skip (rest ++ more)) :
            skip ('/' :: d :: (cs ++ more)) = skip (skip ('/' :: d :: cs) ++ more) := by
          have alone := ends []
          rw [List.append_nil, List.append_nil] at alone
          have shorter := behind.length_le
          rw [alone] at stops ⊢
          rw [ends, skip_append more rest stops]
        by_cases star : d = '*'
        · subst star
          rcases unclosed_or_ends cs with unclosed | ⟨rest, behind, ends⟩
          · rw [skip_star_iff.mpr unclosed]
          · exact resume behind fun more => (skip_star _).trans (ends _ more)
        · by_cases line : d = '/'
          · subst line
            rcases endless_or_ends cs with endless | ⟨rest, behind, ends⟩
            · have none := endless []
              rw [List.append_nil, ← skip_line] at none
              exact absurd none stops
            · exact resume behind fun more => (skip_line _).trans (ends more)
          · rw [skip_slash star line]
    · rw [List.cons_append, skip_cons_of_not_slash slash]
      rw [skip_cons_of_not_slash slash] at stops ⊢
      split
      · next blank =>
        rw [if_pos blank] at stops
        exact skip_append more cs stops
      · next solid => rw [List.cons_append, skip_cons_of_not_slash slash, if_neg solid]
  termination_by cs => cs.length
  decreasing_by all_goals subst_vars; simp only [List.length_cons]; omega

theorem skip_brace_of_nil : ∀ {cs : List Char}, skip cs = [] → Spared cs m → skip (cs ++ '{' :: m) = '{' :: m
  | [], _, _ => skip_brace m
  | c :: cs, all, spared => by
    by_cases slash : c = '/'
    · subst slash
      -- all of the text is one run of comments
      have one : behindLexeme '/' cs = [] := by
        rw [behindLexeme, if_neg (by decide), if_pos rfl,
          if_neg (by rw [all]; exact (List.cons_ne_nil _ _).symm), all]
      have aside : '/' :: cs ∈ asides ('/' :: cs) := by
        rw [asides, one, if_pos rfl, readTo]
        simp
      have spares := spared _ aside
      rwa [Spares, all] at spares
    · rw [skip_cons_of_not_slash slash] at all
      rw [List.cons_append, skip_cons_of_not_slash slash]
      split at all
      · next blank =>
        have quote : ¬(c = '"' ∨ c = '\'') := by
          rintro (rfl | rfl) <;> exact absurd blank (by decide)
        rw [if_pos blank, skip_brace_of_nil all (spared.tail quote slash)]
      · cases all

theorem regexRest_length {cs rest : List Char} {v : Literal} (h : regexRest cs = some (v, rest)) :
    rest.length + 2 ≤ cs.length := by
  have parts := congrArg List.length (regexBody_append cs)
  unfold regexRest at h
  split at h
  · cases h
  · next body behind apart read =>
    cases h
    have shorter := (List.dropWhile_suffix isAsciiLetter (l := behind)).length_le
    have long : 0 < body.length := List.length_pos_iff.mpr apart
    rw [read] at parts
    simp only [List.length_append, List.length_cons] at parts
    omega
  · cases h

/-- If a regular expression of the text begins with a star, no comment ends in what stands behind. -/
def Held (cs more : List Char) : Prop := (∃ body, '/' :: '*' :: body ∈ asides cs ∧ Unclosed body) →
  ∀ tail, tail <:+ cs → Unclosed tail → Unclosed (tail ++ more)

theorem Held.of_spans (h : Held cs more) (spans : Spans cs rest) : Held rest more := by
  obtain ⟨read, -, rfl, -⟩ := id spans
  rintro ⟨body, mem, star⟩ tail behind
  exact h ⟨body, asides_subset_of_spans spans mem, star⟩ tail (behind.trans (List.suffix_append ..))

theorem Held.tail {c : Char} (h : Held (c :: cs) more) (quote : ¬(c = '"' ∨ c = '\'')) (slash : c ≠ '/') :
    Held cs more := by
  rintro ⟨body, mem, star⟩ tail behind
  exact h ⟨body, by rwa [asides_cons quote slash], star⟩ tail (suffix_cons behind)

theorem Held.behind_mark {c : Char} {after rest : List Char} (held : Held after more)
    (h : skip after = c :: rest) (quote : ¬(c = '"' ∨ c = '\'')) (slash : c ≠ '/') : Held rest more := by
  have on : Spans after (c :: rest) := h ▸ .skipped after
  exact (held.of_spans on).tail quote slash

theorem Spared.held (h : Spared cs m) : Held cs ('{' :: m) := by
  rintro ⟨body, mem, star⟩ tail - unclosed
  have spares := h _ mem
  rw [Spares, skip_star_iff.mpr star] at spares
  -- the expression ends no comment, so nothing in the text behind the brace does
  have free : Unclosed m := fun start =>
    (star.brace_behind start).symm.trans (skip_star_iff.mp spares start)
  exact fun start => (unclosed.brace_behind start).trans (free start)

/-- A regular expression that begins with a star is no comment with more text behind either. -/
theorem skip_star_behind {v : Literal} (settled : skip ('/' :: '*' :: cs) = '/' :: '*' :: cs)
    (held : Held ('/' :: '*' :: cs) more) (regex : regexRest ('*' :: cs) = some (v, rest)) :
    skip ('/' :: '*' :: (cs ++ more)) = '/' :: '*' :: (cs ++ more) := by
  have behind := regexRest_suffix regex
  have shorter := regexRest_length regex
  have inner : rest <:+ cs := (List.suffix_cons_iff.mp behind).resolve_left fun same => by
    rw [same, List.length_cons] at shorter
    omega
  have one : behindLexeme '/' ('*' :: cs) = rest := by
    rw [behindLexeme, if_neg (by decide), if_pos rfl, if_pos settled, regex]; rfl
  have whole : readTo ('/' :: '*' :: cs) rest ++ rest = '/' :: '*' :: readTo cs rest ++ rest := by
    rw [readTo_append (suffix_cons behind), List.cons_append, List.cons_append, readTo_append inner]
  have split := List.append_cancel_right whole
  have aside : '/' :: '*' :: readTo cs rest ∈ asides ('/' :: '*' :: cs) := by
    rw [asides, if_pos rfl, one, split]
    exact List.mem_cons_self
  have unclosed := skip_star_iff.mp settled
  have part : Unclosed (readTo cs rest) := .of_append (b := rest) (by rwa [readTo_append inner])
  exact skip_star_iff.mpr (held ⟨_, aside, part⟩ cs (suffix_cons (List.suffix_cons '*' cs)) unclosed)

theorem skip_regex_behind (settled : skip ('/' :: cs) = '/' :: cs) (held : Held ('/' :: cs) more)
    (stands : Stands ('/' :: cs)) : skip ('/' :: cs ++ more) = '/' :: cs ++ more := by
  obtain ⟨v, rest, regex⟩ := stands cs rfl
  cases cs with
  | nil => cases regex
  | cons d cs =>
    by_cases star : d = '*'
    · subst star
      exact skip_star_behind settled held regex
    · by_cases line : d = '/'
      · subst line
        rw [skip_line] at settled
        have back := (((skipFrom_rest .lineComment cs).resolve_right nofun).1).length_le
        rw [settled] at back
        simp only [List.length_cons] at back
        omega
      · exact skip_slash star line _

/-- **What stands behind a text is not skipped** where skipping stops within the text. -/
theorem skip_behind (held : Held cs more) (stands : Stands (skip cs)) (stops : skip cs ≠ []) :
    skip (cs ++ more) = skip cs ++ more := by
  rw [skip_append _ cs stops]
  have settled := skip_skip cs
  have held := held.of_spans (.skipped cs)
  generalize skip cs = text at *
  match text with
  | c :: rest =>
    by_cases slash : c = '/'
    · subst slash
      exact skip_regex_behind settled held stands
    · rw [skip_cons_of_not_slash slash] at settled
      rw [List.cons_append, skip_cons_of_not_slash slash, if_neg]
      intro blank
      rw [if_pos blank] at settled
      have shorter := (settled ▸ skip_suffix rest : (c :: rest) <:+ rest).length_le
      exact absurd shorter (Nat.not_succ_le_self _)

theorem skip_behind_cons {c : Char} (held : Held cs more) (h : skip cs = c :: rest) (slash : c ≠ '/') :
    skip (cs ++ more) = c :: (rest ++ more) := by
  rw [skip_behind held (h ▸ .of_ne slash rest) (h ▸ List.cons_ne_nil c rest), h]
  rfl

/-! ### Values -/

theorem stands_of_key {key : String} (h : key? cs = some (key, rest)) : Stands cs ∧ cs ≠ [] := by
  refine ⟨?_, by rintro rfl; cases h⟩
  rintro behind rfl
  unfold key? at h
  simp [isNameStart, isAsciiLetter, spelledNumber?, scan?_of_ne_minus, unsigned?, NumberText.scanWhole,
    isDigit] at h

theorem stands_of_pairs {fuel : Nat} {pairs : List (String × Literal)}
    (h : pairs? fuel cs = some (pairs, rest)) : Stands cs ∧ cs ≠ [] := by
  cases fuel with
  | zero => cases h
  | succ fuel =>
    obtain ⟨key, behind, spelled, v, after, keyed, -⟩ := pairs?_succ_iff.mp h
    exact stands_of_key keyed

theorem stands_of_value {fuel : Nat} {v : Literal} (h : value? fuel cs = some (v, rest)) :
    Stands cs ∧ cs ≠ [] := by
  cases fuel with
  | zero => cases h
  | succ fuel => exact ⟨by rintro behind rfl; exact ⟨v, rest, h⟩, by rintro rfl; cases h⟩

theorem stands_of_items {fuel : Nat} {items : List Literal} (h : items? fuel cs = some (items, rest)) :
    Stands cs ∧ cs ≠ [] := by
  cases fuel with
  | zero => cases h
  | succ fuel =>
    obtain ⟨v, after, read, -⟩ := items?_succ_iff.mp h
    exact stands_of_value read

/-- A text does not begin with a closing bracket because of what stands behind it. -/
theorem ne_closer_behind {closer : Char} (some : cs ≠ []) (h : ∀ rest, cs ≠ closer :: rest) :
    ∀ rest, cs ++ more ≠ closer :: rest := by
  intro rest same
  cases cs with
  | nil => exact some rfl
  | cons c behind => exact h behind (by rw [(List.cons.inj same).1])

theorem Shuts.behind {closer : Char} {after : List Char} (h : Shuts closer after rest)
    (held : Held after more) (slash : closer ≠ '/') : Shuts closer (after ++ more) (rest ++ more) := by
  rcases h with shut | ⟨inner, comma, shut⟩
  · exact .inl (skip_behind_cons held shut slash)
  · have within : Held inner more := held.behind_mark comma (by decide) (by decide)
    exact .inr ⟨_, skip_behind_cons held comma (by decide), skip_behind_cons within shut slash⟩

theorem Continues.behind {closer : Char} {after next : List Char} (h : Continues closer after next)
    (held : Held after more) (stands : Stands next ∧ next ≠ []) :
    Continues closer (after ++ more) (next ++ more) := by
  obtain ⟨inner, comma, rfl, further⟩ := h
  have within : Held inner more := held.behind_mark comma (by decide) (by decide)
  exact ⟨_, skip_behind_cons held comma (by decide), skip_behind within stands.1 stands.2,
    ne_closer_behind stands.2 further⟩

theorem value?_atomic_behind (cut : CutsOff more) {fuel : Nat} {v : Literal} (atomic : Atomic cs)
    (h : value? (fuel + 1) cs = some (v, rest)) :
    value? (fuel + 1) (cs ++ more) = some (v, rest ++ more) := by
  match cs with
  | [] => cases h
  | c :: cs =>
    by_cases slash : c = '/'
    · subst slash
      exact regexRest_behind cut h
    have brace : c ≠ '{' := fun e => (atomic cs).1 (e ▸ rfl)
    have bracket : c ≠ '[' := fun e => (atomic cs).2 (e ▸ rfl)
    simp only [List.cons_append, value?] at h ⊢
    split at h
    · next quote =>
      obtain ⟨⟨value, _⟩, read, same⟩ := Option.map_eq_some_iff.mp h
      cases same
      rw [if_pos quote, quotedRest_append _ read]
      rfl
    · next unquoted =>
      rw [if_neg unquoted]
      split at h
      · next start =>
        rw [if_pos start]
        exact word?_behind cut h
      · next other =>
        obtain ⟨⟨value, _⟩, read, same⟩ := Option.map_eq_some_iff.mp h
        cases same
        have spelled := spelledNumber?_behind cut read
        rw [List.cons_append] at spelled
        rw [if_neg other, spelled]
        rfl

mutual

/-- **A value is read as before with more text behind.** -/
theorem value?_behind (cut : CutsOff more) : ∀ {fuel : Nat} {cs rest : List Char} {v : Literal}, Held cs more →
    value? fuel cs = some (v, rest) → value? fuel (cs ++ more) = some (v, rest ++ more)
  | 0, _, _, _, _, h => by cases h
  | fuel + 1, cs, rest, v, held, h => by
    rcases opening_cases cs with ⟨inner, rfl⟩ | ⟨inner, rfl⟩ | atomic
    · have within : Held inner more := held.tail (by decide) (by decide)
      refine value?_brace_iff.mpr ((value?_brace_iff.mp h).imp ?_ ?_)
      · exact fun ⟨shut, same⟩ => ⟨skip_behind_cons within shut (by decide), same⟩
      · rintro ⟨pairs, further, read, same⟩
        have stands := stands_of_pairs read
        refine ⟨pairs, ?_, ?_, same⟩ <;> rw [List.append_eq, skip_behind within stands.1 stands.2]
        · exact ne_closer_behind stands.2 further
        · exact pairs?_behind cut (within.of_spans (.skipped inner)) read
    · have within : Held inner more := held.tail (by decide) (by decide)
      refine value?_bracket_iff.mpr ((value?_bracket_iff.mp h).imp ?_ ?_)
      · exact fun ⟨shut, same⟩ => ⟨skip_behind_cons within shut (by decide), same⟩
      · rintro ⟨items, further, read, same⟩
        have stands := stands_of_items read
        refine ⟨items, ?_, ?_, same⟩ <;> rw [List.append_eq, skip_behind within stands.1 stands.2]
        · exact ne_closer_behind stands.2 further
        · exact items?_behind cut (skip_skip inner) (within.of_spans (.skipped inner)) read
    · exact value?_atomic_behind cut atomic h

theorem pairs?_behind (cut : CutsOff more) : ∀ {fuel : Nat} {cs rest : List Char}
    {pairs : List (String × Literal)}, Held cs more → pairs? fuel cs = some (pairs, rest) →
      pairs? fuel (cs ++ more) = some (pairs, rest ++ more)
  | 0, _, _, _, _, h => by cases h
  | fuel + 1, cs, rest, pairs, held, h => by
    obtain ⟨key, behind, spelled, v, after, keyed, colon, read, go⟩ := pairs?_succ_iff.mp h
    have behindKey := held.of_spans (spans_of_key keyed)
    have behindColon : Held spelled more := behindKey.behind_mark colon (by decide) (by decide)
    have value := behindColon.of_spans (.skipped spelled)
    have behindValue := value.of_spans (spans_of_value (skip_skip spelled) read)
    have stands := stands_of_value read
    refine pairs?_succ_iff.mpr ⟨key, _, _, v, after ++ more, key?_behind cut keyed,
      skip_behind_cons behindKey colon (by decide), ?_, go.imp ?_ ?_⟩
    · rw [skip_behind behindColon stands.1 stands.2]
      exact value?_behind cut value read
    · exact fun ⟨shut, same⟩ => ⟨shut.behind behindValue (by decide), same⟩
    · rintro ⟨next, tail, on, again, same⟩
      exact ⟨_, tail, on.behind behindValue (stands_of_pairs again),
        pairs?_behind cut (behindValue.of_spans on.spans) again, same⟩

theorem items?_behind (cut : CutsOff more) : ∀ {fuel : Nat} {cs rest : List Char}
    {items : List Literal}, skip cs = cs → Held cs more → items? fuel cs = some (items, rest) →
      items? fuel (cs ++ more) = some (items, rest ++ more)
  | 0, _, _, _, _, _, h => by cases h
  | fuel + 1, cs, rest, items, settled, held, h => by
    obtain ⟨v, after, read, go⟩ := items?_succ_iff.mp h
    have behindValue := held.of_spans (spans_of_value settled read)
    refine items?_succ_iff.mpr ⟨v, after ++ more, value?_behind cut held read, go.imp ?_ ?_⟩
    · exact fun ⟨shut, same⟩ => ⟨shut.behind behindValue (by decide), same⟩
    · rintro ⟨next, tail, on, again, same⟩
      exact ⟨_, tail, on.behind behindValue (stands_of_items again),
        items?_behind cut on.settled (behindValue.of_spans on.spans) again, same⟩

end

/-! ### Objects behind one another -/

/-- Behind an object there is another, perhaps after a comma; `inner` is the text behind its brace. -/
def Follows (after inner : List Char) : Prop :=
  skip after = '{' :: inner ∨ ∃ more, skip after = ',' :: more ∧ skip more = '{' :: inner

theorem Follows.spans {after inner : List Char} (h : Follows after inner) : Spans after ('{' :: inner) := by
  rcases h with next | ⟨more, comma, next⟩
  · exact next ▸ .skipped after
  · exact (comma ▸ Spans.skipped after).trans ((Spans.plain (by decide) more).trans (next ▸ .skipped more))

theorem Follows.behind {after inner : List Char} (h : Follows after inner) (held : Held after more) :
    Follows (after ++ more) (inner ++ more) := by
  rcases h with next | ⟨rest, comma, next⟩
  · exact .inl (skip_behind_cons held next (by decide))
  · have within : Held rest more := held.behind_mark comma (by decide) (by decide)
    exact .inr ⟨_, skip_behind_cons held comma (by decide), skip_behind_cons within next (by decide)⟩

theorem exists_brace_of_object {fuel : Nat} {pairs : List (String × Literal)}
    (h : object? fuel cs = some (pairs, rest)) : ∃ inner, cs = '{' :: inner ∧ rest.length < inner.length := by
  obtain ⟨inner, split, spans⟩ := exists_inner_of_object (object?_eq_some_iff.mp h)
  exact ⟨inner, split, spans.length_le⟩

theorem exists_brace_of_blocksFrom {fuel : Nat} {blocks : List (List (String × Literal))}
    (h : blocksFrom? fuel cs = some blocks) : ∃ inner, cs = '{' :: inner := by
  cases fuel with
  | zero => cases h
  | succ fuel =>
    unfold blocksFrom? at h
    split at h
    · cases h
    · next read =>
      obtain ⟨inner, split, -⟩ := exists_brace_of_object read
      exact ⟨inner, split⟩

theorem blocksFrom?_succ_iff {fuel : Nat} {blocks : List (List (String × Literal))} :
    blocksFrom? (fuel + 1) cs = some blocks ↔ ∃ pairs after, object? fuel cs = some (pairs, after) ∧
      ((skip after = [] ∧ blocks = [pairs]) ∨ ∃ inner tail, Follows after inner ∧
        blocksFrom? fuel ('{' :: inner) = some tail ∧ blocks = pairs :: tail) := by
  constructor
  · intro h
    unfold blocksFrom? at h
    split at h
    · cases h
    · next pairs after read =>
      refine ⟨pairs, after, read, ?_⟩
      split at h
      · next shut => cases h; exact .inl ⟨shut, rfl⟩
      · next more comma =>
        obtain ⟨tail, again, same⟩ := Option.map_eq_some_iff.mp h
        obtain ⟨inner, next⟩ := exists_brace_of_blocksFrom again
        exact .inr ⟨inner, tail, .inr ⟨more, comma, next⟩, next ▸ again, same.symm⟩
      · obtain ⟨tail, again, same⟩ := Option.map_eq_some_iff.mp h
        obtain ⟨inner, next⟩ := exists_brace_of_blocksFrom again
        exact .inr ⟨inner, tail, .inl next, next ▸ again, same.symm⟩
  · rintro ⟨pairs, after, read, ⟨shut, rfl⟩ | ⟨inner, tail, next | ⟨more, comma, next⟩, again, rfl⟩⟩
    · simp [blocksFrom?, read, shut]
    · simp [blocksFrom?, read, next, again]
    · simp [blocksFrom?, read, comma, next, again]

/-- The text begins with these objects, and behind the last of them stands the rest. -/
inductive ReadsObjects : List Char → List (List (String × Literal)) → List Char → Prop
  | last {fuel : Nat} {cs rest : List Char} {pairs : List (String × Literal)} :
    object? fuel cs = some (pairs, rest) → ReadsObjects cs [pairs] rest
  | cons {fuel : Nat} {cs after inner rest : List Char} {pairs : List (String × Literal)}
    {blocks : List (List (String × Literal))} :
    object? fuel cs = some (pairs, after) → Follows after inner → ReadsObjects ('{' :: inner) blocks rest →
    ReadsObjects cs (pairs :: blocks) rest

theorem spans_of_object {fuel : Nat} {pairs : List (String × Literal)}
    (h : object? fuel cs = some (pairs, rest)) : Spans cs rest := by
  obtain ⟨inner, rfl, -⟩ := exists_brace_of_object h
  exact spans_of_value (skip_brace inner) (object?_eq_some_iff.mp h)

/-- An object is read with any fuel that exceeds the number of characters read. -/
theorem object?_of_fuel {fuel k : Nat} {pairs : List (String × Literal)}
    (h : object? fuel cs = some (pairs, rest)) (enough : cs.length < rest.length + k) :
    object? k cs = some (pairs, rest) := by
  obtain ⟨inner, rfl, -⟩ := exists_brace_of_object h
  exact object?_eq_some_iff.mpr (value?_of_fuel (skip_brace inner) (object?_eq_some_iff.mp h) enough)

namespace ReadsObjects

variable {blocks others : List (List (String × Literal))} {mid : List Char}

theorem spans (h : ReadsObjects cs blocks rest) : Spans cs rest := by
  induction h with
  | last read => exact spans_of_object read
  | cons read follows _ ih => exact (spans_of_object read).trans (follows.spans.trans ih)

theorem begins (h : ReadsObjects cs blocks rest) : ∃ inner, cs = '{' :: inner := by
  cases h with
  | last read | cons read =>
    obtain ⟨inner, split, -⟩ := exists_brace_of_object read
    exact ⟨inner, split⟩

theorem append {inner : List Char} (h : ReadsObjects cs blocks mid) (follows : Follows mid inner)
    (more : ReadsObjects ('{' :: inner) others rest) : ReadsObjects cs (blocks ++ others) rest := by
  induction h with
  | last read => exact .cons read follows more
  | cons read next _ ih => exact .cons read next (ih follows)

/-- **Objects are read as before with more text behind.** -/
theorem behind (cut : CutsOff more) (h : ReadsObjects cs blocks rest) (held : Held cs more) :
    ReadsObjects (cs ++ more) blocks (rest ++ more) := by
  have object {fuel : Nat} {cs rest : List Char} {pairs : List (String × Literal)}
      (read : object? fuel cs = some (pairs, rest)) (held : Held cs more) :
      object? fuel (cs ++ more) = some (pairs, rest ++ more) :=
    object?_eq_some_iff.mpr (value?_behind cut held (object?_eq_some_iff.mp read))
  induction h with
  | last read => exact .last (object read held)
  | cons read follows _ ih =>
    have after := held.of_spans (spans_of_object read)
    exact .cons (object read held) (follows.behind after) (ih (after.of_spans follows.spans))

/-- What the objects are does not depend on the fuel, if it exceeds the length by two. -/
theorem blocksFrom?_eq (h : ReadsObjects cs blocks rest) (shut : skip rest = []) :
    ∀ {k : Nat}, cs.length + 1 < k → blocksFrom? k cs = some blocks := by
  have object {k : Nat} {cs rest : List Char} {pairs : List (String × Literal)} {fuel : Nat}
      (read : object? fuel cs = some (pairs, rest)) (enough : cs.length + 1 < k + 1) :
      object? k cs = some (pairs, rest) := object?_of_fuel read (by omega)
  induction h with
  | last read =>
    rintro (_ | k) enough
    · exact absurd enough (Nat.not_lt_zero _)
    · exact blocksFrom?_succ_iff.mpr ⟨_, _, object read enough, .inl ⟨shut, rfl⟩⟩
  | cons read follows more ih =>
    rintro (_ | k) enough
    · exact absurd enough (Nat.not_lt_zero _)
    · have shorter := (spans_of_object read).length_le
      have nearer := follows.spans.length_le
      obtain ⟨inner, rfl, less⟩ := exists_brace_of_object read
      rw [List.length_cons] at enough
      exact blocksFrom?_succ_iff.mpr ⟨_, _, object read (by rw [List.length_cons]; omega),
        .inr ⟨_, _, follows, ih shut (by omega), rfl⟩⟩

theorem of_blocksFrom : ∀ {fuel : Nat} {cs : List Char} {blocks : List (List (String × Literal))},
    blocksFrom? fuel cs = some blocks → ∃ rest, ReadsObjects cs blocks rest ∧ skip rest = []
  | 0, _, _, h => by cases h
  | fuel + 1, cs, blocks, h => by
    obtain ⟨pairs, after, read, ⟨shut, rfl⟩ | ⟨inner, tail, follows, again, rfl⟩⟩ := blocksFrom?_succ_iff.mp h
    · exact ⟨after, .last read, shut⟩
    · obtain ⟨rest, more, shut⟩ := of_blocksFrom again
      exact ⟨rest, .cons read follows more, shut⟩

end ReadsObjects

/-- **A text reads as the objects that it begins with**, if only blanks and comments stand behind them. -/
theorem blocks?_eq_some_iff {blocks : List (List (String × Literal))} :
    blocks? cs = some blocks ↔ ∃ rest, ReadsObjects (skip cs) blocks rest ∧ skip rest = [] := by
  constructor
  · exact ReadsObjects.of_blocksFrom
  · rintro ⟨rest, objects, shut⟩
    have shorter := (skip_suffix cs).length_le
    exact objects.blocksFrom?_eq shut (by omega)

/-- **One more object behind a text that reads as objects is one more object read**, if no comment and no
regular expression of the text reaches into it. -/
theorem blocks?_append {blocks : List (List (String × Literal))} {pairs : List (String × Literal)}
    (h : blocks? cs = some blocks) (spared : Spared cs m)
    (block : ∀ k, m.length + 1 < k → object? k ('{' :: m) = some (pairs, [])) :
    blocks? (cs ++ '{' :: m) = some (blocks ++ [pairs]) := by
  obtain ⟨rest, objects, shut⟩ := blocks?_eq_some_iff.mp h
  have cut : CutsOff ('{' :: m) := by simp [CutsOff, isRunChar, isNameChar, isNameStart, isAsciiLetter, isDigit]
  have behind := objects.behind cut (spared.held.of_spans (.skipped cs))
  have after : Follows (rest ++ '{' :: m) m :=
    .inl (skip_brace_of_nil shut (spared.of_spans ((Spans.skipped cs).trans objects.spans)))
  obtain ⟨inner, begins⟩ := objects.begins
  refine blocks?_eq_some_iff.mpr ⟨[], ?_, rfl⟩
  rw [skip_behind_cons spared.held begins (by decide)]
  rw [begins] at behind
  exact behind.append after (.last (block _ (Nat.lt_succ_self _)))

end Literal

end PageQuery
