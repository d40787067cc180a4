/-
# The parts of a JSON text

What each reader of JSON text does with one unit of its fuel, and from it that a text denotes at most one
value, whatever depth and fuel it is read with. A JSON value begins with no slash, so that no comment can
stand in front of it, and with no closing bracket.

Key definitions: `Json.Denotes`, `Json.atom?`.
Key theorems: `Json.read?_brace_iff`, `Json.readFields_succ_iff`, `Json.readItems_succ_iff`,
`Json.exists_of_read`, `Json.Denotes.unique`.
-/
import PageQuery.Proofs.Selector.Following
import Mathlib.Data.List.DropRight

namespace PageQuery

namespace Json

variable {depth fuel : Nat} {cs inner rest : List Char} {v : Json}

theorem skipBlanks_cons (c : Char) (cs : List Char) :
    skipBlanks (c :: cs) = if isBlank c then skipBlanks cs else c :: cs := List.dropWhile_cons

@[simp] theorem skipBlanks_skipBlanks (cs : List Char) : skipBlanks (skipBlanks cs) = skipBlanks cs :=
  List.dropWhile_idempotent _ cs

/-! ### The readers -/

theorem readFields_succ_iff {fields : List (String × Json)} :
    readFields depth (fuel + 1) cs = some (fields, rest) ↔ ∃ inner key behind spelled v after,
      skipBlanks cs = '"' :: inner ∧ stringRest inner = some (key, behind) ∧
      skipBlanks behind = ':' :: spelled ∧ read? depth fuel spelled = some (v, after) ∧
      ((skipBlanks after = '}' :: rest ∧ fields = [(String.ofList key, v)]) ∨ ∃ more tail,
        skipBlanks after = ',' :: more ∧ readFields depth fuel more = some (tail, rest) ∧
          fields = (String.ofList key, v) :: tail) := by
  constructor
  · intro h
    unfold readFields at h
    split at h
    · next inner quote =>
      split at h
      · cases h
      · next key behind named =>
        split at h
        · next spelled colon =>
          split at h
          · cases h
          · next v after read =>
            refine ⟨inner, key, behind, spelled, v, after, quote, named, colon, read, ?_⟩
            split at h
            · next shut => cases h; exact .inl ⟨shut, rfl⟩
            · next more comma =>
              obtain ⟨⟨tail, _⟩, again, same⟩ := Option.map_eq_some_iff.mp h
              cases same
              exact .inr ⟨more, tail, comma, again, rfl⟩
            · cases h
        · cases h
    · cases h
  · rintro ⟨inner, key, behind, spelled, v, after, quote, named, colon, read, ⟨shut, rfl⟩ |
      ⟨more, tail, comma, again, rfl⟩⟩
    · simp [readFields, quote, named, colon, read, shut]
    · simp [readFields, quote, named, colon, read, comma, again]

theorem readItems_succ_iff {items : List Json} :
    readItems depth (fuel + 1) cs = some (items, rest) ↔ ∃ v after,
      read? depth fuel cs = some (v, after) ∧ ((skipBlanks after = ']' :: rest ∧ items = [v]) ∨
        ∃ more tail, skipBlanks after = ',' :: more ∧ readItems depth fuel more = some (tail, rest) ∧
          items = v :: tail) := by
  constructor
  · intro h
    unfold readItems at h
    split at h
    · cases h
    · next v after read =>
      refine ⟨v, after, read, ?_⟩
      split at h
      · next shut => cases h; exact .inl ⟨shut, rfl⟩
      · next more comma =>
        obtain ⟨⟨tail, _⟩, again, same⟩ := Option.map_eq_some_iff.mp h
        cases same
        exact .inr ⟨more, tail, comma, again, rfl⟩
      · cases h
  · rintro ⟨v, after, read, ⟨shut, rfl⟩ | ⟨more, tail, comma, again, rfl⟩⟩
    · simp [readItems, read, shut]
    · simp [readItems, read, comma, again]

theorem read?_brace_iff (begins : skipBlanks cs = '{' :: inner) :
    read? depth (fuel + 1) cs = some (v, rest) ↔ depth ≠ 0 ∧
      ((skipBlanks inner = '}' :: rest ∧ v = .object []) ∨ ∃ fields, (∀ r, skipBlanks inner ≠ '}' :: r) ∧
        readFields (depth - 1) fuel (skipBlanks inner) = some (fields, rest) ∧ v = .object fields) := by
  by_cases none : depth = 0
  · simp [read?, begins, none]
  · simp only [read?, begins, if_neg none]
    constructor
    · intro h
      split at h
      · next shut => cases h; exact ⟨none, .inl ⟨shut, rfl⟩⟩
      · next further =>
        obtain ⟨⟨fields, _⟩, read, same⟩ := Option.map_eq_some_iff.mp h
        cases same
        exact ⟨none, .inr ⟨fields, further, read, rfl⟩⟩
    · rintro ⟨-, ⟨shut, rfl⟩ | ⟨fields, further, read, rfl⟩⟩
      · simp only [shut]
      · simp only [read]
        rfl

theorem read?_bracket_iff (begins : skipBlanks cs = '[' :: inner) :
    read? depth (fuel + 1) cs = some (v, rest) ↔ depth ≠ 0 ∧
      ((skipBlanks inner = ']' :: rest ∧ v = .array []) ∨ ∃ items, (∀ r, skipBlanks inner ≠ ']' :: r) ∧
        readItems (depth - 1) fuel (skipBlanks inner) = some (items, rest) ∧ v = .array items) := by
  by_cases none : depth = 0
  · simp [read?, begins, none]
  · simp only [read?, begins, if_neg none]
    constructor
    · intro h
      split at h
      · next shut => cases h; exact ⟨none, .inl ⟨shut, rfl⟩⟩
      · next further =>
        obtain ⟨⟨items, _⟩, read, same⟩ := Option.map_eq_some_iff.mp h
        cases same
        exact ⟨none, .inr ⟨items, further, read, rfl⟩⟩
    · rintro ⟨-, ⟨shut, rfl⟩ | ⟨items, further, read, rfl⟩⟩
      · simp only [shut]
      · simp only [read]
        rfl

theorem read?_of_fields {c : Char} {behind : List Char} {fields : List (String × Json)}
    (brace : skipBlanks cs = '{' :: inner) (deep : depth ≠ 0) (begins : skipBlanks inner = c :: behind)
    (further : c ≠ '}') (read : readFields (depth - 1) fuel (skipBlanks inner) = some (fields, rest)) :
    read? depth (fuel + 1) cs = some (.object fields, rest) :=
  (read?_brace_iff brace).mpr
    ⟨deep, .inr ⟨fields, fun _ shut => further (List.cons.inj (begins.symm.trans shut)).1, read, rfl⟩⟩

theorem read?_of_items {c : Char} {behind : List Char} {items : List Json}
    (bracket : skipBlanks cs = '[' :: inner) (deep : depth ≠ 0) (begins : skipBlanks inner = c :: behind)
    (further : c ≠ ']') (read : readItems (depth - 1) fuel (skipBlanks inner) = some (items, rest)) :
    read? depth (fuel + 1) cs = some (.array items, rest) :=
  (read?_bracket_iff bracket).mpr
    ⟨deep, .inr ⟨items, fun _ shut => further (List.cons.inj (begins.symm.trans shut)).1, read, rfl⟩⟩

/-! ### Strings, words, numbers -/

/-- The string, the word or the number at the beginning of a text. -/
def atom? : List Char → Option (Json × List Char)
  | '"' :: rest => (stringRest rest).map fun (s, rest) => (.string (String.ofList s), rest)
  | 'n' :: rest => (afterWord? ['u', 'l', 'l'] rest).map fun rest => (.null, rest)
  | 't' :: rest => (afterWord? ['r', 'u', 'e'] rest).map fun rest => (.bool true, rest)
  | 'f' :: rest => (afterWord? ['a', 'l', 's', 'e'] rest).map fun rest => (.bool false, rest)
  | cs =>
    match NumberText.scan? cs with
    | none => none
    | some (t, rest) => t.toNumber?.map fun n => (.number n, rest)

theorem atom?_of_number {c : Char} (first : c = '-' ∨ isDigit c = true) : atom? (c :: cs) =
    match NumberText.scan? (c :: cs) with
    | none => none
    | some (t, rest) => t.toNumber?.map fun n => (.number n, rest) := by
  unfold atom?
  split
  case h_5 => rfl
  all_goals
    next same =>
    rw [(List.cons.inj same).1] at first
    exact absurd first (by decide)

theorem read?_atomic (atomic : Literal.Atomic (skipBlanks cs)) (depth fuel : Nat) :
    read? depth (fuel + 1) cs = atom? (skipBlanks cs) := by
  rw [read?]
  generalize skipBlanks cs = text at *
  split
  · next inner => exact ((atomic inner).1 rfl).elim
  · next inner => exact ((atomic inner).2 rfl).elim
  · rfl
  · rfl
  · rfl
  · rfl
  · next quote null true false =>
    symm
    unfold atom?
    split
    · exact absurd rfl (quote _)
    · exact absurd rfl (null _)
    · exact absurd rfl (true _)
    · exact absurd rfl (false _)
    · rfl

theorem afterWord?_eq_some_iff : ∀ {word cs : List Char},
    afterWord? word cs = some rest ↔ cs = word ++ rest
  | [], cs => by simp [afterWord?]
  | w :: word, [] => by simp [afterWord?]
  | w :: word, c :: cs => by
    have behind : afterWord? word cs = some rest ↔ cs = word ++ rest := afterWord?_eq_some_iff
    by_cases same : w = c
    · simp [afterWord?, same, behind]
    · simp [afterWord?, same, Ne.symm same]

/-- A number begins with a digit or a sign. -/
theorem exists_of_scan {parts : NumberText} (h : NumberText.scan? cs = some (parts, rest)) :
    ∃ c more, cs = c :: more ∧ (c = '-' ∨ isDigit c = true) := by
  cases cs with
  | nil => cases h
  | cons c more =>
    refine ⟨c, more, rfl, or_iff_not_imp_left.mpr fun minus => ?_⟩
    rw [Literal.scan?_of_ne_minus minus, Literal.unsigned?] at h
    obtain ⟨_, whole, -⟩ := Option.map_eq_some_iff.mp h
    unfold NumberText.scanWhole at whole
    split at whole
    · next first => rw [(List.cons.inj first).1]; rfl
    · next first =>
      rw [(List.cons.inj first).1]
      split at whole
      · assumption
      · cases whole
    · cases whole

theorem toNumber?_eq_int {parts : NumberText} {i : Int} (h : parts.toNumber? = some (.int i)) :
    parts.isWhole = true ∧ parts.wholeValue = i := by
  rw [NumberText.toNumber?] at h
  split at h
  · next whole =>
    cases h
    exact ⟨whole.1, rfl⟩
  · obtain ⟨d, -, same⟩ := Option.map_eq_some_iff.mp h
    cases same

/-! ### The beginning of a text -/

/-- A value begins with no slash and no closing bracket. -/
theorem exists_of_read (h : read? depth fuel cs = some (v, rest)) :
    ∃ c more, skipBlanks cs = c :: more ∧ c ≠ '/' ∧ c ≠ ']' ∧ c ≠ '\\' := by
  cases fuel with
  | zero => cases h
  | succ fuel =>
    rw [read?] at h
    split at h
    case h_7 =>
      split at h
      · cases h
      · next scanned =>
        obtain ⟨c, more, begins, first⟩ := exists_of_scan scanned
        refine ⟨c, more, begins, ?_⟩
        refine ⟨?_, ?_, ?_⟩ <;> (rintro rfl; revert first; decide)
    all_goals exact ⟨_, _, ‹_›, by decide⟩

theorem exists_of_readItems {items : List Json} (h : readItems depth fuel cs = some (items, rest)) :
    ∃ c more, skipBlanks cs = c :: more ∧ c ≠ '/' ∧ c ≠ ']' ∧ c ≠ '\\' := by
  cases fuel with
  | zero => cases h
  | succ fuel =>
    obtain ⟨v, after, read, -⟩ := readItems_succ_iff.mp h
    exact exists_of_read read

theorem exists_of_readFields {fields : List (String × Json)}
    (h : readFields depth fuel cs = some (fields, rest)) : ∃ name, skipBlanks cs = '"' :: name := by
  cases fuel with
  | zero => cases h
  | succ fuel =>
    obtain ⟨inner, -, -, -, -, -, quote, -⟩ := readFields_succ_iff.mp h
    exact ⟨inner, quote⟩

theorem exists_brace_of_read {fields : List (String × Json)}
    (h : read? depth fuel cs = some (.object fields, rest)) : ∃ inner, skipBlanks cs = '{' :: inner := by
  cases fuel with
  | zero => cases h
  | succ fuel =>
    rcases Literal.opening_cases (skipBlanks cs) with brace | ⟨inner, bracket⟩ | atomic
    · exact brace
    · obtain ⟨-, ⟨-, same⟩ | ⟨_, -, -, same⟩⟩ := (read?_bracket_iff bracket).mp h <;> cases same
    · rw [read?_atomic atomic] at h
      unfold atom? at h
      split at h
      case h_5 =>
        split at h
        · cases h
        · obtain ⟨_, -, same⟩ := Option.map_eq_some_iff.mp h
          cases same
      all_goals
        obtain ⟨_, -, same⟩ := Option.map_eq_some_iff.mp h
        cases same

/-! ### What a text denotes -/

/-- The text is one JSON value with blanks around it, nested as deep as it may be. -/
def Denotes (text : List Char) (v : Json) : Prop :=
  ∃ depth fuel rest, read? depth fuel text = some (v, rest) ∧ skipBlanks rest = []

/-- What the reader takes is a JSON text. -/
theorem denotes_of_parse {text : String} (h : parse? text = some v) : Denotes text.toList v := by
  rw [parse?, parseChars?] at h
  split at h
  · cases h
  · next read =>
    split at h
    · next shut =>
      cases h
      exact ⟨_, _, _, read, List.isEmpty_iff.mp shut⟩
    · cases h

mutual

/-- What a text begins with does not depend on the depth and the fuel that it is read with. -/
theorem read?_unique : ∀ {depth depth' fuel fuel' : Nat} {cs : List Char} {r r' : Json × List Char},
    read? depth fuel cs = some r → read? depth' fuel' cs = some r' → r = r'
  | _, _, 0, _, _, _, _, h, _ => by cases h
  | _, _, _ + 1, 0, _, _, _, _, h' => by cases h'
  | depth, depth', fuel + 1, fuel' + 1, cs, (v, rest), (v', rest'), h, h' => by
    rcases Literal.opening_cases (skipBlanks cs) with ⟨inner, brace⟩ | ⟨inner, bracket⟩ | atomic
    · obtain ⟨-, ⟨shut, rfl⟩ | ⟨fields, further, read, rfl⟩⟩ := (read?_brace_iff brace).mp h <;>
        obtain ⟨-, ⟨shut', rfl⟩ | ⟨fields', further', read', rfl⟩⟩ := (read?_brace_iff brace).mp h'
      · rw [(List.cons.inj (shut.symm.trans shut')).2]
      · exact absurd shut (further' rest)
      · exact absurd shut' (further rest')
      · cases readFields_unique read read'
        rfl
    · obtain ⟨-, ⟨shut, rfl⟩ | ⟨items, further, read, rfl⟩⟩ := (read?_bracket_iff bracket).mp h <;>
        obtain ⟨-, ⟨shut', rfl⟩ | ⟨items', further', read', rfl⟩⟩ := (read?_bracket_iff bracket).mp h'
      · rw [(List.cons.inj (shut.symm.trans shut')).2]
      · exact absurd shut (further' rest)
      · exact absurd shut' (further rest')
      · cases readItems_unique read read'
        rfl
    · rw [read?_atomic atomic] at h h'
      exact Option.some.inj (h.symm.trans h')

theorem readFields_unique : ∀ {depth depth' fuel fuel' : Nat} {cs : List Char}
    {r r' : List (String × Json) × List Char},
    readFields depth fuel cs = some r → readFields depth' fuel' cs = some r' → r = r'
  | _, _, 0, _, _, _, _, h, _ => by cases h
  | _, _, _ + 1, 0, _, _, _, _, h' => by cases h'
  | depth, depth', fuel + 1, fuel' + 1, cs, (fields, rest), (fields', rest'), h, h' => by
    obtain ⟨inner, key, behind, spelled, v, after, quote, named, colon, read, go⟩ := readFields_succ_iff.mp h
    obtain ⟨_, _, _, _, _, _, quote', named', colon', read', go'⟩ := readFields_succ_iff.mp h'
    cases quote.symm.trans quote'
    cases named.symm.trans named'
    cases colon.symm.trans colon'
    cases read?_unique read read'
    rcases go with ⟨shut, rfl⟩ | ⟨more, tail, comma, again, rfl⟩ <;>
      rcases go' with ⟨shut', rfl⟩ | ⟨more', tail', comma', again', rfl⟩
    · cases shut.symm.trans shut'
      rfl
    · cases shut.symm.trans comma'
    · cases comma.symm.trans shut'
    · cases comma.symm.trans comma'
      cases readFields_unique again again'
      rfl

theorem readItems_unique : ∀ {depth depth' fuel fuel' : Nat} {cs : List Char} {r r' : List Json × List Char},
    readItems depth fuel cs = some r → readItems depth' fuel' cs = some r' → r = r'
  | _, _, 0, _, _, _, _, h, _ => by cases h
  | _, _, _ + 1, 0, _, _, _, _, h' => by cases h'
  | depth, depth', fuel + 1, fuel' + 1, cs, (items, rest), (items', rest'), h, h' => by
    obtain ⟨v, after, read, go⟩ := readItems_succ_iff.mp h
    obtain ⟨_, _, read', go'⟩ := readItems_succ_iff.mp h'
    cases read?_unique read read'
    rcases go with ⟨shut, rfl⟩ | ⟨more, tail, comma, again, rfl⟩ <;>
      rcases go' with ⟨shut', rfl⟩ | ⟨more', tail', comma', again', rfl⟩
    · cases shut.symm.trans shut'
      rfl
    · cases shut.symm.trans comma'
    · cases comma.symm.trans shut'
    · cases comma.symm.trans comma'
      cases readItems_unique again again'
      rfl

end

/-- A text denotes one value. -/
theorem Denotes.unique {w : Json} (h : Denotes cs v) (h' : Denotes cs w) : v = w := by
  obtain ⟨_, _, _, read, -⟩ := h
  obtain ⟨_, _, _, read', -⟩ := h'
  cases read?_unique read read'
  rfl

end Json

end PageQuery
