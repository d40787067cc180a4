/-
# The parts of a literal

Each reader of the grammar spans what it reads, so an object is balanced between its braces if its
comments and regular expressions are. What is read does not depend on the fuel, if it exceeds the number
of characters read. A literal that is read has a value, unless a number in it is too large.

The readers of values, pairs and items call one another, and each result is shown for the three at once,
by induction on the fuel and through what each of them does with one unit of it (`value?_brace_iff`,
`value?_bracket_iff`, `pairs?_succ_iff`, `items?_succ_iff`).

Key definitions: `Literal.Shuts`, `Literal.Continues`, `Literal.IsObject`.
Key theorems: `Literal.spans_of_value`, `Literal.value?_of_fuel`, `Literal.IsObject.inner`,
`Literal.IsObject.blocks`, `Literal.invalidNumber_of_toJson`, `Predicate.parse_of_isObject`.
-/
import PageQuery.Proofs.Results
import PageQuery.Proofs.Selector.Asides
import PageQuery.Selector.Literal.Value

namespace PageQuery

open TokenState (closerOf?)

namespace Literal

/-! ### Numbers, keys, words -/

open NumberText in
theorem spans_of_scanFraction {cs rest : List Char} {digits : Option (List Char)}
    (h : scanFraction cs = (digits, rest)) : Spans cs rest := by
  unfold scanFraction at h
  split at h
  · next behind =>
    dsimp only at h
    split at h
    · cases h; exact .refl _
    · cases h; exact (Spans.plain (by decide) behind).trans (.dropWhile (by decide) behind)
  · cases h; exact .refl _

open NumberText in
theorem spans_of_scanPower {whole cs rest : List Char} {negative : Bool} {power : Option (Bool × List Char)}
    (h : scanPower whole negative cs = (power, rest)) (before : Spans whole cs) : Spans whole rest := by
  unfold scanPower at h
  dsimp only at h
  split at h
  · cases h; exact .refl _
  · cases h; exact before.trans (.dropWhile (by decide) cs)

open NumberText in
theorem spans_of_scanExponent {cs rest : List Char} {power : Option (Bool × List Char)}
    (h : scanExponent cs = (power, rest)) : Spans cs rest := by
  unfold scanExponent at h
  split at h
  · next c behind =>
    split at h
    · next letter =>
      have first : Spans (c :: behind) behind :=
        .plain (by rcases letter with rfl | rfl <;> decide) behind
      split at h
      · next more => exact spans_of_scanPower h (first.trans (.plain (by decide) more))
      · next more => exact spans_of_scanPower h (first.trans (.plain (by decide) more))
      · exact spans_of_scanPower h first
    · cases h; exact .refl _
  · cases h; exact .refl _

open NumberText in
theorem spans_of_scanWhole {cs rest digits : List Char} (h : scanWhole cs = some (digits, rest)) :
    Spans cs rest := by
  unfold scanWhole at h
  split at h
  · cases h; exact .plain (by decide) _
  · next c behind _ =>
    split at h
    · next digit =>
      cases h
      exact (Spans.plain (not_mem_marks (by decide) digit) behind).trans (.dropWhile (by decide) behind)
    · cases h
  · cases h

theorem spans_of_scan {cs rest : List Char} {parts : NumberText}
    (h : NumberText.scan? cs = some (parts, rest)) : Spans cs rest := by
  unfold NumberText.scan? at h
  split at h
  next negative digits sign =>
    have signed : Spans cs digits := by
      split at sign
      · cases sign; exact .plain (by decide) _
      · cases sign; exact .refl _
    dsimp only at h
    split at h
    · cases h
    · next whole behind start =>
      cases h
      exact signed.trans ((spans_of_scanWhole start).trans
        ((spans_of_scanFraction rfl).trans (spans_of_scanExponent rfl)))

theorem spans_of_spelledNumber {cs rest : List Char} {n : String × NumberText}
    (h : spelledNumber? cs = some (n, rest)) : Spans cs rest := by
  unfold spelledNumber? at h
  split at h
  · cases h
  · next parts behind scanned => cases h; exact spans_of_scan scanned

theorem spans_of_key {cs rest : List Char} {key : String} (h : key? cs = some (key, rest)) :
    Spans cs rest := by
  unfold key? at h
  split at h
  · cases h
  · next c behind =>
    split at h
    · next quote =>
      obtain ⟨⟨value, _⟩, read, same⟩ := Option.map_eq_some_iff.mp h
      cases same
      exact .quoted quote read
    · split at h
      · next start =>
        cases h
        exact (Spans.plain (not_mem_marks (by decide) start) behind).trans (.dropWhile (by decide) behind)
      · obtain ⟨⟨value, _⟩, read, same⟩ := Option.map_eq_some_iff.mp h
        cases same
        exact spans_of_spelledNumber read

theorem spans_of_word {cs rest : List Char} {v : Literal} (h : word? cs = some (v, rest)) :
    Spans cs rest := by
  have same : cs.dropWhile isNameChar = rest := by
    unfold word? at h
    grind
  exact same ▸ .dropWhile (by decide) cs

/-! ### Values -/

/-- Behind the last element of a list there may be a comma; then comes the closing bracket. -/
def Shuts (closer : Char) (after rest : List Char) : Prop :=
  skip after = closer :: rest ∨ ∃ more, skip after = ',' :: more ∧ skip more = closer :: rest

/-- Behind an element there is a comma and then, at `next`, no closing bracket. -/
def Continues (closer : Char) (after next : List Char) : Prop :=
  ∃ more, skip after = ',' :: more ∧ skip more = next ∧ ∀ rest, next ≠ closer :: rest

theorem Shuts.spans {closer : Char} {after rest : List Char} (h : Shuts closer after rest) :
    Spans after (closer :: rest) := by
  rcases h with shut | ⟨more, comma, shut⟩
  · exact shut ▸ .skipped after
  · exact (comma ▸ Spans.skipped after).trans ((Spans.plain (by decide) more).trans (shut ▸ .skipped more))

theorem Continues.spans {closer : Char} {after next : List Char} (h : Continues closer after next) :
    Spans after next := by
  obtain ⟨more, comma, rfl, -⟩ := h
  exact (comma ▸ Spans.skipped after).trans ((Spans.plain (by decide) more).trans (.skipped more))

theorem Continues.length_lt {closer : Char} {after next : List Char} (h : Continues closer after next) :
    next.length < after.length := by
  obtain ⟨more, comma, rfl, -⟩ := h
  have before := (skip_suffix after).length_le
  have behind := (skip_suffix more).length_le
  rw [comma, List.length_cons] at before
  omega

theorem Continues.settled {closer : Char} {after next : List Char} (h : Continues closer after next) :
    skip next = next := by
  obtain ⟨more, -, rfl, -⟩ := h
  exact skip_skip more

theorem pairs?_succ_iff {fuel : Nat} {cs rest : List Char} {pairs : List (String × Literal)} :
    pairs? (fuel + 1) cs = some (pairs, rest) ↔ ∃ key behind spelled v after,
      key? cs = some (key, behind) ∧ skip behind = ':' :: spelled ∧
      value? fuel (skip spelled) = some (v, after) ∧
      ((Shuts '}' after rest ∧ pairs = [(key, v)]) ∨ ∃ next tail, Continues '}' after next ∧
        pairs? fuel next = some (tail, rest) ∧ pairs = (key, v) :: tail) := by
  constructor
  · intro h
    unfold pairs? at h
    split at h
    · cases h
    · next key behind keyed =>
      split at h
      · next spelled colon =>
        split at h
        · cases h
        · next v after read =>
          refine ⟨key, behind, spelled, v, after, keyed, colon, read, ?_⟩
          split at h
          · next shut => cases h; exact .inl ⟨.inl shut, rfl⟩
          · next more comma =>
            split at h
            · next shut => cases h; exact .inl ⟨.inr ⟨more, comma, shut⟩, rfl⟩
            · next further =>
              obtain ⟨⟨tail, _⟩, again, same⟩ := Option.map_eq_some_iff.mp h
              cases same
              exact .inr ⟨_, tail, ⟨more, comma, rfl, further⟩, again, rfl⟩
          · cases h
      · cases h
  · rintro ⟨key, behind, spelled, v, after, keyed, colon, read, ⟨shut | ⟨more, comma, shut⟩, rfl⟩ |
      ⟨next, tail, ⟨more, comma, rfl, further⟩, again, rfl⟩⟩
    · simp [pairs?, keyed, colon, read, shut]
    · simp [pairs?, keyed, colon, read, comma, shut]
    · simp only [pairs?, keyed, colon, read, comma, again]
      rfl

theorem items?_succ_iff {fuel : Nat} {cs rest : List Char} {items : List Literal} :
    items? (fuel + 1) cs = some (items, rest) ↔ ∃ v after, value? fuel cs = some (v, after) ∧
      ((Shuts ']' after rest ∧ items = [v]) ∨ ∃ next tail, Continues ']' after next ∧
        items? fuel next = some (tail, rest) ∧ items = v :: tail) := by
  constructor
  · intro h
    unfold items? at h
    split at h
    · cases h
    · next v after read =>
      refine ⟨v, after, read, ?_⟩
      split at h
      · next shut => cases h; exact .inl ⟨.inl shut, rfl⟩
      · next more comma =>
        split at h
        · next shut => cases h; exact .inl ⟨.inr ⟨more, comma, shut⟩, rfl⟩
        · next further =>
          obtain ⟨⟨tail, _⟩, again, same⟩ := Option.map_eq_some_iff.mp h
          cases same
          exact .inr ⟨_, tail, ⟨more, comma, rfl, further⟩, again, rfl⟩
      · cases h
  · rintro ⟨v, after, read, ⟨shut | ⟨more, comma, shut⟩, rfl⟩ |
      ⟨next, tail, ⟨more, comma, rfl, further⟩, again, rfl⟩⟩
    · simp [items?, read, shut]
    · simp [items?, read, comma, shut]
    · simp only [items?, read, comma, again]
      rfl

theorem value?_brace_iff {fuel : Nat} {inner rest : List Char} {v : Literal} :
    value? (fuel + 1) ('{' :: inner) = some (v, rest) ↔
      (skip inner = '}' :: rest ∧ v = .object []) ∨ ∃ pairs, (∀ r, skip inner ≠ '}' :: r) ∧
        pairs? fuel (skip inner) = some (pairs, rest) ∧ v = .object pairs := by
  constructor
  · intro h
    rw [value?] at h
    split at h
    · next shut => cases h; exact .inl ⟨shut, rfl⟩
    · next further =>
      obtain ⟨⟨pairs, _⟩, read, same⟩ := Option.map_eq_some_iff.mp h
      cases same
      exact .inr ⟨pairs, further, read, rfl⟩
  · rintro (⟨shut, rfl⟩ | ⟨pairs, further, read, rfl⟩)
    · simp only [value?, shut]
    · simp only [value?, read]
      rfl

theorem value?_bracket_iff {fuel : Nat} {inner rest : List Char} {v : Literal} :
    value? (fuel + 1) ('[' :: inner) = some (v, rest) ↔
      (skip inner = ']' :: rest ∧ v = .array []) ∨ ∃ items, (∀ r, skip inner ≠ ']' :: r) ∧
        items? fuel (skip inner) = some (items, rest) ∧ v = .array items := by
  constructor
  · intro h
    rw [value?] at h
    split at h
    · next shut => cases h; exact .inl ⟨shut, rfl⟩
    · next further =>
      obtain ⟨⟨items, _⟩, read, same⟩ := Option.map_eq_some_iff.mp h
      cases same
      exact .inr ⟨items, further, read, rfl⟩
  · rintro (⟨shut, rfl⟩ | ⟨items, further, read, rfl⟩)
    · simp only [value?, shut]
    · simp only [value?, read]
      rfl

/-- A text that begins with no object and no array. -/
def Atomic (cs : List Char) : Prop := ∀ inner, cs ≠ '{' :: inner ∧ cs ≠ '[' :: inner

theorem opening_cases (cs : List Char) :
    (∃ inner, cs = '{' :: inner) ∨ (∃ inner, cs = '[' :: inner) ∨ Atomic cs := by
  grind [Atomic]

theorem value?_atomic {cs : List Char} (atomic : Atomic cs) (fuel k : Nat) :
    value? (fuel + 1) cs = value? (k + 1) cs := by
  unfold value?
  split
  · next inner => exact ((atomic inner).1 rfl).elim
  · next inner => exact ((atomic inner).2 rfl).elim
  · rfl
  · rfl
  · rfl

theorem spans_of_atomic {cs rest : List Char} {v : Literal} {fuel : Nat} (atomic : Atomic cs)
    (settled : skip cs = cs) (h : value? (fuel + 1) cs = some (v, rest)) : Spans cs rest := by
  unfold value? at h
  split at h
  · next inner => exact ((atomic inner).1 rfl).elim
  · next inner => exact ((atomic inner).2 rfl).elim
  · exact .regex settled h
  · next c behind _ _ _ =>
    split at h
    · next quote =>
      obtain ⟨⟨value, _⟩, read, same⟩ := Option.map_eq_some_iff.mp h
      cases same
      exact .quoted quote read
    · split at h
      · exact spans_of_word h
      · obtain ⟨⟨value, _⟩, read, same⟩ := Option.map_eq_some_iff.mp h
        cases same
        exact spans_of_spelledNumber read
  · cases h

mutual

theorem spans_of_value : ∀ {fuel : Nat} {cs rest : List Char} {v : Literal}, skip cs = cs →
    value? fuel cs = some (v, rest) → Spans cs rest
  | 0, _, _, _, _, h => by cases h
  | fuel + 1, cs, rest, v, settled, h => by
    rcases opening_cases cs with ⟨inner, rfl⟩ | ⟨inner, rfl⟩ | atomic
    · refine .bracketed (show closerOf? '{' = some '}' from rfl) ((Spans.skipped inner).trans ?_)
      rcases value?_brace_iff.mp h with ⟨shut, -⟩ | ⟨pairs, -, read, -⟩
      · exact shut ▸ .refl _
      · exact spans_of_pairs read
    · refine .bracketed (show closerOf? '[' = some ']' from rfl) ((Spans.skipped inner).trans ?_)
      rcases value?_bracket_iff.mp h with ⟨shut, -⟩ | ⟨items, -, read, -⟩
      · exact shut ▸ .refl _
      · exact spans_of_items (skip_skip inner) read
    · exact spans_of_atomic atomic settled h

theorem spans_of_pairs : ∀ {fuel : Nat} {cs rest : List Char} {pairs : List (String × Literal)},
    pairs? fuel cs = some (pairs, rest) → Spans cs ('}' :: rest)
  | 0, _, _, _, h => by cases h
  | fuel + 1, cs, rest, pairs, h => by
    obtain ⟨key, behind, spelled, v, after, keyed, colon, read, go⟩ := pairs?_succ_iff.mp h
    have named : Spans cs (':' :: spelled) := (spans_of_key keyed).trans (colon ▸ .skipped behind)
    have valued : Spans cs after := named.trans ((Spans.plain (by decide) spelled).trans
      ((Spans.skipped spelled).trans (spans_of_value (skip_skip spelled) read)))
    rcases go with ⟨shut, -⟩ | ⟨next, tail, on, again, -⟩
    · exact valued.trans shut.spans
    · exact valued.trans (on.spans.trans (spans_of_pairs again))

theorem spans_of_items : ∀ {fuel : Nat} {cs rest : List Char} {items : List Literal}, skip cs = cs →
    items? fuel cs = some (items, rest) → Spans cs (']' :: rest)
  | 0, _, _, _, _, h => by cases h
  | fuel + 1, cs, rest, items, settled, h => by
    obtain ⟨v, after, read, go⟩ := items?_succ_iff.mp h
    have valued := spans_of_value settled read
    rcases go with ⟨shut, -⟩ | ⟨next, tail, on, again, -⟩
    · exact valued.trans shut.spans
    · exact valued.trans (on.spans.trans (spans_of_items on.settled again))

end

/-! ### Fuel -/

mutual

/-- What is read with some fuel is read with any that exceeds the number of characters read. -/
theorem value?_of_fuel : ∀ {fuel k : Nat} {cs rest : List Char} {v : Literal}, skip cs = cs →
    value? fuel cs = some (v, rest) → cs.length < rest.length + k → value? k cs = some (v, rest)
  | 0, _, _, _, _, _, h, _ => by cases h
  | fuel + 1, 0, _, _, _, settled, h, enough =>
    absurd (spans_of_value settled h).length_le (by omega)
  | fuel + 1, k + 1, cs, rest, v, settled, h, enough => by
    rcases opening_cases cs with ⟨inner, rfl⟩ | ⟨inner, rfl⟩ | atomic
    · have shorter := (Spans.skipped inner).length_le
      rw [List.length_cons] at enough
      exact value?_brace_iff.mpr ((value?_brace_iff.mp h).imp_right fun ⟨pairs, further, read, same⟩ =>
        ⟨pairs, further, pairs?_of_fuel read (by omega), same⟩)
    · have shorter := (Spans.skipped inner).length_le
      rw [List.length_cons] at enough
      exact value?_bracket_iff.mpr ((value?_bracket_iff.mp h).imp_right fun ⟨items, further, read, same⟩ =>
        ⟨items, further, items?_of_fuel (skip_skip inner) read (by omega), same⟩)
    · exact value?_atomic atomic k fuel ▸ h

theorem pairs?_of_fuel : ∀ {fuel k : Nat} {cs rest : List Char} {pairs : List (String × Literal)},
    pairs? fuel cs = some (pairs, rest) → cs.length < rest.length + k → pairs? k cs = some (pairs, rest)
  | 0, _, _, _, _, h, _ => by cases h
  | fuel + 1, 0, _, _, _, h, enough =>
    absurd (spans_of_pairs h).length_le (by rw [List.length_cons]; omega)
  | fuel + 1, k + 1, cs, rest, pairs, h, enough => by
    obtain ⟨key, behind, spelled, v, after, keyed, colon, read, go⟩ := pairs?_succ_iff.mp h
    have named : Spans cs (':' :: spelled) := (spans_of_key keyed).trans (colon ▸ .skipped behind)
    have shorter : spelled.length + 1 ≤ cs.length := named.length_le
    have before := (Spans.skipped spelled).length_le
    refine pairs?_succ_iff.mpr ⟨key, behind, spelled, v, after, keyed, colon, ?_, ?_⟩
    · -- the value is shorter than the pairs by what stands around it
      have closes : rest.length + 1 ≤ after.length := by
        rcases go with ⟨shut, -⟩ | ⟨next, tail, on, again, -⟩
        · exact shut.spans.length_le
        · exact (on.spans.trans (spans_of_pairs again)).length_le
      exact value?_of_fuel (skip_skip spelled) read (by omega)
    · have value := (spans_of_value (skip_skip spelled) read).length_le
      refine go.imp_right fun ⟨next, tail, on, again, same⟩ => ⟨next, tail, on, ?_, same⟩
      have shorter := on.spans.length_le
      exact pairs?_of_fuel again (by omega)

theorem items?_of_fuel : ∀ {fuel k : Nat} {cs rest : List Char} {items : List Literal}, skip cs = cs →
    items? fuel cs = some (items, rest) → cs.length < rest.length + k → items? k cs = some (items, rest)
  | 0, _, _, _, _, _, h, _ => by cases h
  | fuel + 1, 0, _, _, _, settled, h, enough =>
    absurd (spans_of_items settled h).length_le (by rw [List.length_cons]; omega)
  | fuel + 1, k + 1, cs, rest, items, settled, h, enough => by
    obtain ⟨v, after, read, go⟩ := items?_succ_iff.mp h
    refine items?_succ_iff.mpr ⟨v, after, ?_, ?_⟩
    · have closes : rest.length + 1 ≤ after.length := by
        rcases go with ⟨shut, -⟩ | ⟨next, tail, on, again, -⟩
        · exact shut.spans.length_le
        · exact (on.spans.trans (spans_of_items on.settled again)).length_le
      exact value?_of_fuel settled read (by omega)
    · have value := (spans_of_value settled read).length_le
      refine go.imp_right fun ⟨next, tail, on, again, same⟩ => ⟨next, tail, on, ?_, same⟩
      have shorter := on.length_lt
      exact items?_of_fuel on.settled again (by omega)

end

/-! ### Objects -/

/-- A text that is one object of the grammar, from its opening brace to its closing one. -/
def IsObject (text : List Char) : Prop := ∃ fuel pairs, object? fuel text = some (pairs, [])

theorem object?_eq_some_iff {fuel : Nat} {cs rest : List Char} {pairs : List (String × Literal)} :
    object? fuel cs = some (pairs, rest) ↔ value? fuel cs = some (.object pairs, rest) := by
  unfold object?
  cases value? fuel cs with
  | none => simp
  | some read =>
    obtain ⟨v, behind⟩ := read
    cases v <;> simp

theorem ne_object_of_atomic {cs rest : List Char} {fuel : Nat} (atomic : Atomic cs)
    (pairs : List (String × Literal)) : value? fuel cs ≠ some (.object pairs, rest) := by
  intro h
  cases fuel with
  | zero => cases h
  | succ fuel =>
    unfold value? at h
    split at h
    · next inner => exact (atomic inner).1 rfl
    · next inner => exact (atomic inner).2 rfl
    · grind [regexRest]
    · split at h
      · obtain ⟨_, -, same⟩ := Option.map_eq_some_iff.mp h
        cases same
      · split at h
        · grind [word?]
        · obtain ⟨_, -, same⟩ := Option.map_eq_some_iff.mp h
          cases same
    · cases h

@[simp] theorem skip_brace (inner : List Char) : skip ('{' :: inner) = '{' :: inner :=
  skip_cons_of_not_slash (by decide) inner

theorem exists_inner_of_object {fuel : Nat} {cs rest : List Char} {pairs : List (String × Literal)}
    (h : value? fuel cs = some (.object pairs, rest)) :
    ∃ inner, cs = '{' :: inner ∧ Spans inner ('}' :: rest) := by
  cases fuel with
  | zero => cases h
  | succ fuel =>
    rcases opening_cases cs with ⟨inner, rfl⟩ | ⟨inner, rfl⟩ | atomic
    · refine ⟨inner, rfl, (Spans.skipped inner).trans ?_⟩
      rcases value?_brace_iff.mp h with ⟨shut, -⟩ | ⟨pairs, -, read, -⟩
      · exact shut ▸ .refl _
      · exact spans_of_pairs read
    · rcases value?_bracket_iff.mp h with ⟨-, same⟩ | ⟨_, -, -, same⟩ <;> cases same
    · exact absurd h (ne_object_of_atomic atomic pairs)

/-- Between its braces an object is balanced if its comments and regular expressions are. -/
theorem IsObject.inner {text : List Char} (h : IsObject text)
    (balanced : ∀ aside ∈ asides text, Balanced aside) :
    ∃ inner, text = '{' :: (inner ++ ['}']) ∧ Balanced inner := by
  obtain ⟨fuel, pairs, h⟩ := h
  obtain ⟨_, rfl, inner, found, rfl, same, all⟩ := exists_inner_of_object (object?_eq_some_iff.mp h)
  refine ⟨inner, rfl, all fun aside ha => balanced aside ?_⟩
  rw [asides, behindLexeme, if_neg (by decide), if_neg (by decide), if_neg (by decide), same]
  simp [ha]

/-- An object is read with any fuel that exceeds its length. -/
theorem IsObject.object? {text : List Char} (h : IsObject text) : ∃ pairs, ∀ fuel, text.length < fuel →
    object? fuel text = some (pairs, []) := by
  obtain ⟨fuel, pairs, h⟩ := h
  have read := object?_eq_some_iff.mp h
  obtain ⟨inner, rfl, -⟩ := exists_inner_of_object read
  exact ⟨pairs, fun k enough => object?_eq_some_iff.mpr
    (value?_of_fuel (skip_brace inner) read (by simpa using enough))⟩

theorem isObject_iff {text : List Char} :
    IsObject text ↔ (Literal.object? (text.length + 1) text).any (·.2.isEmpty) = true := by
  constructor
  · intro h
    obtain ⟨pairs, read⟩ := h.object?
    rw [read _ (Nat.lt_succ_self _)]
    rfl
  · intro h
    obtain ⟨⟨pairs, rest⟩, read, shut⟩ := (Option.any_eq_true _ _).mp h
    obtain rfl : rest = [] := List.isEmpty_iff.mp shut
    exact ⟨_, pairs, read⟩

instance (text : List Char) : Decidable (IsObject text) := decidable_of_iff' _ isObject_iff

/-- A text that is one object is read as that object alone. -/
theorem IsObject.blocks {text : List Char} (h : IsObject text) :
    ∃ pairs, blocks? text = some [pairs] := by
  obtain ⟨pairs, read⟩ := h.object?
  obtain ⟨_, _, h⟩ := h
  obtain ⟨inner, rfl, -⟩ := exists_inner_of_object (object?_eq_some_iff.mp h)
  refine ⟨pairs, ?_⟩
  rw [blocks?, skip_brace, blocksFrom?, read _ (by omega)]
  rfl

/-! ### Faults of values -/

mutual

/-- Once it is read, a literal has a value unless a number in it is too large. -/
theorem invalidNumber_of_toJson : ∀ {v : Literal} {fault : LiteralFault}, v.toJson = .error fault →
    ∃ number, fault = .invalidNumber number
  | .null, _, h => by cases h
  | .bool _, _, h => by cases h
  | .string _, _, h => by cases h
  | .regex .., _, h => by cases h
  | .number text parts, fault, h => by
    rw [toJson, numberOf] at h
    split at h
    · cases h
    · dsimp only at h
      split at h
      · cases h
      · cases h; exact ⟨text, rfl⟩
  | .array items, fault, h => by
    rw [toJson] at h
    exact invalidNumber_of_itemsToJson (map_error_iff.mp h)
  | .object pairs, fault, h => by
    rw [toJson] at h
    exact invalidNumber_of_pairsToJson (map_error_iff.mp h)

theorem invalidNumber_of_itemsToJson : ∀ {items : List Literal} {fault : LiteralFault},
    itemsToJson items = .error fault → ∃ number, fault = .invalidNumber number
  | [], _, h => by cases h
  | v :: rest, fault, h => by
    rw [itemsToJson] at h
    cases first : v.toJson with
    | error e => rw [first] at h; cases h; exact invalidNumber_of_toJson first
    | ok json =>
      rw [first] at h
      cases behind : itemsToJson rest with
      | error e => rw [behind] at h; cases h; exact invalidNumber_of_itemsToJson behind
      | ok jsons => rw [behind] at h; cases h

theorem invalidNumber_of_pairsToJson : ∀ {pairs : List (String × Literal)} {fault : LiteralFault},
    pairsToJson pairs = .error fault → ∃ number, fault = .invalidNumber number
  | [], _, h => by cases h
  | (key, v) :: rest, fault, h => by
    rw [pairsToJson] at h
    cases first : v.toJson with
    | error e => rw [first] at h; cases h; exact invalidNumber_of_toJson first
    | ok json =>
      rw [first] at h
      cases behind : pairsToJson rest with
      | error e => rw [behind] at h; cases h; exact invalidNumber_of_pairsToJson behind
      | ok jsons => rw [behind] at h; cases h

end

end Literal

/-- A block that the grammar accepts denotes a predicate, unless a number in it is too large. -/
theorem Predicate.parse_of_isObject {text : String} (block : Literal.IsObject text.toList) :
    (∃ predicate, Predicate.parse text = .ok predicate) ∨
      ∃ number, Predicate.parse text = .error (.invalidPredicate text (.invalidNumber number)) := by
  obtain ⟨pairs, blocks⟩ := block.blocks
  unfold Predicate.parse Predicate.parseChars
  rw [blocks]
  cases fields : Literal.pairsToJson pairs with
  | ok fields' => exact .inl ⟨Predicate.any.merge fields', by
    simp [Literal.predicateOf, fields, bind, Except.bind]⟩
  | error fault =>
    obtain ⟨number, rfl⟩ := Literal.invalidNumber_of_pairsToJson fields
    exact .inr ⟨number, by simp [Literal.predicateOf, fields, bind, Except.bind]⟩

end PageQuery
