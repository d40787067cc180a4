/-
# JSON text as a property literal

The notation of property literals extends JSON: the text of a JSON value reads as a literal that has this
value again, if the numbers in it are whole and fit 64 bits. What stands behind the text makes no
difference, as long as a number or a word does not go on into it.

For the splitter the text is one group, with its quotes and brackets in order.

Key definitions: `Json.Integral`, `Literal.Reads`.
Key theorems: `Literal.quotedRest_escapedChars`, `Literal.spelledNumber?_intChars`, `Literal.reads_chars`,
`Literal.object?_chars`, `Json.grouped_chars`.
-/
import PageQuery.Proofs.Json.Canonical
import PageQuery.Proofs.Number.Decimal
import PageQuery.Proofs.Selector.BlockEnds
import PageQuery.Proofs.Selector.Following
import PageQuery.Proofs.Selector.Splitting
import Mathlib.Data.List.TakeWhile

namespace PageQuery

namespace Json

mutual

/-- The numbers in the value are whole and fit 64 bits with their sign. -/
def Integral : Json → Prop
  | .number n => n.int64?.isSome = true
  | .array items => AllIntegral items
  | .object fields => FieldsIntegral fields
  | _ => True

def AllIntegral : List Json → Prop
  | [] => True
  | v :: rest => Integral v ∧ AllIntegral rest

def FieldsIntegral : List (String × Json) → Prop
  | [] => True
  | (_, v) :: rest => Integral v ∧ FieldsIntegral rest

end

end Json

theorem Number.int64?_isSome_iff {n : Number} :
    n.int64?.isSome = true ↔ ∃ i, n = .int i ∧ minInt ≤ i ∧ i ≤ maxInt := by
  cases n with
  | int i => by_cases h : minInt ≤ i ∧ i ≤ maxInt <;> simp [int64?, h]
  | double d => simp [int64?]

namespace Literal

/-! ### Numbers and words -/

/-- A text that no number and no word before it goes on into. -/
def Apart (rest : List Char) : Prop := ∀ c ∈ rest.head?, isNameChar c = false ∧ c ≠ '.'

variable {rest : List Char}

theorem apart_cons {c : Char} (plain : isNameChar c = false ∧ c ≠ '.') (rest : List Char) :
    Apart (c :: rest) := fun _ first => Option.some.inj first ▸ plain

/-- A run of characters of one class with another character behind it. -/
theorem while_apart {p : Char → Bool} {word : List Char} (all : ∀ c ∈ word, p c = true)
    (stops : ∀ c ∈ rest.head?, p c = false) :
    (word ++ rest).takeWhile p = word ∧ (word ++ rest).dropWhile p = rest := by
  have none : rest.takeWhile p = [] ∧ rest.dropWhile p = rest := by
    cases rest with
    | nil => exact ⟨rfl, rfl⟩
    | cons c rest => simp [stops c rfl]
  rw [List.takeWhile_append_of_pos all, List.dropWhile_append_of_pos all, none.1, none.2]
  simp

open NumberText in
/-- The digits of a number are read to their end, and nothing behind them is. -/
theorem unsigned?_natChars (negative : Bool) (n : Nat) (apart : Apart rest) :
    unsigned? negative (natChars n ++ rest) = some (⟨negative, natChars n, none, none⟩, rest) := by
  have digits : ∀ c ∈ natChars n, isDigit c = true := fun c => isDigit_of_mem_natChars
  have stops : ∀ c ∈ rest.head?, isDigit c = false := fun c first =>
    Bool.eq_false_iff.mpr fun digit => by
      have other := (apart c first).1
      rw [isNameChar_of_isDigit digit] at other
      cases other
  have whole : scanWhole (natChars n ++ rest) = some (natChars n, rest) := by
    obtain ⟨c, ds, split, first⟩ := exists_natChars n
    rw [split] at digits ⊢
    have more := (List.forall_mem_cons.mp digits).2
    by_cases zero : c = '0'
    · subst zero
      rw [natChars_of_zero_cons split]
      rfl
    · have run := while_apart more stops
      simp only [List.cons_append, scanWhole, first, if_pos, run]
  have fraction : scanFraction rest = (none, rest) := by
    cases rest with
    | nil => rfl
    | cons c rest => simp [scanFraction, (apart c rfl).2]
  have exponent : scanExponent rest = (none, rest) := by
    cases rest with
    | nil => rfl
    | cons c rest =>
      have letter : ¬(c = 'e' ∨ c = 'E') := by
        rintro (rfl | rfl) <;> exact absurd (apart _ rfl).1 (by decide)
      simp [scanExponent, letter]
  simp only [unsigned?, whole, Option.map_some, fraction, exponent]

/-- The parts of a whole number as it is written. -/
def partsOf (n : Int) : NumberText := ⟨decide (n < 0), natChars n.natAbs, none, none⟩

theorem intChars_eq (n : Int) :
    intChars n = if n < 0 then '-' :: natChars n.natAbs else natChars n.natAbs := by
  cases n with
  | ofNat n => rfl
  | negSucc n => exact (if_pos (Int.negSucc_lt_zero n)).symm

theorem exists_intChars (n : Int) : ∃ c cs, intChars n = c :: cs ∧ (c = '-' ∨ isDigit c = true) := by
  obtain ⟨c, cs, same, digit⟩ := exists_natChars n.natAbs
  rw [intChars_eq]
  split
  · exact ⟨_, _, rfl, .inl rfl⟩
  · exact ⟨c, cs, same, .inr digit⟩

theorem spelledNumber?_intChars (n : Int) (apart : Apart rest) : spelledNumber? (intChars n ++ rest) =
    some ((String.ofList (intChars n), partsOf n), rest) := by
  have scanned : NumberText.scan? (intChars n ++ rest) = some (partsOf n, rest) := by
    obtain ⟨c, cs, split, digit⟩ := exists_natChars n.natAbs
    rw [intChars_eq]
    by_cases negative : n < 0
    · rw [if_pos negative, List.cons_append, scan?_minus, unsigned?_natChars _ _ apart]
      simp [partsOf, negative]
    · have first : c ≠ '-' := by
        rintro rfl
        exact absurd digit (by decide)
      have read := unsigned?_natChars false n.natAbs apart
      rw [if_neg negative, split, List.cons_append, scan?_of_ne_minus first, ← List.cons_append, ← split,
        read]
      simp [partsOf, negative]
  simp [spelledNumber?, scanned]

/-- A whole number that fits 64 bits is the number it is written as. -/
theorem numberOf_partsOf {n : Int} (range : Number.minInt ≤ n ∧ n ≤ Number.maxInt) (text : String) :
    numberOf text (partsOf n) = .ok (.number (.int n)) := by
  have value : (partsOf n).wholeValue = n := by
    unfold partsOf NumberText.wholeValue
    dsimp only
    rw [digitsValue_natChars]
    by_cases negative : n < 0
    · rw [if_pos (decide_eq_true negative)]
      omega
    · rw [if_neg (by simpa using negative)]
      omega
  rw [numberOf, value]
  exact if_pos ⟨rfl, range⟩

theorem isNameStart_of_isDigit {c : Char} (h : isDigit c = true) : isNameStart c = false := by
  simp only [isDigit, decide_eq_true_eq, Char.le_def, UInt32.le_iff_toNat_le, Char.toNat_val, Char.reduceVal,
    UInt32.reduceToNat] at h
  have other : c ≠ '_' ∧ c ≠ '$' := by constructor <;> (rintro rfl; revert h; decide)
  simp [isNameStart, isAsciiLetter, other, Char.le_def, UInt32.le_iff_toNat_le]
  omega

/-- What begins with a digit or a sign is a number. -/
theorem value?_number {c : Char} {cs : List Char} {n : String × NumberText} (first : c = '-' ∨ isDigit c = true)
    (spelled : spelledNumber? (c :: cs) = some (n, rest)) (k : Nat) :
    value? (k + 1) (c :: cs) = some (.number n.1 n.2, rest) := by
  have mark : c ∉ marks := by
    rcases first with rfl | digit
    · decide
    · exact not_mem_marks (by decide) digit
  have start : isNameStart c = false := by
    rcases first with rfl | digit
    · decide
    · exact isNameStart_of_isDigit digit
  simp only [marks, List.mem_cons, List.not_mem_nil, or_false, not_or] at mark
  simp [value?, spelled, mark, start]

theorem value?_intChars (n : Int) (apart : Apart rest) (k : Nat) : value? (k + 1) (intChars n ++ rest) =
    some (.number (String.ofList (intChars n)) (partsOf n), rest) := by
  have spelled := spelledNumber?_intChars n apart
  obtain ⟨c, cs, split, first⟩ := exists_intChars n
  rw [split, List.cons_append] at spelled ⊢
  exact value?_number first spelled k

/-- A word that is a value is read to its end. -/
theorem value?_word {c : Char} (word : List Char) {v : Literal} (start : isNameStart c = true)
    (all : word.all isNameChar = true) (named : word? (c :: word) = some (v, [])) (apart : Apart rest)
    (k : Nat) : value? (k + 1) (c :: word ++ rest) = some (v, rest) := by
  have all : ∀ d ∈ c :: word, isNameChar d = true :=
    List.forall_mem_cons.mpr ⟨by simp [isNameChar, start], List.all_eq_true.mp all⟩
  have run := while_apart all fun d first => (apart d first).1
  have alone : (c :: word).takeWhile isNameChar = c :: word ∧ (c :: word).dropWhile isNameChar = [] :=
    ⟨List.takeWhile_eq_self_iff.mpr all, List.dropWhile_eq_nil_iff.mpr all⟩
  have read : word? (c :: word ++ rest) = some (v, rest) := by
    unfold word? at named ⊢
    rw [run.1, run.2, ← alone.1]
    rw [alone.2] at named
    dsimp only at named ⊢
    generalize (c :: word).takeWhile isNameChar = read at *
    split at named <;> cases named <;> rfl
  have mark := not_mem_marks (by decide) start
  simp only [marks, List.mem_cons, List.not_mem_nil, or_false, not_or] at mark
  rw [List.cons_append] at read ⊢
  simp [value?, read, mark, start]

/-! ### Strings -/

/-- A character stands in a string behind a backslash as a letter, as its unit, or as it is. -/
theorem escapedChar_cases (c : Char) :
    (∃ d, escapedChar c = ['\\', d] ∧ d ≠ 'u' ∧ escapeOf? d = some c) ∨
    (c.toNat < 0x20 ∧ escapedChar c =
      ['\\', 'u', '0', '0', Nat.digitChar (c.toNat / 16), Nat.digitChar (c.toNat % 16)]) ∨
    (c ≠ '\\' ∧ c ≠ '"' ∧ escapedChar c = [c]) := by
  by_cases lettered : c ∈ ['"', '\\', '\n', '\r', '\t', '\x08', '\x0c']
  · simp only [List.mem_cons, List.not_mem_nil, or_false] at lettered
    rcases lettered with rfl | rfl | rfl | rfl | rfl | rfl | rfl <;> exact .inl ⟨_, rfl, by decide, rfl⟩
  · simp only [List.mem_cons, List.not_mem_nil, or_false, not_or] at lettered
    by_cases control : c.toNat < 0x20
    · exact .inr (.inl ⟨control, by simp [escapedChar, lettered, control]⟩)
    · exact .inr (.inr ⟨lettered.2.1, lettered.1, by simp [escapedChar, lettered, control]⟩)

theorem hexValue?_digitChar : ∀ d < 16, hexValue? (Nat.digitChar d) = some d := by decide

/-- A character is read back from the way it stands in a string. -/
@[simp] theorem quotedRest_escapedChar (c : Char) (cs : List Char) :
    quotedRest '"' (escapedChar c ++ cs) = Json.consTo c (quotedRest '"' cs) := by
  rcases escapedChar_cases c with ⟨d, letter, other, escape⟩ | ⟨control, unit⟩ | ⟨escape, quote, plain⟩
  · simp [letter, quotedRest, other, escape]
  · have quad : hexQuad? '0' '0' (Nat.digitChar (c.toNat / 16)) (Nat.digitChar (c.toNat % 16)) =
        some c.toNat := by
      have zero : hexValue? '0' = some 0 := rfl
      simp only [hexQuad?, zero, hexValue?_digitChar _ (show c.toNat / 16 < 16 by omega),
        hexValue?_digitChar _ (show c.toNat % 16 < 16 by omega), Option.bind_eq_bind, Option.bind_some]
      congr 1
      omega
    have back : charOfUnit c.toNat = c := by
      rw [charOfUnit, if_neg (by omega), Char.ofNat_toNat]
    simp [unit, quotedRest, quad, back]
  · simp [plain, quotedRest, escape, quote]

/-- A string is read back from its text. -/
theorem quotedRest_escapedChars (rest : List Char) : ∀ s : List Char,
    quotedRest '"' (s.flatMap escapedChar ++ '"' :: rest) = some (s, rest)
  | [] => rfl
  | c :: s => by
    rw [List.flatMap_cons, List.append_assoc, quotedRest_escapedChar, quotedRest_escapedChars rest s]
    rfl

theorem quotedChars_append (s rest : List Char) :
    quotedChars s ++ rest = '"' :: (s.flatMap escapedChar ++ '"' :: rest) := by
  simp [quotedChars]

@[simp] theorem key?_quotedChars (s : String) (rest : List Char) :
    key? (quotedChars s.toList ++ rest) = some (s, rest) := by
  rw [quotedChars_append]
  simp [key?, quotedRest_escapedChars]

/-! ### Values -/

/-- The text is read to its end as a literal with the value, whatever stands behind. -/
def Reads (text : List Char) (v : Json) : Prop := ∃ literal, literal.toJson = .ok v ∧
  ∀ rest, Apart rest → ∀ k, text.length ≤ k → value? k (text ++ rest) = some (literal, rest)

/-- The text of a value begins with no blank, no comment and no closing bracket. -/
theorem exists_chars {v : Json} (h : v.Integral) :
    ∃ c cs, v.chars = c :: cs ∧ c ≠ '/' ∧ isBlank c = false ∧ c ≠ ']' := by
  cases v with
  | null => exact ⟨_, _, rfl, by decide⟩
  | bool b => cases b <;> exact ⟨_, _, rfl, by decide⟩
  | number n =>
    obtain ⟨i, rfl, -⟩ := Number.int64?_isSome_iff.mp h
    obtain ⟨c, cs, split, first⟩ := exists_intChars i
    refine ⟨c, cs, split, ?_⟩
    refine ⟨?_, Bool.eq_false_iff.mpr fun blank => ?_, ?_⟩
    · rintro rfl; revert first; decide
    · simp only [isBlank, Bool.or_eq_true, decide_eq_true_eq] at blank
      rcases blank with ((rfl | rfl) | rfl) | rfl <;> revert first <;> decide
    · rintro rfl; revert first; decide
  | string s => exact ⟨_, _, rfl, by decide⟩
  | array items => exact ⟨_, _, rfl, by decide⟩
  | object fields => exact ⟨_, _, rfl, by decide⟩

theorem skip_chars {v : Json} (h : v.Integral) (rest : List Char) :
    skip (v.chars ++ rest) = v.chars ++ rest := by
  obtain ⟨c, cs, split, slash, solid, -⟩ := exists_chars h
  rw [split, List.cons_append, skip_cons_of_not_slash slash, solid]
  rfl

/-- Items begin neither with a blank or a comment nor with a closing bracket. -/
theorem itemChars_begin {v : Json} (h : v.Integral) (more : List Json) (rest : List Char) :
    skip (Json.itemChars (v :: more) ++ rest) = Json.itemChars (v :: more) ++ rest ∧
      ∀ behind, Json.itemChars (v :: more) ++ rest ≠ ']' :: behind := by
  rw [Json.itemChars, List.append_assoc]
  refine ⟨skip_chars h _, fun behind same => ?_⟩
  obtain ⟨c, cs, split, -, -, bracket⟩ := exists_chars h
  rw [split] at same
  exact bracket (List.cons.inj same).1

theorem skip_solid {c : Char} (slash : c ≠ '/') (solid : isBlank c = false) (rest : List Char) :
    skip (c :: rest) = c :: rest := by
  rw [skip_cons_of_not_slash slash, solid]
  rfl

theorem apart_moreItemChars (items : List Json) (rest : List Char) :
    Apart (Json.moreItemChars items ++ rest) := by
  cases items <;> exact apart_cons (by decide) _

theorem apart_moreFieldChars (fields : List (String × Json)) (rest : List Char) :
    Apart (Json.moreFieldChars fields ++ rest) := by
  cases fields with
  | nil => exact apart_cons (by decide) _
  | cons field more => exact apart_cons (by decide) _

theorem items?_chars : ∀ {v : Json} {more : List Json},
    (∀ item ∈ v :: more, item.Integral ∧ Reads item.chars item) →
    ∃ literals, itemsToJson literals = .ok (v :: more) ∧ ∀ rest k, (Json.itemChars (v :: more)).length ≤ k →
      items? k (Json.itemChars (v :: more) ++ rest) = some (literals, rest)
  | v, more, h => by
    obtain ⟨⟨-, literal, value, read⟩, others⟩ := List.forall_mem_cons.mp h
    have first (rest : List Char) {k : Nat} (enough : v.chars.length ≤ k) :
        value? k (Json.itemChars (v :: more) ++ rest) = some (literal, Json.moreItemChars more ++ rest) := by
      rw [Json.itemChars, List.append_assoc]
      exact read _ (apart_moreItemChars more rest) k enough
    match more with
    | [] =>
      refine ⟨[literal], by rw [itemsToJson, value]; rfl, fun rest k enough => ?_⟩
      simp only [Json.itemChars, Json.moreItemChars, List.length_append, List.length_singleton] at enough
      obtain ⟨k, rfl⟩ : ∃ j, k = j + 1 := ⟨k - 1, by omega⟩
      refine items?_succ_iff.mpr ⟨literal, _, first rest (by omega), .inl ⟨.inl ?_, rfl⟩⟩
      exact skip_solid (by decide) (by decide) rest
    | w :: more =>
      obtain ⟨literals, values, again⟩ := items?_chars others
      refine ⟨literal :: literals, by rw [itemsToJson, value, values]; rfl, fun rest k enough => ?_⟩
      have long : v.chars.length + 1 + (Json.itemChars (w :: more)).length ≤ k := by
        simpa [Json.itemChars, Json.moreItemChars, Nat.add_assoc, Nat.add_comm 1] using enough
      obtain ⟨k, rfl⟩ : ∃ j, k = j + 1 := ⟨k - 1, by omega⟩
      obtain ⟨settled, further⟩ := itemChars_begin (others w List.mem_cons_self).1 more rest
      exact items?_succ_iff.mpr ⟨literal, _, first rest (by omega), .inr
        ⟨_, literals, ⟨_, skip_solid (by decide) (by decide) _, settled, further⟩, again rest k (by omega),
          rfl⟩⟩

theorem pairs?_chars : ∀ {key : String} {v : Json} {more : List (String × Json)},
    (∀ field ∈ (key, v) :: more, field.2.Integral ∧ Reads field.2.chars field.2) →
    ∃ pairs, pairsToJson pairs = .ok ((key, v) :: more) ∧ ∀ rest k,
      (Json.fieldChars ((key, v) :: more)).length ≤ k →
      pairs? k (Json.fieldChars ((key, v) :: more) ++ rest) = some (pairs, rest)
  | key, v, more, h => by
    obtain ⟨⟨integral, literal, value, read⟩, others⟩ := List.forall_mem_cons.mp h
    have named (rest : List Char) : key? (Json.fieldChars ((key, v) :: more) ++ rest) =
        some (key, ':' :: (v.chars ++ (Json.moreFieldChars more ++ rest))) := by
      have split : Json.fieldChars ((key, v) :: more) ++ rest =
          quotedChars key.toList ++ ':' :: (v.chars ++ (Json.moreFieldChars more ++ rest)) := by
        simp [Json.fieldChars]
      rw [split, key?_quotedChars]
    have first (rest : List Char) {k : Nat} (enough : v.chars.length ≤ k) :
        value? k (skip (v.chars ++ (Json.moreFieldChars more ++ rest))) =
          some (literal, Json.moreFieldChars more ++ rest) := by
      rw [skip_chars integral]
      exact read _ (apart_moreFieldChars more rest) k enough
    match more with
    | [] =>
      refine ⟨[(key, literal)], by rw [pairsToJson, value]; rfl, fun rest k enough => ?_⟩
      simp only [Json.fieldChars, Json.moreFieldChars, List.length_append, List.length_cons] at enough
      obtain ⟨k, rfl⟩ : ∃ j, k = j + 1 := ⟨k - 1, by omega⟩
      refine pairs?_succ_iff.mpr ⟨key, _, _, literal, _, named rest, skip_solid (by decide) (by decide) _,
        first rest (by omega), .inl ⟨.inl ?_, rfl⟩⟩
      exact skip_solid (by decide) (by decide) rest
    | (l, w) :: more =>
      obtain ⟨pairs, values, again⟩ := pairs?_chars others
      refine ⟨(key, literal) :: pairs, by rw [pairsToJson, value, values]; rfl, fun rest k enough => ?_⟩
      have long : v.chars.length + 1 + (Json.fieldChars ((l, w) :: more)).length ≤ k := by
        have next : Json.moreFieldChars ((l, w) :: more) = ',' :: Json.fieldChars ((l, w) :: more) := rfl
        rw [Json.fieldChars, next] at enough
        simp only [List.length_append, List.length_cons] at enough
        omega
      obtain ⟨k, rfl⟩ : ∃ j, k = j + 1 := ⟨k - 1, by omega⟩
      refine pairs?_succ_iff.mpr ⟨key, _, _, literal, _, named rest, skip_solid (by decide) (by decide) _,
        first rest (by omega), .inr ⟨Json.fieldChars ((l, w) :: more) ++ rest, pairs,
          ⟨_, skip_solid (by decide) (by decide) _, ?_, ?_⟩, again rest k (by omega), rfl⟩⟩
      · exact skip_solid (by decide) (by decide) _
      · exact fun behind same => absurd (List.cons.inj same).1 (by decide)

/-- An array of values that are read is read. -/
theorem value?_itemChars {items : List Json} (h : ∀ item ∈ items, item.Integral ∧ Reads item.chars item) :
    ∃ literals, itemsToJson literals = .ok items ∧ ∀ rest k, (Json.array items).chars.length ≤ k →
      value? k ((Json.array items).chars ++ rest) = some (.array literals, rest) := by
  have opened (items) : (Json.array items).chars = '[' :: Json.itemChars items := by rw [Json.chars]
  match items with
  | [] =>
    refine ⟨[], rfl, fun rest k enough => ?_⟩
    obtain ⟨k, rfl⟩ : ∃ j, k = j + 1 := ⟨k - 1, by simp [opened] at enough; omega⟩
    exact value?_bracket_iff.mpr (.inl ⟨skip_solid (by decide) (by decide) rest, rfl⟩)
  | v :: more =>
    obtain ⟨literals, values, read⟩ := items?_chars h
    refine ⟨literals, values, fun rest k enough => ?_⟩
    rw [opened, List.length_cons] at enough
    obtain ⟨k, rfl⟩ : ∃ j, k = j + 1 := ⟨k - 1, by omega⟩
    obtain ⟨settled, further⟩ := itemChars_begin (h v List.mem_cons_self).1 more rest
    rw [opened]
    refine value?_bracket_iff.mpr (.inr ⟨literals, ?_, ?_, rfl⟩) <;> rw [List.append_eq, settled]
    · exact further
    · exact read rest k (by omega)

/-- An object of values that are read is read. -/
theorem value?_fieldChars {fields : List (String × Json)}
    (h : ∀ field ∈ fields, field.2.Integral ∧ Reads field.2.chars field.2) :
    ∃ pairs, pairsToJson pairs = .ok fields ∧ ∀ rest k, (Json.object fields).chars.length ≤ k →
      value? k ((Json.object fields).chars ++ rest) = some (.object pairs, rest) := by
  have opened (fields) : (Json.object fields).chars = '{' :: Json.fieldChars fields := by rw [Json.chars]
  match fields with
  | [] =>
    refine ⟨[], rfl, fun rest k enough => ?_⟩
    obtain ⟨k, rfl⟩ : ∃ j, k = j + 1 := ⟨k - 1, by simp [opened] at enough; omega⟩
    exact value?_brace_iff.mpr (.inl ⟨skip_solid (by decide) (by decide) rest, rfl⟩)
  | (key, v) :: more =>
    obtain ⟨pairs, values, read⟩ := pairs?_chars h
    refine ⟨pairs, values, fun rest k enough => ?_⟩
    rw [opened, List.length_cons] at enough
    obtain ⟨k, rfl⟩ : ∃ j, k = j + 1 := ⟨k - 1, by omega⟩
    have settled : skip (Json.fieldChars ((key, v) :: more) ++ rest) =
        Json.fieldChars ((key, v) :: more) ++ rest := skip_solid (by decide) (by decide) _
    rw [opened]
    refine value?_brace_iff.mpr (.inr ⟨pairs, fun behind same => ?_, ?_, rfl⟩) <;>
      rw [List.append_eq, settled] at *
    · exact absurd (List.cons.inj same).1 (by decide)
    · exact read rest k (by omega)

theorem value?_atom {text rest : List Char} {v : Literal}
    (h : ∀ k, value? (k + 1) (text ++ rest) = some (v, rest)) (some : text ≠ []) {k : Nat}
    (enough : text.length ≤ k) : value? k (text ++ rest) = Option.some (v, rest) := by
  have long : 0 < text.length := List.length_pos_iff.mpr some
  obtain ⟨k, rfl⟩ : ∃ j, k = j + 1 := ⟨k - 1, by omega⟩
  exact h k

mutual

/-- **The text of a value reads as a literal with this value.** -/
theorem reads_chars : (v : Json) → v.IsCanonical → v.Integral → Reads v.chars v
  | .null, _, _ => ⟨.null, rfl, fun _ apart _ enough =>
    value?_atom (value?_word ['u', 'l', 'l'] rfl rfl rfl apart) (by decide) enough⟩
  | .bool true, _, _ => ⟨.bool true, rfl, fun _ apart _ enough =>
    value?_atom (value?_word ['r', 'u', 'e'] rfl rfl rfl apart) (by decide) enough⟩
  | .bool false, _, _ => ⟨.bool false, rfl, fun _ apart _ enough =>
    value?_atom (value?_word ['a', 'l', 's', 'e'] rfl rfl rfl apart) (by decide) enough⟩
  | .number n, _, integral => by
    obtain ⟨i, rfl, range⟩ := Number.int64?_isSome_iff.mp integral
    obtain ⟨c, cs, split, -⟩ := exists_intChars i
    refine ⟨.number (String.ofList (intChars i)) (partsOf i), numberOf_partsOf range _,
      fun _ apart _ enough => ?_⟩
    exact value?_atom (value?_intChars i apart) (split ▸ List.cons_ne_nil c cs) enough
  | .string s, _, _ => by
    refine ⟨.string s, rfl, fun rest _ _ enough => ?_⟩
    refine value?_atom (fun k => ?_) (List.cons_ne_nil _ _) enough
    rw [← quotedChars, quotedChars_append]
    simp [value?, quotedRest_escapedChars]
  | .array items, canonical, integral => by
    obtain ⟨literals, values, read⟩ := value?_itemChars (reads_items items canonical integral)
    exact ⟨.array literals, by rw [toJson, values]; rfl, fun rest _ k => read rest k⟩
  | .object fields, ⟨ascending, canonical⟩, integral => by
    obtain ⟨pairs, values, read⟩ := value?_fieldChars (reads_fields fields canonical integral)
    refine ⟨.object pairs, ?_, fun rest _ k => read rest k⟩
    rw [toJson, values]
    exact congrArg (fun fields => Except.ok (Json.object fields)) (Fields.ofList_of_ascending ascending)

theorem reads_items : (items : List Json) → Json.AllCanonical items → Json.AllIntegral items →
    ∀ item ∈ items, item.Integral ∧ Reads item.chars item
  | [], _, _ => nofun
  | v :: rest, ⟨canonical, more⟩, ⟨integral, all⟩ =>
    List.forall_mem_cons.mpr ⟨⟨integral, reads_chars v canonical integral⟩, reads_items rest more all⟩

theorem reads_fields : (fields : List (String × Json)) → Json.FieldsCanonical fields →
    Json.FieldsIntegral fields → ∀ field ∈ fields, field.2.Integral ∧ Reads field.2.chars field.2
  | [], _, _ => nofun
  | (_, v) :: rest, ⟨canonical, more⟩, ⟨integral, all⟩ =>
    List.forall_mem_cons.mpr ⟨⟨integral, reads_chars v canonical integral⟩, reads_fields rest more all⟩

end

/-- The text of an object is one object of the notation, and its pairs are the fields. -/
theorem object?_chars {fields : List (String × Json)} (canonical : (Json.object fields).IsCanonical)
    (integral : (Json.object fields).Integral) : ∃ pairs, pairsToJson pairs = .ok fields ∧
      ∀ k, (Json.object fields).chars.length ≤ k →
        object? k (Json.object fields).chars = some (pairs, []) := by
  obtain ⟨pairs, values, read⟩ := value?_fieldChars (reads_fields fields canonical.2 integral)
  refine ⟨pairs, values, fun k enough => object?_eq_some_iff.mpr ?_⟩
  have whole := read [] k enough
  rwa [List.append_nil] at whole

end Literal

/-! ### Quotes and brackets -/

theorem grouped_of_names {inside : Bool} : ∀ {text : List Char},
    (∀ c ∈ text, Literal.isNameChar c = true) → Grouped inside text
  | [], _ => .nil
  | _ :: _, h => by
    obtain ⟨name, h⟩ := List.forall_mem_cons.mp h
    exact .plain (not_mem_delimiters (by decide) name) (.inr (isBlankChar_of_isNameChar name))
      (grouped_of_names h)

theorem Quoted.escapedChar (c : Char) {rest : List Char} (h : Quoted '"' rest) :
    Quoted '"' (escapedChar c ++ rest) := by
  rcases Literal.escapedChar_cases c with ⟨d, letter, -, -⟩ | ⟨-, unit⟩ | ⟨escape, quote, plain⟩
  · rw [letter]
    exact .escaped d h
  · have digit (n : Nat) {rest : List Char} (h : Quoted '"' rest) : Quoted '"' (Nat.digitChar n :: rest) :=
      .plain (Nat.digitChar_ne _ rfl) (Nat.digitChar_ne _ rfl) h
    rw [unit]
    exact .escaped 'u' (digit 0 (digit 0 (digit _ (digit _ h))))
  · rw [plain]
    exact .plain escape quote h

theorem quoted_escapedChars : ∀ s : List Char, Quoted '"' (s.flatMap escapedChar)
  | [] => .nil
  | c :: s => by
    rw [List.flatMap_cons]
    exact (quoted_escapedChars s).escapedChar c

theorem grouped_quotedChars {inside : Bool} (s : List Char) : Grouped inside (quotedChars s) :=
  .quoted (.inl rfl) (quoted_escapedChars s) .nil

theorem grouped_intChars {inside : Bool} (n : Int) : Grouped inside (intChars n) := by
  have digits : Grouped inside (natChars n.natAbs) :=
    grouped_of_names fun c mem => Literal.isNameChar_of_isDigit (isDigit_of_mem_natChars mem)
  rw [Literal.intChars_eq]
  split
  · exact .plain (by decide) (.inr (by decide)) digits
  · exact digits

namespace Json

mutual

/-- **The text of a value is one group**, with its quotes and brackets in order. -/
theorem grouped_chars {inside : Bool} : (v : Json) → v.Integral → Grouped inside v.chars
  | .null, _ => grouped_of_names (List.all_eq_true.mp rfl)
  | .bool true, _ => grouped_of_names (List.all_eq_true.mp rfl)
  | .bool false, _ => grouped_of_names (List.all_eq_true.mp rfl)
  | .number n, integral => by
    obtain ⟨i, rfl, -⟩ := Number.int64?_isSome_iff.mp integral
    exact grouped_intChars i
  | .string s, _ => grouped_quotedChars s.toList
  | .array [], _ => show Grouped inside ('[' :: ([] ++ [']'])) from .bracketed (by decide) .nil .nil
  | .array (v :: rest), ⟨integral, all⟩ => by
    obtain ⟨body, split, grouped⟩ := grouped_moreItemChars rest all
    have inner : Grouped true (v.chars ++ body) := (grouped_chars v integral).append grouped
    have whole : Grouped inside ('[' :: (v.chars ++ body ++ [']'])) := .bracketed (by decide) inner .nil
    rwa [List.append_assoc, ← split] at whole
  | .object [], _ => show Grouped inside ('{' :: ([] ++ ['}'])) from .bracketed (by decide) .nil .nil
  | .object ((key, v) :: rest), ⟨integral, all⟩ => by
    obtain ⟨body, split, grouped⟩ := grouped_moreFieldChars rest all
    have value : Grouped true (':' :: (v.chars ++ body)) :=
      .plain (by decide) (.inl rfl) ((grouped_chars v integral).append grouped)
    have whole : Grouped inside ('{' :: (quotedChars key.toList ++ ':' :: (v.chars ++ body) ++ ['}'])) :=
      .bracketed (by decide) ((grouped_quotedChars key.toList).append value) .nil
    rwa [List.append_assoc, List.cons_append, List.append_assoc, ← split] at whole

theorem grouped_moreItemChars : (items : List Json) → AllIntegral items →
    ∃ body, moreItemChars items = body ++ [']'] ∧ Grouped true body
  | [], _ => ⟨[], rfl, .nil⟩
  | v :: rest, ⟨integral, all⟩ => by
    obtain ⟨body, split, grouped⟩ := grouped_moreItemChars rest all
    exact ⟨',' :: (v.chars ++ body), by simp [moreItemChars, split],
      .plain (by decide) (.inl rfl) ((grouped_chars v integral).append grouped)⟩

theorem grouped_moreFieldChars : (fields : List (String × Json)) → FieldsIntegral fields →
    ∃ body, moreFieldChars fields = body ++ ['}'] ∧ Grouped true body
  | [], _ => ⟨[], rfl, .nil⟩
  | (key, v) :: rest, ⟨integral, all⟩ => by
    obtain ⟨body, split, grouped⟩ := grouped_moreFieldChars rest all
    have value : Grouped true (':' :: (v.chars ++ body)) :=
      .plain (by decide) (.inl rfl) ((grouped_chars v integral).append grouped)
    exact ⟨',' :: (quotedChars key.toList ++ ':' :: (v.chars ++ body)), by simp [moreFieldChars, split],
      .plain (by decide) (.inl rfl) ((grouped_quotedChars key.toList).append value)⟩

end

end Json

end PageQuery
