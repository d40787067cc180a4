/-
# JSON texts as property literals

The notation of property literals takes every JSON text of an object, and reads it with the same fuel. The
two readers skip the same blanks, as no JSON value begins with a slash; they share the reader of numbers; and
behind a word stands no character of one. They part at strings: an escape names one unit for the reader of
literals, so that two escaped surrogates are two replacement characters where JSON has one character.

So a text is compared with the text in which each escaped surrogate is replaced beforehand
(`replaceSurrogates`). This changes nothing outside strings, where no backslash stands, and one induction
over the JSON reader shows both that the new text is a JSON text and that the literal has its value.

Key definitions: `replaceSurrogates`.
Key theorems: `Literal.skip_of_skipBlanks`, `Literal.quotedRest_of_stringRest`, `Literal.literal_of_read`,
`Predicate.parse_of_denotes`.
-/
import PageQuery.Proofs.Json.Reading
import PageQuery.Proofs.Selector.Props

namespace PageQuery

/-- The text with each escaped surrogate replaced by the escape of U+FFFD, paired or not. -/
def replaceSurrogates : List Char → List Char
  | '\\' :: 'u' :: a :: b :: c :: d :: rest =>
    match hexQuad? a b c d with
    | some unit =>
      if 0xD800 ≤ unit ∧ unit < 0xE000 then ['\\', 'u', 'f', 'f', 'f', 'd'] ++ replaceSurrogates rest
      else ['\\', 'u', a, b, c, d] ++ replaceSurrogates rest
    | none => ['\\', 'u', a, b, c, d] ++ replaceSurrogates rest
  | '\\' :: c :: rest => '\\' :: c :: replaceSurrogates rest
  | c :: rest => c :: replaceSurrogates rest
  | [] => []

section replaced

variable {cs rest : List Char}

theorem replaceSurrogates_cons {c : Char} (escape : c ≠ '\\') (rest : List Char) :
    replaceSurrogates (c :: rest) = c :: replaceSurrogates rest := by
  simp [replaceSurrogates, escape]

theorem replaceSurrogates_surrogate {a b c d : Char} {unit : Nat} (digits : hexQuad? a b c d = some unit)
    (surrogate : 0xD800 ≤ unit ∧ unit < 0xE000) (rest : List Char) :
    replaceSurrogates ('\\' :: 'u' :: a :: b :: c :: d :: rest) =
      '\\' :: 'u' :: 'f' :: 'f' :: 'f' :: 'd' :: replaceSurrogates rest := by
  simp [replaceSurrogates, digits, surrogate]

theorem replaceSurrogates_unit {a b c d : Char} {unit : Nat} (digits : hexQuad? a b c d = some unit)
    (plain : ¬(0xD800 ≤ unit ∧ unit < 0xE000)) (rest : List Char) :
    replaceSurrogates ('\\' :: 'u' :: a :: b :: c :: d :: rest) =
      '\\' :: 'u' :: a :: b :: c :: d :: replaceSurrogates rest := by
  simp only [replaceSurrogates, digits, if_neg plain]
  rfl

theorem replaceSurrogates_letter {c : Char} (unit : c ≠ 'u') (rest : List Char) :
    replaceSurrogates ('\\' :: c :: rest) = '\\' :: c :: replaceSurrogates rest := by
  simp [replaceSurrogates, unit]

@[simp] theorem head?_replaceSurrogates (cs : List Char) : (replaceSurrogates cs).head? = cs.head? := by
  fun_cases replaceSurrogates cs <;> simp_all

open Literal in
theorem keepsRuns_replaceSurrogates : KeepsRuns replaceSurrogates where
  cons {c} run rest := replaceSurrogates_cons (by rintro rfl; exact absurd run (by decide)) rest
  stop {cs} cut := by
    unfold CutsOff
    rwa [head?_replaceSurrogates]

end replaced

namespace Json

variable {cs rest : List Char}

/-! ### Blanks -/

@[simp] theorem skipBlanks_replaceSurrogates (cs : List Char) :
    skipBlanks (replaceSurrogates cs) = replaceSurrogates (skipBlanks cs) := by
  induction cs with
  | nil => rfl
  | cons c cs ih =>
    by_cases blank : isBlank c = true
    · have escape : c ≠ '\\' := by rintro rfl; revert blank; decide
      rw [replaceSurrogates_cons escape, skipBlanks_cons, skipBlanks_cons, if_pos blank, if_pos blank, ih]
    · have first := head?_replaceSurrogates (c :: cs)
      obtain ⟨more, same⟩ := List.head?_eq_some_iff.mp first
      rw [skipBlanks_cons, if_neg blank, same, skipBlanks_cons, if_neg blank]

/-- The first character that is no blank stays in place. -/
theorem skipBlanks_replaced {c : Char} (h : skipBlanks cs = c :: rest) (escape : c ≠ '\\') :
    skipBlanks (replaceSurrogates cs) = c :: replaceSurrogates rest := by
  rw [skipBlanks_replaceSurrogates, h, replaceSurrogates_cons escape]

end Json

namespace Literal

variable {depth fuel : Nat} {cs rest : List Char}

theorem isBlank_eq (c : Char) : isBlank c = Json.isBlank c := by
  simp only [isBlank, Json.isBlank]
  grind

/-- Blanks may be skipped before blanks and comments are. -/
theorem skip_skipBlanks : ∀ cs : List Char, skip (Json.skipBlanks cs) = skip cs
  | [] => rfl
  | c :: cs => by
    rw [Json.skipBlanks_cons]
    split
    · next blank =>
      have slash : c ≠ '/' := by rintro rfl; revert blank; decide
      rw [skip_skipBlanks cs, skip_cons_of_not_slash slash, isBlank_eq, if_pos blank]
    · rfl

theorem not_isBlank_of_skipBlanks {c : Char} (h : Json.skipBlanks cs = c :: rest) : Json.isBlank c = false := by
  have again := Json.skipBlanks_skipBlanks cs
  rw [h, Json.skipBlanks_cons] at again
  by_contra blank
  rw [if_pos (by simpa using blank)] at again
  have shorter : (Json.skipBlanks rest).length ≤ rest.length := (List.dropWhile_suffix _).length_le
  rw [again, List.length_cons] at shorter
  omega

/-- Where no comment begins, the two readers skip the same blanks. -/
theorem skip_of_skipBlanks {c : Char} (h : Json.skipBlanks cs = c :: rest) (slash : c ≠ '/') :
    skip cs = c :: rest := by
  have solid : isBlank c = false := isBlank_eq c ▸ not_isBlank_of_skipBlanks h
  rw [← skip_skipBlanks, h, skip_solid slash solid]

/-- No number and no word goes on into a text that has such a mark, or nothing, behind its blanks. -/
theorem cutsOff_of_skipBlanks (h : ∀ c ∈ (Json.skipBlanks cs).head?, isRunChar c = false) : CutsOff cs := by
  cases cs with
  | nil => exact nofun
  | cons c cs =>
    rw [Json.skipBlanks_cons] at h
    split at h
    · next blank =>
      intro d first
      obtain rfl := Option.some.inj first
      simp only [Json.isBlank, Bool.or_eq_true, decide_eq_true_eq] at blank
      rcases blank with ((rfl | rfl) | rfl) | rfl <;> decide
    · exact h

theorem cutsOff_of_mark {c : Char} (h : Json.skipBlanks cs = c :: rest) (mark : isRunChar c = false) :
    CutsOff cs := cutsOff_of_skipBlanks (h ▸ fun _ first => Option.some.inj first ▸ mark)

theorem CutsOff.apart (h : CutsOff rest) : Apart rest := fun c first => by
  have none := h c first
  simp only [isRunChar, Bool.or_eq_false_iff, decide_eq_false_iff_not] at none
  exact ⟨none.1.1.1, none.1.1.2⟩

/-! ### Strings -/

theorem escapeOf?_of_json {c e : Char} (h : Json.escapeOf? c = some e) :
    escapeOf? c = some e ∧ c ≠ 'u' ∧ c ≠ '\'' := by
  have other : c ≠ 'u' ∧ c ≠ '\'' := by constructor <;> (rintro rfl; cases h)
  exact ⟨by rw [escapeOf?, if_neg other.2, h], other⟩

theorem quotedRest_unit {a b c d : Char} {unit : Nat} (digits : hexQuad? a b c d = some unit) (q : Char)
    (rest : List Char) : quotedRest q ('\\' :: 'u' :: a :: b :: c :: d :: rest) =
      Json.consTo (charOfUnit unit) (quotedRest q rest) := by
  simp [quotedRest, digits]

/-- An escape that names no surrogate names a character by itself. -/
theorem stringRest_unit {a b c d : Char} {unit : Nat} (digits : hexQuad? a b c d = some unit)
    (plain : ¬(0xD800 ≤ unit ∧ unit < 0xE000)) (rest : List Char) :
    Json.stringRest ('\\' :: 'u' :: a :: b :: c :: d :: rest) =
      Json.consTo (Char.ofNat unit) (Json.stringRest rest) := by
  have high : ¬(0xD800 ≤ unit ∧ unit < 0xDC00) := by omega
  have low : ¬(0xDC00 ≤ unit ∧ unit < 0xE000) := by omega
  simp [Json.stringRest, digits, high, low]

theorem stringRest_replacement (rest : List Char) :
    Json.stringRest ('\\' :: 'u' :: 'f' :: 'f' :: 'f' :: 'd' :: rest) =
      Json.consTo '\uFFFD' (Json.stringRest rest) :=
  stringRest_unit (show hexQuad? 'f' 'f' 'f' 'd' = some 0xFFFD from rfl) (by decide) rest

/-- **A JSON string is a string of the notation**, and what it denotes there is what it denotes in JSON once
its surrogates are replaced. -/
theorem quotedRest_of_stringRest {cs : List Char} : ∀ {s rest : List Char},
    Json.stringRest cs = some (s, rest) → ∃ value, quotedRest '"' cs = some (value, rest) ∧
      Json.stringRest (replaceSurrogates cs) = some (value, replaceSurrogates rest) := by
  fun_induction Json.stringRest cs with
  | case2 behind =>
    intro s rest h
    cases h
    exact ⟨[], by simp [quotedRest], by rw [replaceSurrogates_cons (by decide)]; rfl⟩
  | case5 a b c d high digits surrogate e f g h behind low digits' surrogate' ih =>
    intro s rest h
    obtain ⟨⟨inner, _⟩, h, same⟩ := Option.map_eq_some_iff.mp h
    cases same
    obtain ⟨value, read, again⟩ := ih h
    -- each half of the pair is replaced by itself
    have first : 0xD800 ≤ high ∧ high < 0xE000 := by omega
    have second : 0xD800 ≤ low ∧ low < 0xE000 := by omega
    refine ⟨'\uFFFD' :: '\uFFFD' :: value, ?_, ?_⟩
    · rw [quotedRest_unit digits, quotedRest_unit digits', charOfUnit, charOfUnit, if_pos first,
        if_pos second, read]
      rfl
    · rw [replaceSurrogates_surrogate digits first, replaceSurrogates_surrogate digits' second,
        stringRest_replacement, stringRest_replacement, again]
      rfl
  | case9 a b c d behind unit digits high low ih =>
    intro s rest h
    obtain ⟨⟨inner, _⟩, h, same⟩ := Option.map_eq_some_iff.mp h
    cases same
    obtain ⟨value, read, again⟩ := ih h
    have plain : ¬(0xD800 ≤ unit ∧ unit < 0xE000) := by omega
    refine ⟨Char.ofNat unit :: value, ?_, ?_⟩
    · rw [quotedRest_unit digits, charOfUnit, if_neg plain, read]
      rfl
    · rw [replaceSurrogates_unit digits plain, stringRest_unit digits plain, again]
      rfl
  | case11 c behind _ e escape ih =>
    intro s rest h
    obtain ⟨⟨inner, _⟩, h, same⟩ := Option.map_eq_some_iff.mp h
    cases same
    obtain ⟨value, read, again⟩ := ih h
    obtain ⟨escape', unit, -⟩ := escapeOf?_of_json escape
    refine ⟨e :: value, ?_, ?_⟩
    · simp [quotedRest, escape', read, Json.consTo]
    · rw [replaceSurrogates_letter unit]
      simp [Json.stringRest, unit, escape, again, Json.consTo]
  | case13 c behind quote _ escape _ ih =>
    intro s rest h
    obtain ⟨⟨inner, _⟩, h, same⟩ := Option.map_eq_some_iff.mp h
    cases same
    obtain ⟨value, read, again⟩ := ih h
    have plain : c ≠ '\\' := by
      rintro rfl
      cases behind with
      | nil => cases h
      | cons d more => exact escape d more rfl rfl
    have other : c ≠ '"' := quote
    refine ⟨c :: value, ?_, ?_⟩
    · simp [quotedRest, plain, other, read, Json.consTo]
    · rw [replaceSurrogates_cons plain]
      simp_all [Json.stringRest, Json.consTo]
  | _ =>
    intro s rest h
    cases h

/-! ### Values -/

theorem numberOf_of_toNumber {parts : NumberText} {n : Number} (h : parts.toNumber? = some n)
    (range : n.int64?.isSome = true) (text : String) : numberOf text parts = .ok (.number n) := by
  obtain ⟨i, rfl, between⟩ := Number.int64?_isSome_iff.mp range
  obtain ⟨whole, value⟩ := Json.toNumber?_eq_int h
  rw [numberOf, value]
  exact if_pos ⟨whole, between⟩

/-- A string, a word or a number is read as in JSON. -/
theorem value?_of_atom {v : Json} (h : Json.atom? cs = some (v, rest)) (integral : v.Integral)
    (cut : CutsOff rest) : ∃ literal w, (∀ k, value? (k + 1) cs = some (literal, rest)) ∧
      literal.toJson = .ok w.canonical ∧
      Json.atom? (replaceSurrogates cs) = some (w, replaceSurrogates rest) := by
  unfold Json.atom? at h
  split at h
  · next behind =>
    obtain ⟨⟨s, _⟩, read, same⟩ := Option.map_eq_some_iff.mp h
    cases same
    obtain ⟨value, quoted, again⟩ := quotedRest_of_stringRest read
    refine ⟨.string (String.ofList value), .string (String.ofList value), fun k => ?_, rfl, ?_⟩
    · simp [value?, quoted]
    · rw [replaceSurrogates_cons (by decide), Json.atom?, again]
      rfl
  · next behind =>
    obtain ⟨_, read, same⟩ := Option.map_eq_some_iff.mp h
    cases same
    obtain rfl := Json.afterWord?_eq_some_iff.mp read
    exact ⟨.null, .null, value?_word ['u', 'l', 'l'] rfl rfl rfl cut.apart, rfl,
      by simp [replaceSurrogates_cons, Json.atom?, Json.afterWord?]⟩
  · next behind =>
    obtain ⟨_, read, same⟩ := Option.map_eq_some_iff.mp h
    cases same
    obtain rfl := Json.afterWord?_eq_some_iff.mp read
    exact ⟨.bool true, .bool true, value?_word ['r', 'u', 'e'] rfl rfl rfl cut.apart, rfl,
      by simp [replaceSurrogates_cons, Json.atom?, Json.afterWord?]⟩
  · next behind =>
    obtain ⟨_, read, same⟩ := Option.map_eq_some_iff.mp h
    cases same
    obtain rfl := Json.afterWord?_eq_some_iff.mp read
    exact ⟨.bool false, .bool false, value?_word ['a', 'l', 's', 'e'] rfl rfl rfl cut.apart, rfl,
      by simp [replaceSurrogates_cons, Json.atom?, Json.afterWord?]⟩
  · split at h
    · cases h
    · next parts behind scanned =>
      obtain ⟨n, number, same⟩ := Option.map_eq_some_iff.mp h
      cases same
      obtain ⟨c, more, rfl, first⟩ := Json.exists_of_scan scanned
      obtain ⟨text, spelled⟩ : ∃ text, spelledNumber? (c :: more) = some ((text, parts), rest) :=
        ⟨_, by rw [spelledNumber?, scanned]⟩
      refine ⟨.number text parts, .number n, value?_number first spelled,
        numberOf_of_toNumber number integral text, ?_⟩
      have run : isRunChar c = true := first.elim (fun minus => minus ▸ rfl) isRunChar_of_isDigit
      have again := scan?_keeps keepsRuns_replaceSurrogates (c :: more)
      rw [keepsRuns_replaceSurrogates.cons run, scanned] at again
      rw [keepsRuns_replaceSurrogates.cons run, Json.atom?_of_number first, again]
      simp [number]

theorem value?_of_pairs {c : Char} {inner behind : List Char} {pairs : List (String × Literal)}
    (begins : skip inner = c :: behind) (further : c ≠ '}')
    (found : pairs? fuel (skip inner) = some (pairs, rest)) :
    value? (fuel + 1) ('{' :: inner) = some (.object pairs, rest) :=
  value?_brace_iff.mpr (.inr ⟨pairs, fun _ shut => further (List.cons.inj (begins.symm.trans shut)).1, found,
    rfl⟩)

theorem value?_of_items {c : Char} {inner behind : List Char} {items : List Literal}
    (begins : skip inner = c :: behind) (further : c ≠ ']')
    (found : items? fuel (skip inner) = some (items, rest)) :
    value? (fuel + 1) ('[' :: inner) = some (.array items, rest) :=
  value?_bracket_iff.mpr (.inr ⟨items, fun _ shut => further (List.cons.inj (begins.symm.trans shut)).1, found,
    rfl⟩)

mutual

/-- **A JSON text is a literal**, and the value of this is the value of the text in JSON once its surrogates
are replaced. -/
theorem literal_of_read : ∀ {fuel depth : Nat} {cs rest : List Char} {v : Json},
    Json.read? depth fuel cs = some (v, rest) → v.Integral → CutsOff rest → ∃ literal w,
      value? fuel (skip cs) = some (literal, rest) ∧ literal.toJson = .ok w.canonical ∧
      Json.read? depth fuel (replaceSurrogates cs) = some (w, replaceSurrogates rest)
  | 0, _, _, _, _, h, _, _ => by cases h
  | fuel + 1, depth, cs, rest, v, h, integral, cut => by
    obtain ⟨c, more, begins, slash, -, escape⟩ := Json.exists_of_read h
    have settled : skip cs = Json.skipBlanks cs := begins ▸ skip_of_skipBlanks begins slash
    rcases opening_cases (Json.skipBlanks cs) with ⟨inner, brace⟩ | ⟨inner, bracket⟩ | atomic
    · have replaced := Json.skipBlanks_replaced brace (by decide)
      obtain ⟨deep, ⟨shut, rfl⟩ | ⟨fields, -, read, rfl⟩⟩ := (Json.read?_brace_iff brace).mp h
      · refine ⟨.object [], .object [], ?_, rfl, ?_⟩
        · rw [settled, brace]
          exact value?_brace_iff.mpr (.inl ⟨skip_of_skipBlanks shut (by decide), rfl⟩)
        · exact (Json.read?_brace_iff replaced).mpr
            ⟨deep, .inl ⟨Json.skipBlanks_replaced shut (by decide), rfl⟩⟩
      · obtain ⟨pairs, values, found, denotes, again⟩ := pairs_of_readFields read integral
        obtain ⟨name, quote⟩ := Json.exists_of_readFields read
        rw [Json.skipBlanks_skipBlanks] at quote
        rw [skip_skipBlanks] at found
        rw [← Json.skipBlanks_replaceSurrogates] at again
        refine ⟨.object pairs, .object values, ?_, by rw [toJson, denotes]; rfl, ?_⟩
        · rw [settled, brace]
          exact value?_of_pairs (skip_of_skipBlanks quote (by decide)) (by decide) found
        · have quote' := Json.skipBlanks_replaced quote (by decide)
          exact Json.read?_of_fields replaced deep quote' (by decide) again
    · have replaced := Json.skipBlanks_replaced bracket (by decide)
      obtain ⟨deep, ⟨shut, rfl⟩ | ⟨items, -, read, rfl⟩⟩ := (Json.read?_bracket_iff bracket).mp h
      · refine ⟨.array [], .array [], ?_, rfl, ?_⟩
        · rw [settled, bracket]
          exact value?_bracket_iff.mpr (.inl ⟨skip_of_skipBlanks shut (by decide), rfl⟩)
        · exact (Json.read?_bracket_iff replaced).mpr
            ⟨deep, .inl ⟨Json.skipBlanks_replaced shut (by decide), rfl⟩⟩
      · obtain ⟨literals, values, found, denotes, again⟩ := items_of_readItems read integral
        obtain ⟨d, behind, first, slash, other, escape⟩ := Json.exists_of_readItems read
        rw [Json.skipBlanks_skipBlanks] at first
        rw [skip_skipBlanks] at found
        rw [← Json.skipBlanks_replaceSurrogates] at again
        refine ⟨.array literals, .array values, ?_, by rw [toJson, denotes]; rfl, ?_⟩
        · rw [settled, bracket]
          exact value?_of_items (skip_of_skipBlanks first slash) other found
        · exact Json.read?_of_items replaced deep (Json.skipBlanks_replaced first escape) other again
    · rw [Json.read?_atomic atomic] at h
      obtain ⟨literal, w, found, denotes, again⟩ := value?_of_atom h integral cut
      refine ⟨literal, w, by rw [settled]; exact found fuel, denotes, ?_⟩
      have replaced : Atomic (Json.skipBlanks (replaceSurrogates cs)) := by
        rw [Json.skipBlanks_replaced begins escape]
        rw [begins] at atomic
        exact fun inner => ⟨fun brace => (atomic more).1 (by rw [(List.cons.inj brace).1]),
          fun bracket => (atomic more).2 (by rw [(List.cons.inj bracket).1])⟩
      rwa [Json.read?_atomic replaced, Json.skipBlanks_replaceSurrogates]

theorem pairs_of_readFields : ∀ {fuel depth : Nat} {cs rest : List Char} {fields : List (String × Json)},
    Json.readFields depth fuel cs = some (fields, rest) → Json.FieldsIntegral fields → ∃ pairs values,
      pairs? fuel (skip cs) = some (pairs, rest) ∧ pairsToJson pairs = .ok (Json.canonicalFields values) ∧
      Json.readFields depth fuel (replaceSurrogates cs) = some (values, replaceSurrogates rest)
  | 0, _, _, _, _, h, _ => by cases h
  | fuel + 1, depth, cs, rest, fields, h, integral => by
    obtain ⟨inner, key, behind, spelled, v, after, quote, named, colon, read, go⟩ :=
      Json.readFields_succ_iff.mp h
    obtain ⟨name, quoted, renamed⟩ := quotedRest_of_stringRest named
    have keyed : key? (skip cs) = some (String.ofList name, behind) := by
      rw [skip_of_skipBlanks quote (by decide)]
      simp [key?, quoted]
    have quote' := Json.skipBlanks_replaced quote (by decide)
    have colon' := Json.skipBlanks_replaced colon (by decide)
    rcases go with ⟨shut, rfl⟩ | ⟨more, tail, comma, again, rfl⟩
    · obtain ⟨literal, w, found, denotes, reread⟩ :=
        literal_of_read read integral.1 (cutsOff_of_mark shut rfl)
      refine ⟨[(String.ofList name, literal)], [(String.ofList name, w)], ?_,
        by rw [pairsToJson, denotes]; rfl, ?_⟩
      · exact pairs?_succ_iff.mpr ⟨_, _, _, literal, after, keyed, skip_of_skipBlanks colon (by decide), found,
          .inl ⟨.inl (skip_of_skipBlanks shut (by decide)), rfl⟩⟩
      · exact Json.readFields_succ_iff.mpr ⟨_, name, _, _, w, _, quote', renamed, colon', reread,
          .inl ⟨Json.skipBlanks_replaced shut (by decide), rfl⟩⟩
    · obtain ⟨literal, w, found, denotes, reread⟩ :=
        literal_of_read read integral.1 (cutsOff_of_mark comma rfl)
      obtain ⟨pairs, values, others, denote, reread'⟩ := pairs_of_readFields again integral.2
      refine ⟨(String.ofList name, literal) :: pairs, (String.ofList name, w) :: values, ?_,
        by rw [pairsToJson, denotes, denote]; rfl, ?_⟩
      · obtain ⟨next, begins⟩ := Json.exists_of_readFields again
        have on : Continues '}' after (skip more) := by
          refine ⟨more, skip_of_skipBlanks comma (by decide), rfl, fun r shut => ?_⟩
          rw [skip_of_skipBlanks begins (by decide)] at shut
          cases shut
        exact pairs?_succ_iff.mpr ⟨_, _, _, literal, after, keyed, skip_of_skipBlanks colon (by decide), found,
          .inr ⟨_, pairs, on, others, rfl⟩⟩
      · exact Json.readFields_succ_iff.mpr ⟨_, name, _, _, w, _, quote', renamed, colon', reread,
          .inr ⟨_, values, Json.skipBlanks_replaced comma (by decide), reread', rfl⟩⟩

theorem items_of_readItems : ∀ {fuel depth : Nat} {cs rest : List Char} {items : List Json},
    Json.readItems depth fuel cs = some (items, rest) → Json.AllIntegral items → ∃ literals values,
      items? fuel (skip cs) = some (literals, rest) ∧ itemsToJson literals = .ok (Json.canonicalItems values) ∧
      Json.readItems depth fuel (replaceSurrogates cs) = some (values, replaceSurrogates rest)
  | 0, _, _, _, _, h, _ => by cases h
  | fuel + 1, depth, cs, rest, items, h, integral => by
    obtain ⟨v, after, read, go⟩ := Json.readItems_succ_iff.mp h
    rcases go with ⟨shut, rfl⟩ | ⟨more, tail, comma, again, rfl⟩
    · obtain ⟨literal, w, found, denotes, reread⟩ :=
        literal_of_read read integral.1 (cutsOff_of_mark shut rfl)
      refine ⟨[literal], [w], ?_, by rw [itemsToJson, denotes]; rfl, ?_⟩
      · exact items?_succ_iff.mpr
          ⟨literal, after, found, .inl ⟨.inl (skip_of_skipBlanks shut (by decide)), rfl⟩⟩
      · exact Json.readItems_succ_iff.mpr ⟨w, _, reread, .inl ⟨Json.skipBlanks_replaced shut (by decide), rfl⟩⟩
    · obtain ⟨literal, w, found, denotes, reread⟩ :=
        literal_of_read read integral.1 (cutsOff_of_mark comma rfl)
      obtain ⟨literals, values, others, denote, reread'⟩ := items_of_readItems again integral.2
      refine ⟨literal :: literals, w :: values, ?_, by rw [itemsToJson, denotes, denote]; rfl, ?_⟩
      · obtain ⟨c, next, begins, slash, other, -⟩ := Json.exists_of_readItems again
        have on : Continues ']' after (skip more) := by
          refine ⟨more, skip_of_skipBlanks comma (by decide), rfl, fun r shut => ?_⟩
          rw [skip_of_skipBlanks begins slash] at shut
          exact other (List.cons.inj shut).1
        exact items?_succ_iff.mpr ⟨literal, after, found, .inr ⟨_, literals, on, others, rfl⟩⟩
      · exact Json.readItems_succ_iff.mpr ⟨w, _, reread,
          .inr ⟨_, values, Json.skipBlanks_replaced comma (by decide), reread', rfl⟩⟩

end

end Literal

open Literal in
/-- **Each JSON text of an object whose numbers are whole and fit 64 bits is a predicate.** It denotes the
object, a later field having taken the place of one with the same key, if no surrogate is escaped in it. In
general it denotes the object that JSON has once each escaped surrogate is replaced by U+FFFD. -/
theorem Predicate.parse_of_denotes {text : String} {fields : List (String × Json)}
    (valid : Json.Denotes text.toList (.object fields)) (integral : (Json.object fields).Integral) :
    ∃ replaced p, Json.Denotes (replaceSurrogates text.toList) (.object replaced) ∧
      (replaceSurrogates text.toList = text.toList → replaced = fields) ∧
      Predicate.parse text = .ok p ∧ p.toJson = (Json.object replaced).canonical := by
  obtain ⟨depth, fuel, rest, read, shut⟩ := id valid
  have cut : CutsOff rest := cutsOff_of_skipBlanks (shut ▸ nofun)
  obtain ⟨literal, w, found, denotes, again⟩ := literal_of_read read integral cut
  obtain ⟨inner, brace⟩ := Json.exists_brace_of_read read
  have settled : skip text.toList = '{' :: inner := skip_of_skipBlanks brace (by decide)
  obtain ⟨pairs, rfl⟩ : ∃ pairs, literal = .object pairs := by
    rw [settled] at found
    match fuel with
    | fuel + 1 => exact (value?_brace_iff.mp found).elim (fun h => ⟨_, h.2⟩) fun ⟨pairs, h⟩ => ⟨pairs, h.2.2⟩
  rw [Literal.toJson] at denotes
  obtain ⟨values, converted, same⟩ := map_ok_iff.mp denotes
  obtain ⟨replaced, rfl⟩ : ∃ replaced, w = .object replaced := by
    cases w with
    | object replaced => exact ⟨replaced, rfl⟩
    | _ => cases same
  have shut' : Json.skipBlanks (replaceSurrogates rest) = [] := by
    rw [Json.skipBlanks_replaceSurrogates, shut]
    rfl
  have blocks : blocks? text.toList = some [pairs] :=
    blocks?_eq_some_iff.mpr ⟨rest, .last (object?_eq_some_iff.mpr found), by rw [← skip_skipBlanks, shut]; rfl⟩
  have laid : predicateOf .any ([] ++ [pairs]) = .ok (Predicate.any.merge values) :=
    Selector.predicateOf_concat converted rfl
  have parsed : Predicate.parse (String.ofList text.toList) = .ok (Predicate.any.merge values) :=
    Selector.predicate_ok_iff.mpr ⟨_, blocks, laid⟩
  rw [String.ofList_toList] at parsed
  have denoted : Json.Denotes (replaceSurrogates text.toList) (.object replaced) :=
    ⟨depth, fuel, _, again, shut'⟩
  refine ⟨replaced, _, denoted, fun plain => ?_, parsed, same⟩
  rw [plain] at denoted
  exact Json.object.inj (denoted.unique valid)

/-- Blanks, escapes, a key twice, and the least number that fits 64 bits. -/
def escapedProps : String :=
  " \x7b\"b\": [1, true, \x7b \x7d],\n\t\"\\u00e9\\/\": \"\\ud83d\\ude00\\n\",\"b\" :-9223372036854775808\x7d "

theorem Predicate.parse_of_denotes_escaped :
    Json.Denotes escapedProps.toList (.object [("b", .array [.ofInt 1, .bool true, .object []]),
      ("é/", .string "😀\n"), ("b", .ofInt (-9223372036854775808))]) ∧
    Predicate.parse escapedProps = .ok ⟨[("b", .ofInt (-9223372036854775808)),
      ("é/", .string "\uFFFD\uFFFD\n")]⟩ := by
  have valid : Json.Denotes escapedProps.toList (.object [("b", .array [.ofInt 1, .bool true, .object []]),
      ("é/", .string "😀\n"), ("b", .ofInt (-9223372036854775808))]) :=
    Json.denotes_of_parse (by decide +kernel)
  obtain ⟨replaced, p, again, -, parsed, same⟩ :=
    Predicate.parse_of_denotes valid ⟨⟨rfl, trivial, trivial, trivial⟩, trivial, rfl, trivial⟩
  have units : Json.Denotes (replaceSurrogates escapedProps.toList) (.object [("b", .array [.ofInt 1,
      .bool true, .object []]), ("é/", .string "\uFFFD\uFFFD\n"), ("b", .ofInt (-9223372036854775808))]) := by
    rw [← String.toList_ofList (l := replaceSurrogates _)]
    exact Json.denotes_of_parse (by decide +kernel)
  rw [again.unique units] at same
  have fields : p.fields = [("b", .ofInt (-9223372036854775808)), ("é/", .string "\uFFFD\uFFFD\n")] :=
    Json.object.inj (same.trans (by decide +kernel))
  exact ⟨valid, by rw [parsed, ← fields]⟩

/-- A character outside the basic plane, written as two escaped surrogates, is two replacement characters to
a predicate, and the predicate is not the object that the text denotes in JSON. -/
theorem Predicate.parse_surrogates :
    Json.parse? "\x7b\"a\": \"\\ud83d\\ude00\"\x7d" = some (.object [("a", .string "😀")]) ∧
    Predicate.parse "\x7b\"a\": \"\\ud83d\\ude00\"\x7d" = .ok ⟨[("a", .string "\uFFFD\uFFFD")]⟩ ∧
    ¬∀ text fields, Json.Denotes text.toList (.object fields) → (Json.object fields).Integral →
      ∃ p, Predicate.parse text = .ok p ∧ p.toJson = (Json.object fields).canonical := by
  have read : Json.parse? "\x7b\"a\": \"\\ud83d\\ude00\"\x7d" = some (.object [("a", .string "😀")]) := by
    decide +kernel
  have parsed : Predicate.parse "\x7b\"a\": \"\\ud83d\\ude00\"\x7d" =
      .ok ⟨[("a", .string "\uFFFD\uFFFD")]⟩ := toOption_some_iff.mp (by decide +kernel)
  refine ⟨read, parsed, fun superset => ?_⟩
  obtain ⟨p, same, denotes⟩ := superset _ _ (Json.denotes_of_parse read) ⟨trivial, trivial⟩
  rw [parsed] at same
  cases same
  revert denotes
  decide +kernel

end PageQuery
