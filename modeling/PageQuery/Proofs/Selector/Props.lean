/-
# Props laid over a selector

Props are laid over the last component of a selector by writing them as one more block behind it. The block
belongs to the last token unless the selector ends in a backslash, which would escape its brace; and it is
one more object of that token's predicate unless a comment or a regular expression before it reaches into
it. Otherwise the selector is as before, its last predicate with the props laid over. Read by itself, the
block is the predicate of the props.

Key definitions: `Selector.lastBlocks`.
Key theorems: `tokenizeChars_behind`, `Selector.componentOf_behind`, `Selector.parse_withProps`,
`Predicate.parse_compact`.
-/
import PageQuery.Proofs.Selector.Written
import Mathlib.Data.List.DropRight

namespace PageQuery

/-! ### What a text leaves open -/

theorem leavesEscape_append : ∀ (escaped : Bool) (a b : List Char),
    leavesEscape escaped (a ++ b) = leavesEscape (leavesEscape escaped a) b
  | _, [], _ => rfl
  | escaped, c :: a, b => leavesEscape_append (!escaped && c = '\\') a b

theorem leavesEscape_cons {c : Char} (escape : c ≠ '\\') (rest : List Char) :
    leavesEscape false (c :: rest) = leavesEscape false rest := by
  simp [leavesEscape, escape]

theorem leavesEscape_of_blank : ∀ {blanks : List Char}, AllBlank blanks → leavesEscape false blanks = false
  | [], _ => rfl
  | c :: blanks, h => by
    obtain ⟨blank, h⟩ := List.forall_mem_cons.mp h
    have escape : c ≠ '\\' := by rintro rfl; revert blank; decide
    rw [leavesEscape_cons escape, leavesEscape_of_blank h]

theorem Quoted.leavesEscape {q : Char} {body : List Char} (h : Quoted q body) :
    leavesEscape false body = false := by
  induction h with
  | nil => rfl
  | plain escape _ _ ih => rw [leavesEscape_cons escape, ih]
  | escaped c _ ih => exact ih

/-- A group leaves no escape open. -/
theorem Grouped.leavesEscape {inside : Bool} {text : List Char} (h : Grouped inside text) :
    leavesEscape false text = false := by
  induction h with
  | nil => rfl
  | plain free _ _ ih => rw [leavesEscape_cons fun escape => free (by rw [escape]; decide), ih]
  | escaped c _ ih => exact ih
  | quoted quote body _ ih =>
    have escape : ∀ q, q = '"' ∨ q = '\'' → q ≠ '\\' := by rintro q (rfl | rfl) <;> decide
    rw [leavesEscape_cons (escape _ quote), leavesEscape_append, body.leavesEscape,
      leavesEscape_cons (escape _ quote), ih]
  | @bracketed _ opener closer body rest pair _ _ inner ih =>
    have escape : opener ≠ '\\' ∧ closer ≠ '\\' := by
      rcases bracket_cases pair with ⟨rfl, rfl⟩ | ⟨rfl, rfl⟩ | ⟨rfl, rfl⟩ <;> decide
    rw [leavesEscape_cons escape.1, leavesEscape_append, inner, leavesEscape_cons escape.2, ih]

/-! ### The last token -/

theorem trimEnd_append_blank (text : List Char) {blanks : List Char} (h : AllBlank blanks) :
    trimEnd (text ++ blanks) = trimEnd text := by
  unfold trimEnd
  rw [List.reverse_append, List.dropWhile_append_of_pos fun c hc => h c (List.mem_reverse.mp hc)]

theorem trimEnd_append_solid (text : List Char) {c : Char} (h : isBlankChar c = false) :
    trimEnd (text ++ [c]) = text ++ [c] := by
  simp [trimEnd, h]

@[simp] theorem layOut_concat (front : List (List Char × List Char)) (token blanks : List Char) :
    layOut (front ++ [(token, blanks)]) = layOut front ++ (token ++ blanks) := by
  simp [layOut]

/-- The tokens in front of the last one leave nothing open, and any other token may stand in its place. -/
theorem Spaced.exists_last {rows : List (List Char × List Char)} (h : Spaced rows) (some : rows ≠ []) :
    ∃ front token blanks, rows = front ++ [(token, blanks)] ∧ AllBlank blanks ∧
      leavesEscape false (layOut front) = false ∧
      ((token ≠ [] ∧ Grouped false token) ∨ ∃ text, token = text ++ ['\\'] ∧ Grouped false text) ∧
      ∀ other, other ≠ [] → Grouped false other → Spaced (front ++ [(other, [])]) := by
  induction h with
  | nil => exact absurd rfl some
  | @last token blanks nonempty grouped blank =>
    exact ⟨[], token, blanks, rfl, blank, rfl, .inl ⟨nonempty, grouped⟩,
      fun _ some grouped => .last some grouped nofun⟩
  | @escape text grouped =>
    exact ⟨[], _, [], rfl, nofun, rfl, .inr ⟨text, rfl, grouped⟩,
      fun _ some grouped => .last some grouped nofun⟩
  | @cons token blanks row rows nonempty grouped apart blank _ ih =>
    obtain ⟨front, last, behind, split, blank', closed, kind, others⟩ := ih (List.cons_ne_nil _ _)
    refine ⟨(token, blanks) :: front, last, behind, by rw [split, List.cons_append], blank', ?_, kind,
      fun other some grouped' => ?_⟩
    · have text : layOut ((token, blanks) :: front) = token ++ (blanks ++ layOut front) := by simp [layOut]
      rw [text, leavesEscape_append, grouped.leavesEscape, leavesEscape_append, leavesEscape_of_blank blank,
        closed]
    · have again := others other some grouped'
      obtain ⟨next, more, same⟩ := List.exists_cons_of_ne_nil (List.append_ne_nil_of_right_ne_nil front
        (List.cons_ne_nil (other, ([] : List Char)) []))
      rw [List.cons_append, same]
      rw [same] at again
      exact .cons nonempty grouped apart blank again

/-- Without the blanks at its end a text ends in its last token, or in a backslash which escapes nothing. -/
theorem trimEnd_last {text token blanks : List Char} (closed : leavesEscape false text = false)
    (blank : AllBlank blanks)
    (kind : (token ≠ [] ∧ Grouped false token) ∨ ∃ text, token = text ++ ['\\'] ∧ Grouped false text)
    (free : leavesEscape false (trimEnd (text ++ (token ++ blanks))) = false) :
    trimEnd (text ++ (token ++ blanks)) = text ++ token ∧ token ≠ [] ∧ Grouped false token := by
  have escapes {front : List Char} (grouped : Grouped false front) :
      leavesEscape false (trimEnd (text ++ front ++ ['\\'])) = true := by
    rw [trimEnd_append_solid _ (by decide), leavesEscape_append, leavesEscape_append, closed,
      grouped.leavesEscape]
    rfl
  rw [← List.append_assoc, trimEnd_append_blank _ blank] at free ⊢
  rcases kind with ⟨some, grouped⟩ | ⟨front, rfl, grouped⟩
  · obtain ⟨front, c, rfl⟩ : ∃ front c, token = front ++ [c] :=
      ⟨token.dropLast, token.getLast some, (List.dropLast_concat_getLast some).symm⟩
    by_cases solid : isBlankChar c = false
    · exact ⟨by rw [← List.append_assoc, trimEnd_append_solid _ solid], some, grouped⟩
    · -- a blank at the end of a token is escaped, and is trimmed with the rest
      have blank : isBlankChar c = true := by simpa using solid
      obtain ⟨before, inner, escaped | ⟨_, _, more, _, _, _, none, _⟩⟩ := grouped.sheltered rfl blank
      · subst escaped
        rw [← List.append_assoc, trimEnd_append_blank _ (List.forall_mem_singleton.mpr blank),
          ← List.append_assoc, escapes inner] at free
        cases free
      · simp at none
  · rw [← List.append_assoc, escapes grouped] at free
    cases free

/-- **What is written behind a text without its last blanks belongs to the last token.** -/
theorem tokenizeChars_behind {text block : List Char} {tokens : List (List Char)}
    (h : tokenizeChars text = .ok tokens) (some : tokens ≠ [])
    (free : leavesEscape false (trimEnd text) = false) (grouped : Grouped false block) :
    ∃ front last, tokens = front ++ [last] ∧
      tokenizeChars (trimEnd text ++ block) = .ok (front ++ [last ++ block]) := by
  obtain ⟨lead, rows, rfl, blank, spaced, rfl⟩ := tokenizeChars_ok_iff.mp h
  obtain ⟨front, token, blanks, rfl, behind, closed, kind, others⟩ :=
    spaced.exists_last fun none => some (by rw [none, List.map_nil])
  have before : leavesEscape false (lead ++ layOut front) = false := by
    rw [leavesEscape_append, leavesEscape_of_blank blank, closed]
  rw [layOut_concat, ← List.append_assoc] at free ⊢
  obtain ⟨trimmed, nonempty, last⟩ := trimEnd_last before behind kind free
  refine ⟨front.map Prod.fst, token, by simp, ?_⟩
  refine tokenizeChars_ok_iff.mpr ⟨lead, front ++ [(token ++ block, [])], ?_, blank,
    others _ (List.append_ne_nil_of_left_ne_nil nonempty block) (last.append grouped), by simp⟩
  rw [trimmed, layOut_concat]
  simp

namespace Selector

/-! ### The last segment -/

/-- What stands in the last token of a selector from the first brace on: the blocks of its component. -/
def lastBlocks (text : String) : List Char :=
  match tokenizeChars text.toList with
  | .ok tokens => (tokens.getLast?.getD []).dropWhile (· ≠ '{')
  | .error _ => []

/-- Tokens that end in a component are some tokens and the component's. -/
theorem segmentsFrom_marked_last {front : List (List Char)} {body : List Char} {segments : List Segment} :
    segmentsFrom [] (front ++ [componentMark :: body]) = .ok segments ↔ ∃ first query,
      segmentsFrom [] front = .ok first ∧ componentOf (componentMark :: body) body = .ok query ∧
        segments = first ++ [.component query] := by
  rw [segmentsFrom_append, segmentsFrom_marked]
  have joined (first : List Segment) (query : ComponentQuery) :
      Segment.splice first [.component query] = first ++ [.component query] := splice_eq_append (.inr rfl)
  cases segmentsFrom [] front with
  | error e => simp [Except.bind]
  | ok first =>
    cases componentOf (componentMark :: body) body with
    | error e => simp [Except.bind, Except.map]
    | ok query => simp [Except.bind, Except.map, segmentsFrom, structuralRun, joined, eq_comm]

theorem splice_structural_last (a : List Segment) (x : String) :
    ∃ first y, Segment.splice a [.structural x] = first ++ [.structural y] := by
  rcases List.eq_nil_or_concat a with rfl | ⟨first, segment, rfl⟩
  · exact ⟨[], x, rfl⟩
  · rw [List.concat_eq_append]
    cases segment with
    | structural y => exact ⟨first, _, splice_structural y x [] first⟩
    | component query =>
      exact ⟨first ++ [.component query], x, splice_eq_append (.inl (by simp [Segment.isComponent]))⟩

/-- Where the last segment is a component, the last token is marked. -/
theorem exists_body_of_endsInComponent {front : List (List Char)} {token : List Char} {s : Selector}
    (found : segmentsFrom [] (front ++ [token]) = .ok s.segments) (ends : s.endsInComponent = true) :
    ∃ body, token = componentMark :: body := by
  by_contra plain
  have unmarked : token.head? ≠ some componentMark := fun mark => plain (List.head?_eq_some_iff.mp mark)
  rw [segmentsFrom_append, segmentsFrom_plain unmarked] at found
  cases before : segmentsFrom [] front with
  | error e => rw [before] at found; cases found
  | ok first =>
    rw [before] at found
    obtain ⟨init, y, split⟩ := splice_structural_last first (String.ofList token)
    have same : s.segments = init ++ [.structural y] := (Except.ok.inj found).symm.trans split
    rw [endsInComponent_eq, same] at ends
    simp [Segment.isComponent] at ends

/-! ### The last predicate -/

/-- The objects behind some others are laid over the predicate of these. -/
theorem predicateOf_append {more : List (List (String × Literal))} :
    ∀ {blocks : List (List (String × Literal))} {p q : Predicate},
      Literal.predicateOf p blocks = .ok q → Literal.predicateOf p (blocks ++ more) = Literal.predicateOf q more
  | [], p, q, h => by
    cases h
    rfl
  | block :: blocks, p, q, h => by
    rw [Literal.predicateOf] at h
    rw [List.cons_append, Literal.predicateOf]
    cases first : Literal.pairsToJson block with
    | error e => rw [first] at h; cases h
    | ok fields => rw [first] at h; exact predicateOf_append h

theorem predicateOf_concat {fields : List (String × Json)} {pairs : List (String × Literal)}
    (values : Literal.pairsToJson pairs = .ok fields) {blocks : List (List (String × Literal))}
    {p q : Predicate} (h : Literal.predicateOf p blocks = .ok q) :
    Literal.predicateOf p (blocks ++ [pairs]) = .ok (q.merge fields) := by
  rw [predicateOf_append h, Literal.predicateOf, values]
  rfl

theorem predicate_ok_iff {cs : List Char} {p : Predicate} : Predicate.parse (String.ofList cs) = .ok p ↔
    ∃ blocks, Literal.blocks? cs = some blocks ∧ Literal.predicateOf .any blocks = .ok p := by
  unfold Predicate.parse Predicate.parseChars
  rw [String.toList_ofList]
  cases Literal.blocks? cs with
  | none => simp
  | some blocks => cases denotes : Literal.predicateOf .any blocks <;> simp [denotes]

/-- A text of one block denotes its fields. -/
theorem predicate_of_block {m : List Char} {fields : List (String × Json)} {pairs : List (String × Literal)}
    (values : Literal.pairsToJson pairs = .ok fields)
    (block : ∀ k, m.length + 1 < k → Literal.object? k ('{' :: m) = some (pairs, [])) :
    Predicate.parse (String.ofList ('{' :: m)) = .ok (Predicate.any.merge fields) := by
  have alone : Literal.blocks? ('{' :: m) = some [pairs] := by
    rw [Literal.blocks?, Literal.skip_brace, Literal.blocksFrom?,
      block _ (by simp only [List.length_cons]; omega)]
    rfl
  have laid : Literal.predicateOf .any ([] ++ [pairs]) = .ok (Predicate.any.merge fields) :=
    predicateOf_concat values rfl
  exact predicate_ok_iff.mpr ⟨_, alone, laid⟩

/-- **A block behind a component lays its fields over the predicate**, if no comment and no regular
expression of the component reaches into it. -/
theorem componentOf_behind {token body m : List Char} {query : ComponentQuery} {fields : List (String × Json)}
    {pairs : List (String × Literal)} (h : componentOf token body = .ok query)
    (spared : Literal.Spared (body.dropWhile (· ≠ '{')) m) (values : Literal.pairsToJson pairs = .ok fields)
    (block : ∀ k, m.length + 1 < k → Literal.object? k ('{' :: m) = some (pairs, [])) (other : List Char) :
    componentOf other (body ++ '{' :: m) = .ok ⟨query.name, query.predicate.merge fields⟩ := by
  unfold componentOf at h ⊢
  rw [Literal.takeWhile_brace_behind (by decide), Literal.dropWhile_brace_behind (by decide)]
  dsimp only at h ⊢
  generalize body.takeWhile (· ≠ '{') = name at *
  generalize body.dropWhile (· ≠ '{') = blocks at *
  have some : ¬(blocks ++ '{' :: m).isEmpty = true := by simp
  split at h
  · cases h
  next named =>
  rw [if_neg named, if_neg some]
  split at h
  · next none =>
    cases h
    obtain rfl := List.isEmpty_iff.mp none
    rw [List.nil_append, predicate_of_block values block]
    rfl
  · obtain ⟨p, denotes, rfl⟩ := map_ok_iff.mp h
    obtain ⟨read, found, laid⟩ := predicate_ok_iff.mp denotes
    have behind : Predicate.parse (String.ofList (blocks ++ '{' :: m)) = .ok (p.merge fields) :=
      predicate_ok_iff.mpr ⟨_, Literal.blocks?_append found spared block, predicateOf_concat values laid⟩
    rw [behind]
    rfl

/-- **Props are laid over the last component.** The text with the props behind it parses, unless the selector
ends in a backslash that escapes nothing, or a comment or a regular expression of its last blocks reaches
into the props. Its segments are those of the selector, the last predicate with the props laid over, so that
a key of the props has their value and any other the one it had. -/
theorem parse_withProps {text : String} {s : Selector} {props : List (String × Json)}
    (parsed : parse text = .ok s) (ends : s.endsInComponent = true)
    (canonical : (Json.object props).IsCanonical) (integral : (Json.object props).Integral)
    (free : leavesEscape false (trimEnd text.toList) = false)
    (spared : ∀ aside ∈ Literal.asides (lastBlocks text), Literal.Spares aside (Json.object props).chars) :
    ∃ joined first query, withProps text props = .ok joined ∧ s.segments = first ++ [.component query] ∧
      parse joined = .ok ⟨joined, first ++ [.component ⟨query.name, query.predicate.merge props⟩]⟩ ∧
      ∀ key, Fields.find? key (query.predicate.merge props).fields =
        (Fields.find? key props).or (Fields.find? key query.predicate.fields) := by
  obtain ⟨-, tokens, split, some, found⟩ := parse_ok_iff.mp parsed
  obtain ⟨front, last, rfl, behind⟩ :=
    tokenizeChars_behind split some free ((Json.object props).grouped_chars integral)
  obtain ⟨body, rfl⟩ := exists_body_of_endsInComponent found ends
  obtain ⟨first, query, before, component, segments⟩ := segmentsFrom_marked_last.mp found
  obtain ⟨pairs, values, read⟩ := Literal.object?_chars canonical integral
  have blocks : lastBlocks text = body.dropWhile (· ≠ '{') := by
    simp [lastBlocks, split, componentMark]
  rw [blocks] at spared
  let joined := String.ofList (trimEnd text.toList ++ (Json.object props).chars)
  have written : withProps text props = .ok joined := by
    rw [withProps, parsed]
    exact if_pos ends
  have tokens : tokenizeChars joined.toList =
      .ok (front ++ [componentMark :: (body ++ (Json.object props).chars)]) := by
    rw [String.toList_ofList]
    exact behind
  have laid : segmentsFrom [] (front ++ [componentMark :: (body ++ (Json.object props).chars)]) =
      .ok (first ++ [.component ⟨query.name, query.predicate.merge props⟩]) :=
    segmentsFrom_marked_last.mpr ⟨first, _, before,
      componentOf_behind component spared values (fun k enough => read k (Nat.le_of_lt enough)) _, rfl⟩
  exact ⟨joined, first, query, written, segments, parse_ok_iff.mpr ⟨rfl, _, tokens, by simp, laid⟩,
    fun key => Fields.find?_putAll key canonical.1⟩

/-- Two blocks with a regular expression and a comment in the first, and blanks behind the second. -/
def blockedCard : String :=
  "li @Card\x7ba: 1, re: /^x\\/y$/i, /* one */ b: [2]\x7d\x7bc: 'it\\'s'\x7d \t"

/-- Props with a key of each block, and with a closing brace and a quote in a string. -/
def cardProps : List (String × Json) :=
  [("b", .array [.bool true, .ofInt (-5)]), ("c", .string "\x7d\"")]

theorem parse_withProps_card : ∃ joined, withProps blockedCard cardProps = .ok joined ∧
    parse joined = .ok ⟨joined, [.structural "li", .component ⟨"Card", ⟨[("a", .ofInt 1),
      ("b", .array [.bool true, .ofInt (-5)]), ("c", .string "\x7d\""),
      ("re", Literal.regexDocument "^x\\/y$" "i")]⟩⟩]⟩ := by
  have parsed : parse blockedCard = .ok ⟨blockedCard, [.structural "li", .component ⟨"Card",
      ⟨[("a", .ofInt 1), ("b", .array [.ofInt 2]), ("c", .string "it's"),
        ("re", Literal.regexDocument "^x\\/y$" "i")]⟩⟩]⟩ :=
    toOption_some_iff.mp (by decide +kernel)
  have canonical : (Json.object cardProps).IsCanonical :=
    ⟨⟨by decide, trivial⟩, ⟨trivial, trivial, trivial⟩, trivial, trivial⟩
  have integral : (Json.object cardProps).Integral :=
    ⟨⟨trivial, rfl, trivial⟩, trivial, trivial⟩
  obtain ⟨joined, first, query, written, segments, again, -⟩ :=
    parse_withProps parsed rfl canonical integral (by decide +kernel) (by decide +kernel)
  obtain ⟨rfl, last⟩ := List.append_inj' (show [.structural "li"] ++ [_] = first ++ [_] from segments) rfl
  cases last
  exact ⟨joined, written, again⟩

/-- Three props that do not get there. A line comment takes them in, so that nothing is laid over the
predicate. A backslash escapes the opening brace, and the closing one is left over. A regular expression
that begins with a star becomes a comment up to the end of one in the props. -/
theorem parse_withProps_lost :
    (withProps "@A\x7ba: 1\x7d//note" [("a", .ofInt 2)] = .ok "@A\x7ba: 1\x7d//note\x7b\"a\":2\x7d" ∧
      parse "@A\x7ba: 1\x7d//note\x7b\"a\":2\x7d" = .ok ⟨"@A\x7ba: 1\x7d//note\x7b\"a\":2\x7d",
        [.component ⟨"A", ⟨[("a", .ofInt 1)]⟩⟩]⟩) ∧
    (withProps "@A\\" [("a", .ofInt 2)] = .ok "@A\\\x7b\"a\":2\x7d" ∧
      parse "@A\\\x7b\"a\":2\x7d" = .error (.unbalanced "@A\\\x7b\"a\":2\x7d")) ∧
    (withProps "@A\x7ba: /*x/\x7d" [("b", .string "*/")] = .ok "@A\x7ba: /*x/\x7d\x7b\"b\":\"*/\"\x7d" ∧
      ∃ diagnosis, parse "@A\x7ba: /*x/\x7d\x7b\"b\":\"*/\"\x7d" =
        .error (.invalidPredicate "\x7ba: /*x/\x7d\x7b\"b\":\"*/\"\x7d" (.grammar diagnosis))) := by
  refine ⟨by decide +kernel, by decide +kernel, by decide +kernel, ?_⟩
  exact ⟨Literal.diagnose "\x7ba: /*x/\x7d\x7b\"b\":\"*/\"\x7d".toList, by decide +kernel⟩

end Selector

/-- **What is written of an object is read back as it.** -/
theorem Predicate.parse_compact {fields : List (String × Json)} (canonical : (Json.object fields).IsCanonical)
    (integral : (Json.object fields).Integral) :
    Predicate.parse (Json.object fields).compact = .ok ⟨fields⟩ := by
  obtain ⟨pairs, values, read⟩ := Literal.object?_chars canonical integral
  have parsed : Predicate.parse (Json.object fields).compact = .ok (Predicate.any.merge fields) :=
    Selector.predicate_of_block values fun k enough => read k (Nat.le_of_lt enough)
  have same : Predicate.any.merge fields = ⟨fields⟩ :=
    congrArg Predicate.mk (Fields.ofList_of_ascending canonical.1)
  rw [parsed, same]

/-- Keys and strings that look like comments, regular expressions and escapes, and the least number. -/
def markedProps : List (String × Json) :=
  [("", .null), ("a/*b*/", .array [.ofInt (-9223372036854775808),
      .object [("//", .string "it's \"\\u0001\"\n\x01")]]), ("re", .string "/x\x7d/g")]

theorem Predicate.parse_compact_markedProps : (Json.object markedProps).IsCanonical ∧
    (Json.object markedProps).Integral ∧
    Predicate.parse (Json.object markedProps).compact = .ok ⟨markedProps⟩ := by
  have canonical : (Json.object markedProps).IsCanonical :=
    ⟨⟨by decide, by decide, trivial⟩, trivial, ⟨trivial, ⟨trivial, trivial, trivial⟩, trivial⟩,
      trivial, trivial⟩
  have integral : (Json.object markedProps).Integral :=
    ⟨trivial, ⟨rfl, ⟨trivial, trivial⟩, trivial⟩, trivial, trivial⟩
  exact ⟨canonical, integral, Predicate.parse_compact canonical integral⟩

end PageQuery
