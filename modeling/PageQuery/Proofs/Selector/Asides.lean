/-
# Strings, comments and regular expressions in a literal

Two readers go over a predicate block. The grammar of literals knows strings, comments and regular
expressions; the splitter of selectors knows strings and brackets, and takes comments and regular
expressions for any other text. Both end a string at the same quote. What sets them apart are the asides,
the comments and regular expressions of a text.

A reader of the grammar is followed with the whole rest of the text at hand: a part of a text, from one
rest to a later one, has asides of its own, and `Spans` says that it is balanced if they are.

Key definitions: `Literal.Quotes`, `Literal.asides`, `Literal.Spans`.
Key theorems: `Literal.skipFrom_rest`, `Literal.quotes_of_quotedRest`, `Literal.Spans.trans`,
`Literal.Spans.skipped`, `Literal.Spans.bracketed`.
-/
import PageQuery.Proofs.Selector.Balance
import PageQuery.Selector.Literal.Grammar

namespace PageQuery

open TokenState (closerOf? isCloser)

namespace Literal

/-! ### Rests -/

/-- The beginning of a text, up to a rest of it. -/
def readTo (cs rest : List Char) : List Char := cs.take (cs.length - rest.length)

theorem readTo_append {cs rest : List Char} (h : rest <:+ cs) : readTo cs rest ++ rest = cs :=
  List.suffix_iff_eq_append.mp h

theorem suffix_cons {c : Char} {cs rest : List Char} (h : rest <:+ cs) : rest <:+ c :: cs :=
  h.trans (List.suffix_cons c cs)

/-- What is skipped comes off the front, and behind it there is nothing more to skip; or the walk goes
back to where an endless comment begins. -/
theorem skipFrom_rest (mode : Filler) (cs : List Char) :
    (skipFrom mode cs <:+ cs ∧ skip (skipFrom mode cs) = skipFrom mode cs) ∨
      ∃ start, mode = .blockComment start ∧ skipFrom mode cs = start := by
  fun_induction skipFrom mode cs with
  | case1 rest ih =>
    -- a comment that does not end is none, and what looks like one is left in place
    rcases ih with ⟨behind, settled⟩ | ⟨start, same, back⟩
    · exact .inl ⟨suffix_cons (suffix_cons behind), settled⟩
    · cases same
      rw [back]
      exact .inl ⟨List.suffix_rfl, by rw [skip, skipFrom, back]⟩
  | case2 rest ih =>
    exact .inl ((ih.resolve_right nofun).imp_left fun behind => suffix_cons (suffix_cons behind))
  | case3 c rest _ _ _ ih => exact .inl ((ih.resolve_right nofun).imp_left suffix_cons)
  | case4 c rest block line solid =>
    refine .inl ⟨List.suffix_rfl, ?_⟩
    rw [skip, skipFrom, if_neg solid]
    · exact block
    · exact line
  | case5 => exact .inl ⟨List.suffix_rfl, rfl⟩
  | case6 rest ih => exact .inl ((ih.resolve_right nofun).imp_left suffix_cons)
  | case7 c rest _ ih => exact .inl ((ih.resolve_right nofun).imp_left suffix_cons)
  | case8 => exact .inl ⟨List.suffix_rfl, rfl⟩
  | case9 start rest ih =>
    exact .inl ((ih.resolve_right nofun).imp_left fun behind => suffix_cons (suffix_cons behind))
  | case10 start c rest _ ih => exact ih.imp_left (And.imp_left suffix_cons)
  | case11 start => exact .inr ⟨start, rfl, rfl⟩

theorem skip_suffix (cs : List Char) : skip cs <:+ cs :=
  ((skipFrom_rest .blanks cs).resolve_right nofun).1

@[simp] theorem skip_skip (cs : List Char) : skip (skip cs) = skip cs :=
  ((skipFrom_rest .blanks cs).resolve_right nofun).2

theorem skip_cons_of_not_slash {c : Char} (h : c ≠ '/') (rest : List Char) :
    skip (c :: rest) = if isBlank c then skip rest else c :: rest := by
  rw [skip, skipFrom]
  · rfl
  · exact fun _ e => absurd e h
  · exact fun _ e => absurd e h

@[simp] theorem regexBody_append (cs : List Char) : (regexBody cs).1 ++ (regexBody cs).2 = cs := by
  fun_induction regexBody cs <;> simp_all

theorem regexRest_suffix {cs rest : List Char} {v : Literal} (h : regexRest cs = some (v, rest)) :
    rest <:+ cs := by
  have parts := regexBody_append cs
  unfold regexRest at h
  split at h
  · cases h
  · next body behind _ body' =>
    cases h
    rw [body'] at parts
    exact (List.dropWhile_suffix _).trans ⟨body ++ ['/'], by simpa using parts⟩
  · cases h

/-! ### Characters without a meaning of their own -/

/-- The characters that open, close or escape something for the splitter, and the slash. -/
def marks : List Char := ['"', '\'', '\\', '/', '(', '[', '{', ')', ']', '}']

/-- A character of a class without marks is no mark. -/
theorem not_mem_marks {p : Char → Bool} (none : marks.any p = false) {c : Char} (h : p c = true) :
    c ∉ marks :=
  fun mark => by simp [List.any_eq_false.mp none c mark] at h

theorem not_mem_marks_of_hexValue {c : Char} {n : Nat} (h : hexValue? c = some n) : c ∉ marks :=
  not_mem_marks (p := fun c => (hexValue? c).isSome) (by decide) (Option.isSome_of_eq_some h)

theorem balanced_of_plain : ∀ {text : List Char}, (∀ c ∈ text, c ∉ marks) → Balanced text
  | [], _ => .nil
  | c :: text, h => by
    obtain ⟨plain, h⟩ := List.forall_mem_cons.mp h
    simp only [marks, List.mem_cons, List.not_mem_nil, or_false, not_or] at plain
    have first : Balanced [c] := .singleton ⟨plain.1, plain.2.1⟩ plain.2.2.1
      (by simp [closerOf?, plain]) (by simp [isCloser, plain])
    exact first.append (balanced_of_plain h)

/-! ### Quoted strings -/

/-- A walk that starts in an open quote and ends behind it. -/
def Quotes (q : Char) (cs rest : List Char) : Prop :=
  ∃ read, cs = read ++ rest ∧ ∀ token closers, TokenState.run? ⟨token, closers, some q, false⟩ read =
    some ⟨read.reverse ++ token, closers, none, false⟩

namespace Quotes

variable {q : Char} {rest : List Char}

theorem close (escape : q ≠ '\\') (rest : List Char) : Quotes q (q :: rest) rest :=
  ⟨[q], rfl, fun token closers => by simp [TokenState.run?, TokenState.step?, TokenState.add, escape]⟩

theorem plain {c : Char} (escape : c ≠ '\\') (inner : c ≠ q) {cs : List Char} (h : Quotes q cs rest) :
    Quotes q (c :: cs) rest := by
  obtain ⟨read, rfl, run⟩ := h
  refine ⟨c :: read, rfl, fun token closers => ?_⟩
  simp [TokenState.run?, TokenState.step?, TokenState.add, escape, inner, run]

theorem escaped (c : Char) {cs : List Char} (h : Quotes q cs rest) : Quotes q ('\\' :: c :: cs) rest := by
  obtain ⟨read, rfl, run⟩ := h
  refine ⟨'\\' :: c :: read, rfl, fun token closers => ?_⟩
  simp [TokenState.run?, TokenState.step?, TokenState.add, run]

end Quotes

theorem not_mem_marks_of_hexQuad {a b c d : Char} {unit : Nat} (h : hexQuad? a b c d = some unit) :
    ∀ digit ∈ [a, b, c, d], digit ∉ marks := by
  simp only [hexQuad?, bind, Option.bind_eq_some_iff] at h
  obtain ⟨_, ha, _, hb, _, hc, _, hd, -⟩ := h
  simp [not_mem_marks_of_hexValue ha, not_mem_marks_of_hexValue hb, not_mem_marks_of_hexValue hc,
    not_mem_marks_of_hexValue hd]

/-- Both readers find the end of a string at the same quote. -/
theorem quotes_of_quotedRest {q : Char} (quote : q = '"' ∨ q = '\'') {cs : List Char} :
    ∀ {value rest : List Char}, quotedRest q cs = some (value, rest) → Quotes q cs rest := by
  have mark : q ∈ marks ∧ q ≠ '\\' := by rcases quote with rfl | rfl <;> decide
  fun_induction quotedRest q cs with
  | case1 => exact nofun
  | case2 => exact nofun
  | case3 a b c d behind unit digits ih =>
    intro value rest h
    obtain ⟨⟨inner, _⟩, h, same⟩ := Option.map_eq_some_iff.mp h
    cases same
    -- the splitter takes only the `u` for escaped, so the digits must not end the string
    have inside : ∀ digit ∈ [a, b, c, d], digit ≠ '\\' ∧ digit ≠ q := fun digit hd =>
      have plain := not_mem_marks_of_hexQuad digits digit hd
      ⟨fun e => plain (e ▸ by decide), fun e => plain (e ▸ mark.1)⟩
    have after := ih h
    simp only [List.forall_mem_cons] at inside
    obtain ⟨ha, hb, hc, hd, -⟩ := inside
    exact .escaped 'u' (.plain ha.1 ha.2 (.plain hb.1 hb.2 (.plain hc.1 hc.2 (.plain hd.1 hd.2 after))))
  | case4 => exact nofun
  | case5 c behind _ e _ ih =>
    intro value rest h
    obtain ⟨⟨inner, _⟩, h, same⟩ := Option.map_eq_some_iff.mp h
    cases same
    exact .escaped c (ih h)
  | case6 => exact nofun
  | case7 behind =>
    intro value rest h
    cases h
    exact .close mark.2 behind
  | case8 c behind _ _ plain inner ih =>
    intro value rest h
    obtain ⟨⟨inner, _⟩, h, same⟩ := Option.map_eq_some_iff.mp h
    cases same
    exact .plain plain ‹_› (ih h)

/-! ### Asides -/

/-- What follows the first lexeme of a text: a string, a run of comments, a regular expression, or else
one character. -/
def behindLexeme (c : Char) (rest : List Char) : List Char :=
  if c = '"' ∨ c = '\'' then ((quotedRest c rest).map Prod.snd).getD rest
  else if c = '/' then
    if skip (c :: rest) = c :: rest then ((regexRest rest).map Prod.snd).getD rest else skip (c :: rest)
  else rest

theorem behindLexeme_suffix (c : Char) (rest : List Char) : behindLexeme c rest <:+ rest := by
  unfold behindLexeme
  split
  · next quote =>
    cases h : quotedRest c rest with
    | none => exact List.suffix_rfl
    | some read =>
      obtain ⟨inner, rfl, -⟩ := quotes_of_quotedRest quote h
      exact List.suffix_append ..
  · split
    · split
      · cases h : regexRest rest with
        | none => exact List.suffix_rfl
        | some read => exact regexRest_suffix h
      · next more => exact (List.suffix_cons_iff.mp (skip_suffix (c :: rest))).resolve_left more
    · exact List.suffix_rfl

/-- The comments and regular expressions of a text, each from its slash on. Comments with nothing but
blanks between them are one. -/
def asides : List Char → List (List Char)
  | [] => []
  | c :: rest =>
    (if c = '/' then [readTo (c :: rest) (behindLexeme c rest)] else []) ++ asides (behindLexeme c rest)
  termination_by cs => cs.length
  decreasing_by exact Nat.lt_succ_of_le (behindLexeme_suffix c rest).length_le

/-- The part of a text up to a rest of it keeps the splitter's balance if its comments and regular
expressions do. -/
def Spans (cs rest : List Char) : Prop :=
  ∃ read found, cs = read ++ rest ∧ asides cs = found ++ asides rest ∧
    ((∀ aside ∈ found, Balanced aside) → Balanced read)

namespace Spans

variable {cs mid rest : List Char}

theorem refl (cs : List Char) : Spans cs cs := ⟨[], [], rfl, rfl, fun _ => .nil⟩

theorem trans (h : Spans cs mid) (h' : Spans mid rest) : Spans cs rest := by
  obtain ⟨a, found, rfl, aside, ha⟩ := h
  obtain ⟨b, found', rfl, aside', hb⟩ := h'
  refine ⟨a ++ b, found ++ found', by simp, by rw [aside, aside', List.append_assoc], fun all => ?_⟩
  rw [List.forall_mem_append] at all
  exact (ha all.1).append (hb all.2)

theorem suffix (h : Spans cs rest) : rest <:+ cs := by
  obtain ⟨read, _, rfl, -⟩ := h
  exact List.suffix_append read rest

theorem length_le (h : Spans cs rest) : rest.length ≤ cs.length := h.suffix.length_le

/-- A lexeme without a slash in front. -/
theorem lexeme {c : Char} {read : List Char} (slash : c ≠ '/') (one : behindLexeme c cs = rest)
    (split : c :: cs = read ++ rest) (balanced : Balanced read) : Spans (c :: cs) rest :=
  ⟨read, [], split, by rw [asides, if_neg slash, one], fun _ => balanced⟩

theorem plain {c : Char} (h : c ∉ marks) (rest : List Char) : Spans (c :: rest) rest := by
  have kinds : ¬(c = '"' ∨ c = '\'') ∧ c ≠ '/' := by
    simp only [marks, List.mem_cons, not_or] at h
    exact ⟨not_or.mpr ⟨h.1, h.2.1⟩, h.2.2.2.1⟩
  have one : behindLexeme c rest = rest := by rw [behindLexeme, if_neg kinds.1, if_neg kinds.2]
  exact lexeme kinds.2 one (List.singleton_append).symm (balanced_of_plain (by simpa using h))

theorem plains {read : List Char} (h : ∀ c ∈ read, c ∉ marks) (rest : List Char) :
    Spans (read ++ rest) rest := by
  induction read with
  | nil => exact refl rest
  | cons c read ih =>
    obtain ⟨hc, h⟩ := List.forall_mem_cons.mp h
    exact (plain hc (read ++ rest)).trans (ih h)

/-- A comment or a regular expression. -/
theorem aside (rest : List Char) : Spans ('/' :: rest) (behindLexeme '/' rest) :=
  ⟨_, [_], (readTo_append (suffix_cons (behindLexeme_suffix '/' rest))).symm, by rw [asides, if_pos rfl],
    fun all => all _ (List.mem_singleton_self _)⟩

theorem quoted {q : Char} (quote : q = '"' ∨ q = '\'') {value : List Char}
    (h : quotedRest q cs = some (value, rest)) : Spans (q :: cs) rest := by
  obtain ⟨read, rfl, run⟩ := quotes_of_quotedRest quote h
  have one : behindLexeme q (read ++ rest) = rest := by rw [behindLexeme, if_pos quote, h]; rfl
  have slash : q ≠ '/' := by rcases quote with rfl | rfl <;> decide
  have balanced : Balanced (q :: read) := by
    have opened : TokenState.between.step? q = some ⟨[q], [], some q, false⟩ := by
      rcases quote with rfl | rfl <;> rfl
    rw [Balanced, TokenState.run?, opened, Option.bind_some, run, List.reverse_cons]
  exact lexeme slash one (List.cons_append).symm balanced

/-- Where nothing can be skipped, a slash begins a regular expression. -/
theorem regex {v : Literal} (settled : skip ('/' :: cs) = '/' :: cs) (h : regexRest cs = some (v, rest)) :
    Spans ('/' :: cs) rest := by
  have one : behindLexeme '/' cs = rest := by
    rw [behindLexeme, if_neg (by decide), if_pos rfl, if_pos settled, h]; rfl
  exact one ▸ aside cs

theorem skipped : ∀ cs : List Char, Spans cs (skip cs)
  | [] => refl []
  | c :: rest => by
    by_cases slash : c = '/'
    · subst slash
      by_cases settled : skip ('/' :: rest) = '/' :: rest
      · rw [settled]; exact refl _
      · have one : behindLexeme '/' rest = skip ('/' :: rest) := by
          rw [behindLexeme, if_neg (by decide), if_pos rfl, if_neg settled]
        exact one ▸ aside rest
    · rw [skip_cons_of_not_slash slash]
      split
      · next blank => exact (plain (not_mem_marks (by decide) blank) rest).trans (skipped rest)
      · exact refl _

/-- Brackets around a part whose rest begins at the closing one. -/
theorem bracketed {opener closer : Char} (pair : closerOf? opener = some closer)
    (h : Spans cs (closer :: rest)) : Spans (opener :: cs) rest := by
  obtain ⟨read, found, rfl, asides', balanced⟩ := h
  have kinds : ∀ c ∈ [opener, closer], ¬(c = '"' ∨ c = '\'') ∧ c ≠ '/' := by
    grind
  have one (c : Char) (hc : c ∈ [opener, closer]) (behind : List Char) :
      asides (c :: behind) = asides behind := by
    rw [asides, if_neg (kinds c hc).2, behindLexeme, if_neg (kinds c hc).1, if_neg (kinds c hc).2,
      List.nil_append]
  refine ⟨opener :: (read ++ [closer]), found, by simp, ?_, fun all => (balanced all).bracketed pair⟩
  rw [one opener (by simp), asides', one closer (by simp)]

theorem dropWhile {p : Char → Bool} (none : marks.any p = false) (cs : List Char) :
    Spans cs (cs.dropWhile p) := by
  have all : ∀ c ∈ cs.takeWhile p, c ∉ marks := fun c hc =>
    not_mem_marks none (List.all_eq_true.mp List.all_takeWhile c hc)
  have read := plains all (cs.dropWhile p)
  rwa [List.takeWhile_append_dropWhile] at read

end Spans

end Literal

end PageQuery
