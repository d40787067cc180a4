/-
# Where a selector is split

A token is made of plain characters, escaped characters, quoted strings and bracketed groups, and a
blank is a plain character only inside brackets. This is told by a grammar that knows nothing of the
splitter (`Grouped`). The walk over a text goes along one token for exactly as long as the grammar does,
so the texts that are split are those laid out as tokens with blanks between, and the tokens that are
found are those laid out.

Only the last token may end in a backslash that escapes nothing.

Key definitions: `Quoted`, `Grouped`, `TokenState.along?`, `Spaced`.
Key theorems: `Grouped.along`, `TokenState.finishes_of_along`, `tokenizeChars_ok_iff`,
`tokenize_spaced`.
-/
import PageQuery.Proofs.Selector.Concatenation

namespace PageQuery

/-! ### Tokens -/

/-- The brackets, each with the one that closes it. -/
def brackets : List (Char × Char) := [('(', ')'), ('[', ']'), ('{', '}')]

/-- The characters that quote, escape or bracket. -/
def delimiters : List Char := ['"', '\'', '\\', '(', ')', '[', ']', '{', '}']

theorem bracket_cases {opener closer : Char} (h : (opener, closer) ∈ brackets) :
    (opener = '(' ∧ closer = ')') ∨ (opener = '[' ∧ closer = ']') ∨ (opener = '{' ∧ closer = '}') := by
  simpa [brackets] using h

/-- A character of a class without delimiters is none. -/
theorem not_mem_delimiters {p : Char → Bool} (none : delimiters.any p = false) {c : Char} (h : p c = true) :
    c ∉ delimiters :=
  fun delimiter => by simp [List.any_eq_false.mp none c delimiter] at h

theorem solid_of_delimiter (c : Char) (h : c ∈ delimiters) : isBlankChar c = false :=
  Bool.eq_false_iff.mpr fun blank => not_mem_delimiters (by decide) blank h

/-- What may stand between two quotes `q`: escaped characters and any others but the quote. -/
inductive Quoted (q : Char) : List Char → Prop
  | nil : Quoted q []
  | plain {c : Char} {rest : List Char} : c ≠ '\\' → c ≠ q → Quoted q rest → Quoted q (c :: rest)
  | escaped (c : Char) {rest : List Char} : Quoted q rest → Quoted q ('\\' :: c :: rest)

/-- Plain characters, escaped ones, quoted strings and bracketed groups, one behind another. A blank is
plain only `inside` brackets. -/
inductive Grouped : Bool → List Char → Prop
  | nil {inside : Bool} : Grouped inside []
  | plain {inside : Bool} {c : Char} {rest : List Char} : c ∉ delimiters →
      (inside = true ∨ isBlankChar c = false) → Grouped inside rest → Grouped inside (c :: rest)
  | escaped {inside : Bool} (c : Char) {rest : List Char} : Grouped inside rest →
      Grouped inside ('\\' :: c :: rest)
  | quoted {inside : Bool} {q : Char} {body rest : List Char} : q = '"' ∨ q = '\'' → Quoted q body →
      Grouped inside rest → Grouped inside (q :: (body ++ q :: rest))
  | bracketed {inside : Bool} {opener closer : Char} {body rest : List Char} :
      (opener, closer) ∈ brackets → Grouped true body → Grouped inside rest →
      Grouped inside (opener :: (body ++ closer :: rest))

theorem Grouped.append {inside : Bool} {a b : List Char} (ha : Grouped inside a)
    (hb : Grouped inside b) : Grouped inside (a ++ b) := by
  induction ha with
  | nil => exact hb
  | plain free solid _ ih => exact .plain free solid (ih hb)
  | escaped c _ ih => exact .escaped c (ih hb)
  | quoted quote body _ ih => simpa using Grouped.quoted quote body (ih hb)
  | bracketed pair body _ _ ih => simpa using Grouped.bracketed pair body (ih hb)

/-- Outside brackets a token starts with no blank. -/
theorem Grouped.solid {c : Char} {rest : List Char} (h : Grouped false (c :: rest)) :
    isBlankChar c = false := by
  cases h with
  | plain _ solid _ => exact solid.resolve_left nofun
  | escaped _ _ => exact solid_of_delimiter _ (by decide)
  | quoted quote _ _ => exact solid_of_delimiter c (by rcases quote with rfl | rfl <;> decide)
  | bracketed pair _ _ =>
    exact solid_of_delimiter c (by rcases bracket_cases pair with ⟨rfl, -⟩ | ⟨rfl, -⟩ | ⟨rfl, -⟩ <;> decide)

/-! ### The walk along a token -/

namespace TokenState

/-- The state behind a text that is part of one token; nothing if the text is split or breaks off. -/
def along? : TokenState → List Char → Option TokenState
  | s, [] => some s
  | s, c :: rest => if s.separates c then none else (s.step? c).bind fun next => next.along? rest

theorem along?_append : ∀ (s : TokenState) (a b : List Char),
    s.along? (a ++ b) = (s.along? a).bind fun next => next.along? b
  | _, [], _ => rfl
  | s, c :: a, b => by
    rw [List.cons_append, along?, along?]
    split
    · rfl
    · rw [Option.bind_assoc]
      exact congrArg _ (funext fun next => along?_append next a b)

theorem along?_cons {s next : TokenState} {c : Char} (apart : s.separates c = false)
    (step : s.step? c = some next) (rest : List Char) : s.along? (c :: rest) = next.along? rest := by
  rw [along?, apart, if_neg Bool.false_ne_true, step, Option.bind_some]

/-- What is walked along becomes part of the token begun. -/
theorem tokensFrom_along (rest : List Char) : ∀ {text : List Char} {s last : TokenState},
    s.along? text = some last → tokensFrom s (text ++ rest) = tokensFrom last rest
  | [], _, _, h => by cases h; rfl
  | c :: text, s, last, h => by
    rw [along?] at h
    split at h
    · cases h
    · next inside =>
      obtain ⟨next, step, h⟩ := Option.bind_eq_some_iff.mp h
      rw [List.cons_append, tokensFrom, if_neg inside, step]
      exact tokensFrom_along rest h

theorem token_of_step {s next : TokenState} {c : Char} (h : s.step? c = some next) :
    next.token = c :: s.token := by
  unfold step? add at h
  grind

theorem token_of_along : ∀ {text : List Char} {s last : TokenState}, s.along? text = some last →
    last.token = text.reverse ++ s.token
  | [], _, _, h => by cases h; rfl
  | c :: text, s, last, h => by
    rw [along?] at h
    split at h
    · cases h
    · obtain ⟨next, step, h⟩ := Option.bind_eq_some_iff.mp h
      rw [token_of_along h, token_of_step step]
      simp

theorem not_separates_of_solid {s : TokenState} {c : Char} (h : isBlankChar c = false) :
    s.separates c = false := by
  simp [separates, h]

/-- Nothing is left open but perhaps brackets from before. -/
def settled (token closers : List Char) : TokenState := ⟨token, closers, none, false⟩

end TokenState

open TokenState

/-- The walk along what stands between two quotes ends where the quote is still open. -/
theorem Quoted.along {q : Char} {body : List Char} (h : Quoted q body) (token closers : List Char) :
    along? ⟨token, closers, some q, false⟩ body =
      some ⟨body.reverse ++ token, closers, some q, false⟩ := by
  induction h generalizing token with
  | nil => rfl
  | @plain c rest escape inner _ ih =>
    have step : step? ⟨token, closers, some q, false⟩ c = some ⟨c :: token, closers, some q, false⟩ := by
      simp [step?, add, escape, inner]
    rw [along?_cons rfl step, ih]
    simp
  | @escaped c rest _ ih =>
    have step : step? ⟨'\\' :: token, closers, some q, true⟩ c =
        some ⟨c :: '\\' :: token, closers, some q, false⟩ := rfl
    rw [along?_cons rfl rfl, add, along?_cons rfl step, ih]
    simp

/-- **The walk goes along whatever the grammar takes for part of one token**, in brackets or not. -/
theorem Grouped.along {inside : Bool} {text : List Char} (h : Grouped inside text)
    (token : List Char) {closers : List Char} (within : inside = true → closers ≠ []) :
    (settled token closers).along? text = some (settled (text.reverse ++ token) closers) := by
  induction h generalizing token closers with
  | nil => rfl
  | @plain inside c rest free solid _ ih =>
    simp only [delimiters, List.mem_cons, List.not_mem_nil, or_false, not_or] at free
    have inner : (settled token closers).separates c = false := by
      rcases solid with rfl | solid
      · simp [separates, settled, within]
      · exact not_separates_of_solid solid
    have step : (settled token closers).step? c = some (settled (c :: token) closers) := by
      simp [step?, settled, add, closerOf?, isCloser, free]
    rw [along?_cons inner step, ih _ within]
    simp
  | @escaped inside c rest _ ih =>
    have first : (settled token closers).step? '\\' = some ⟨'\\' :: token, closers, none, true⟩ := rfl
    have second : step? ⟨'\\' :: token, closers, none, true⟩ c =
        some (settled (c :: '\\' :: token) closers) := rfl
    rw [along?_cons (not_separates_of_solid (by decide)) first,
      along?_cons (by simp [separates]) second, ih _ within]
    simp
  | @quoted inside q body rest quote between _ ih =>
    have solid : isBlankChar q = false :=
      solid_of_delimiter q (by rcases quote with rfl | rfl <;> decide)
    have first : (settled token closers).step? q = some ⟨q :: token, closers, some q, false⟩ := by
      rcases quote with rfl | rfl <;> rfl
    have last (token : List Char) :
        step? ⟨token, closers, some q, false⟩ q = some (settled (q :: token) closers) := by
      rcases quote with rfl | rfl <;> rfl
    rw [along?_cons (not_separates_of_solid solid) first, along?_append, between.along,
      Option.bind_some, along?_cons rfl (last _), ih _ within]
    simp
  | @bracketed inside opener closer body rest pair _ _ inner ih =>
    have solid : isBlankChar opener = false ∧ isBlankChar closer = false := by
      rcases bracket_cases pair with ⟨rfl, rfl⟩ | ⟨rfl, rfl⟩ | ⟨rfl, rfl⟩ <;> decide
    have first : (settled token closers).step? opener =
        some (settled (opener :: token) (closer :: closers)) := by
      rcases bracket_cases pair with ⟨rfl, rfl⟩ | ⟨rfl, rfl⟩ | ⟨rfl, rfl⟩ <;> rfl
    have last (token : List Char) : (settled token (closer :: closers)).step? closer =
        some (settled (closer :: token) closers) := by
      rcases bracket_cases pair with ⟨rfl, rfl⟩ | ⟨rfl, rfl⟩ | ⟨rfl, rfl⟩ <;> rfl
    rw [along?_cons (not_separates_of_solid solid.1) first, along?_append,
      inner _ fun _ => List.cons_ne_nil _ _, Option.bind_some,
      along?_cons (not_separates_of_solid solid.2) (last _), ih _ within]
    simp

/-! ### What a walk went along -/

/-- A text that closes brackets, the innermost first, and is then part of a token. -/
def Closes : List Char → List Char → Prop
  | [], text => Grouped false text
  | closer :: outer, text =>
    ∃ inner rest, text = inner ++ closer :: rest ∧ Grouped true inner ∧ Closes outer rest

theorem Closes.prepend {piece text : List Char} : ∀ {closers : List Char}, Closes closers text →
    Grouped (!closers.isEmpty) piece → Closes closers (piece ++ text)
  | [], h, first => first.append h
  | _ :: _, ⟨inner, rest, split, grouped, outer⟩, first =>
    ⟨piece ++ inner, rest, by rw [split, List.append_assoc], first.append grouped, outer⟩

namespace TokenState

/-- All that a step can do where no quote is open. -/
theorem step?_settled_cases {token closers : List Char} {c : Char} {next : TokenState}
    (h : (settled token closers).step? c = some next) :
    ((c = '"' ∨ c = '\'') ∧ next = ⟨c :: token, closers, some c, false⟩) ∨
    (c = '\\' ∧ next = ⟨c :: token, closers, none, true⟩) ∨
    (∃ closer, (c, closer) ∈ brackets ∧ next = settled (c :: token) (closer :: closers)) ∨
    (∃ outer, closers = c :: outer ∧ next = settled (c :: token) outer) ∨
    (c ∉ delimiters ∧ next = settled (c :: token) closers) := by
  simp only [step?, settled, Bool.false_eq_true, if_false] at h
  split at h
  · next quote => exact .inl ⟨quote, (Option.some.inj h).symm⟩
  next unquoted =>
  split at h
  · next escape => exact .inr (.inl ⟨escape, (Option.some.inj h).symm⟩)
  next unescaped =>
  split at h
  · next closer opens =>
    have pair : (c, closer) ∈ brackets := by grind [brackets]
    exact .inr (.inr (.inl ⟨closer, pair, (Option.some.inj h).symm⟩))
  next unopened =>
  split at h
  · split at h
    · next closer outer =>
      split at h
      · next same => exact .inr (.inr (.inr (.inl ⟨outer, same ▸ rfl, (Option.some.inj h).symm⟩)))
      · cases h
    · cases h
  · next unclosed =>
    have free : c ∉ delimiters := by
      simp only [delimiters, List.mem_cons, List.not_mem_nil, or_false]
      grind
    exact .inr (.inr (.inr (.inr ⟨free, (Option.some.inj h).symm⟩)))

/-- All that a step can do inside quotes. -/
theorem step?_quoted_cases {token closers : List Char} {q c : Char} {next : TokenState}
    (h : step? ⟨token, closers, some q, false⟩ c = some next) :
    (c = '\\' ∧ next = ⟨c :: token, closers, some q, true⟩) ∨
    (c = q ∧ next = settled (c :: token) closers) ∨
    (c ≠ '\\' ∧ c ≠ q ∧ next = ⟨c :: token, closers, some q, false⟩) := by
  simp only [step?, settled, add, Bool.false_eq_true, if_false] at h ⊢
  grind

/-- What the text behind a state is if nothing is open at its end. -/
def Finishes (s : TokenState) (text : List Char) : Prop :=
  match s.quote, s.escaped with
  | none, false => Closes s.closers text
  | none, true => ∃ c rest, text = c :: rest ∧ Closes s.closers rest
  | some q, false =>
    ∃ body rest, text = body ++ q :: rest ∧ Quoted q body ∧ Closes s.closers rest
  | some q, true =>
    ∃ c body rest, text = c :: (body ++ q :: rest) ∧ Quoted q body ∧ Closes s.closers rest

/-- **A walk that ends where nothing is open went along what the grammar takes for part of a token.** -/
theorem finishes_of_along {last : TokenState} (clean : ∃ token, last = settled token []) :
    ∀ {text : List Char} {s : TokenState}, s.along? text = some last → s.Finishes text
  | [], s, h => by
    obtain ⟨token, rfl⟩ := clean
    cases h
    exact Grouped.nil
  | c :: text, ⟨token, closers, quote, escaped⟩, h => by
    rw [along?] at h
    split at h
    · cases h
    next inside =>
    obtain ⟨next, step, h⟩ := Option.bind_eq_some_iff.mp h
    have rest := finishes_of_along clean h
    match quote, escaped with
    | none, true =>
      cases step
      exact ⟨c, text, rfl, rest⟩
    | some q, true =>
      cases step
      obtain ⟨body, more, rfl, between, outer⟩ := rest
      exact ⟨c, body, more, rfl, between, outer⟩
    | some q, false =>
      rcases step?_quoted_cases step with ⟨rfl, rfl⟩ | ⟨rfl, rfl⟩ | ⟨escape, inner, rfl⟩
      · obtain ⟨d, body, more, rfl, between, outer⟩ := rest
        exact ⟨_, more, rfl, .escaped d between, outer⟩
      · exact ⟨[], text, rfl, .nil, rest⟩
      · obtain ⟨body, more, rfl, between, outer⟩ := rest
        exact ⟨c :: body, more, rfl, .plain escape inner between, outer⟩
    | none, false =>
      show Closes closers (c :: text)
      rcases step?_settled_cases step with
        ⟨kind, rfl⟩ | ⟨rfl, rfl⟩ | ⟨closer, pair, rfl⟩ | ⟨outer, rfl, rfl⟩ | ⟨free, rfl⟩
      · obtain ⟨body, more, rfl, between, outer⟩ := rest
        have piece : Grouped (!closers.isEmpty) (c :: (body ++ [c])) := .quoted kind between .nil
        simpa using Closes.prepend outer piece
      · obtain ⟨d, more, rfl, outer⟩ := rest
        have piece : Grouped (!closers.isEmpty) ['\\', d] := .escaped d .nil
        exact Closes.prepend outer piece
      · obtain ⟨inner, more, rfl, grouped, outer⟩ := rest
        have piece : Grouped (!closers.isEmpty) (c :: (inner ++ [closer])) := .bracketed pair grouped .nil
        simpa using Closes.prepend outer piece
      · exact ⟨[], text, rfl, .nil, rest⟩
      · have solid : (!closers.isEmpty) = true ∨ isBlankChar c = false := by
          simpa [separates, or_iff_not_imp_left] using inside
        have piece : Grouped (!closers.isEmpty) [c] := .plain free solid .nil
        exact Closes.prepend rest piece

/-- **What a walk goes along from between two tokens to where no quote and no bracket is open is a
token**, but for a backslash at its end that escapes nothing. -/
theorem grouped_of_along {text : List Char} {last : TokenState} (h : between.along? text = some last)
    (quote : last.quote = none) (closers : last.closers = []) :
    (last.escaped = false ∧ Grouped false text) ∨
      (last.escaped = true ∧ ∃ front, text = front ++ ['\\'] ∧ Grouped false front) := by
  obtain ⟨token, _, _, escaped⟩ := last
  cases quote
  cases closers
  cases escaped with
  | false => exact .inl ⟨rfl, finishes_of_along ⟨token, rfl⟩ h⟩
  | true =>
    refine .inr ⟨rfl, ?_⟩
    rcases List.eq_nil_or_concat text with rfl | ⟨front, c, rfl⟩
    · cases h
    rw [List.concat_eq_append, along?_append] at h
    obtain ⟨⟨begun, outer, open?, behind⟩, before, h⟩ := Option.bind_eq_some_iff.mp h
    rw [along?] at h
    split at h
    · cases h
    obtain ⟨next, step, same⟩ := Option.bind_eq_some_iff.mp h
    cases same
    have escape := (escaped_of_step step).symm
    simp only [Bool.and_eq_true, Bool.not_eq_true', decide_eq_true_eq] at escape
    obtain ⟨rfl, rfl⟩ := escape
    cases open? with
    | some q => cases step
    | none =>
      cases step
      exact ⟨front, by simp, finishes_of_along ⟨begun, rfl⟩ before⟩

/-- A text is walked along up to its end or to the first blank that ends the token. -/
theorem exists_along_of_tokensFrom : ∀ {text : List Char} {s : TokenState} {tokens : List (List Char)},
    tokensFrom s text = .ok tokens → ∃ front rest last, text = front ++ rest ∧
      s.along? front = some last ∧ last.quote = none ∧ last.closers = [] ∧
      ((rest = [] ∧ tokens = last.pending) ∨ ∃ c behind others, rest = c :: behind ∧
        isBlankChar c = true ∧ last.escaped = false ∧ tokensFrom .between behind = .ok others ∧
        tokens = last.pending ++ others)
  | [], s, tokens, h => by
    rw [tokensFrom, atEnd] at h
    split at h
    · cases h
    next quote =>
    split at h
    · next closers =>
      cases h
      exact ⟨[], [], s, rfl, rfl, by simpa using quote, List.isEmpty_iff.mp closers, .inl ⟨rfl, rfl⟩⟩
    · cases h
  | c :: text, s, tokens, h => by
    rw [tokensFrom] at h
    split at h
    · next apart =>
      obtain ⟨quote, escaped, closers, blank⟩ := separates_iff.mp apart
      obtain ⟨others, behind, rfl⟩ := map_ok_iff.mp h
      exact ⟨[], c :: text, s, rfl, rfl, quote, closers,
        .inr ⟨c, text, others, rfl, blank, escaped, behind, rfl⟩⟩
    · next inside =>
      split at h
      · cases h
      next next step =>
      obtain ⟨front, rest, last, rfl, along, clean⟩ := exists_along_of_tokensFrom h
      refine ⟨c :: front, rest, last, rfl, ?_, clean⟩
      rw [along?_cons (Bool.eq_false_iff.mpr inside) step, along]

end TokenState

/-! ### Tokens with blanks between -/

/-- Nothing but blanks. -/
def AllBlank (text : List Char) : Prop := ∀ c ∈ text, isBlankChar c = true

/-- Tokens, each with the blanks behind it: there are some behind all but the last, which may end in a
backslash that escapes nothing. -/
inductive Spaced : List (List Char × List Char) → Prop
  | nil : Spaced []
  | last {token blanks : List Char} : token ≠ [] → Grouped false token → AllBlank blanks →
      Spaced [(token, blanks)]
  | escape {front : List Char} : Grouped false front → Spaced [(front ++ ['\\'], [])]
  | cons {token blanks : List Char} {row : List Char × List Char} {rows : List (List Char × List Char)} :
      token ≠ [] → Grouped false token → blanks ≠ [] → AllBlank blanks → Spaced (row :: rows) →
      Spaced ((token, blanks) :: row :: rows)

/-- The text of tokens with the blanks behind them. -/
def layOut (rows : List (List Char × List Char)) : List Char := rows.flatMap fun row => row.1 ++ row.2

open TokenState in
/-- Tokens that are laid out are found. -/
theorem tokensFrom_layOut : ∀ {rows : List (List Char × List Char)}, Spaced rows →
    tokensFrom .between (layOut rows) = .ok (rows.map Prod.fst) := by
  have pending {token : List Char} (some : token ≠ []) : (settled token.reverse []).pending = [token] := by
    simp [TokenState.pending, settled, some]
  have walk {token : List Char} (grouped : Grouped false token) (rest : List Char) :
      tokensFrom .between (token ++ rest) = tokensFrom (settled token.reverse []) rest := by
    have along : (settled [] []).along? token = some (settled (token.reverse ++ []) []) :=
      grouped.along [] nofun
    rw [List.append_nil] at along
    exact tokensFrom_along rest along
  intro rows h
  induction h with
  | nil => rfl
  | @last token blanks some grouped blank =>
    have ends : (settled token.reverse []).atEnd = .ok [token] := by
      rw [atEnd, pending some]
      rfl
    have text : layOut [(token, blanks)] = token ++ (blanks ++ []) := by simp [layOut]
    rw [text, walk grouped]
    cases blanks with
    | nil => exact ends
    | cons c more => exact tokensFrom_atEnd ends rfl (List.cons_ne_nil c more) blank []
  | @escape front grouped =>
    have text : layOut [(front ++ ['\\'], [])] = front ++ ['\\'] := by simp [layOut]
    rw [text, walk grouped]
    show Except.ok [('\\' :: front.reverse).reverse] = .ok [front ++ ['\\']]
    simp
  | @cons token blanks row rows some grouped someBlanks blank _ ih =>
    have ends : (settled token.reverse []).atEnd = .ok [token] := by
      rw [atEnd, pending some]
      rfl
    have text : layOut ((token, blanks) :: row :: rows) = token ++ (blanks ++ layOut (row :: rows)) := by
      simp [layOut]
    rw [text, walk grouped, tokensFrom_atEnd ends rfl someBlanks blank, ih]
    rfl

/-- The blanks at the beginning of a text, and a rest that begins with none. -/
theorem exists_blanks (text : List Char) : ∃ blanks rest, text = blanks ++ rest ∧ AllBlank blanks ∧
    ∀ c ∈ rest.head?, isBlankChar c = false := by
  refine ⟨text.takeWhile isBlankChar, text.dropWhile isBlankChar,
    List.takeWhile_append_dropWhile.symm, List.all_eq_true.mp List.all_takeWhile, fun c hc => ?_⟩
  have first := List.head?_dropWhile_not isBlankChar text
  rwa [Option.mem_def.mp hc] at first

open TokenState in
/-- What tokens are found in is laid out as those tokens. -/
theorem exists_layOut {text : List Char} {tokens : List (List Char)}
    (h : tokensFrom .between text = .ok tokens) :
    ∃ lead rows, text = lead ++ layOut rows ∧ AllBlank lead ∧ Spaced rows ∧ tokens = rows.map Prod.fst := by
  obtain ⟨lead, rest, split, blank, solid⟩ := exists_blanks text
  rw [split, tokensFrom_blanks rest blank] at h
  obtain ⟨front, behind, last, rfl, along, quote, closers, ends⟩ := exists_along_of_tokensFrom h
  have token : last.token = front.reverse := (token_of_along along).trans (List.append_nil _)
  cases front with
  | nil =>
    cases along
    rcases ends with ⟨rfl, rfl⟩ | ⟨c, more, others, rfl, cBlank, -⟩
    · exact ⟨lead, [], by simpa [layOut] using split, blank, .nil, rfl⟩
    · exact absurd (solid c rfl) (by simp [cBlank])
  | cons c front =>
    have some : c :: front ≠ [] := List.cons_ne_nil c front
    have pending : last.pending = [c :: front] := by simp [TokenState.pending, token]
    rw [pending] at ends
    have kind := grouped_of_along along quote closers
    generalize c :: front = word at *
    rcases ends with ⟨rfl, rfl⟩ | ⟨d, more, others, rfl, dBlank, escaped, found, rfl⟩
    · rcases kind with ⟨-, grouped⟩ | ⟨-, front, rfl, grouped⟩
      · exact ⟨lead, [(word, [])], by simpa [layOut] using split, blank,
          .last some grouped (List.forall_mem_nil _), rfl⟩
      · exact ⟨lead, [(front ++ ['\\'], [])], by simpa [layOut] using split, blank, .escape grouped, rfl⟩
    · have grouped : Grouped false word := (kind.resolve_right (by simp [escaped])).2
      obtain ⟨gap, rows, rfl, gapBlank, spaced, rfl⟩ := exists_layOut found
      have between : AllBlank (d :: gap) := List.forall_mem_cons.mpr ⟨dBlank, gapBlank⟩
      refine ⟨lead, (word, d :: gap) :: rows, by simpa [layOut] using split, blank, ?_, rfl⟩
      cases rows with
      | nil => exact .last some grouped between
      | cons row rows => exact .cons some grouped (List.cons_ne_nil d gap) between spaced
termination_by text.length
decreasing_by simp [split]; omega

/-- **The texts that are split are those laid out as tokens with blanks between**, and the tokens found
are those laid out. -/
theorem tokenizeChars_ok_iff {text : List Char} {tokens : List (List Char)} :
    tokenizeChars text = .ok tokens ↔ ∃ lead rows, text = lead ++ layOut rows ∧ AllBlank lead ∧
      Spaced rows ∧ tokens = rows.map Prod.fst := by
  refine ⟨exists_layOut, ?_⟩
  rintro ⟨lead, rows, rfl, blank, spaced, rfl⟩
  exact (tokensFrom_blanks _ blank).trans (tokensFrom_layOut spaced)

/-! ### Tokens on their own -/

namespace Spaced

variable {rows : List (List Char × List Char)}

theorem blank (h : Spaced rows) : ∀ row ∈ rows, AllBlank row.2 := by
  induction h with
  | nil => exact nofun
  | last _ _ blank => exact List.forall_mem_singleton.mpr blank
  | escape _ => exact List.forall_mem_singleton.mpr nofun
  | cons _ _ _ blank _ ih => exact List.forall_mem_cons.mpr ⟨blank, ih⟩

theorem apart (h : Spaced rows) : ∀ row ∈ rows.dropLast, row.2 ≠ [] := by
  induction h with
  | nil => exact nofun
  | last _ _ _ => exact nofun
  | escape _ => exact nofun
  | cons _ _ some _ _ ih => exact List.forall_mem_cons.mpr ⟨some, ih⟩

/-- Each token is laid out by itself. -/
theorem alone (h : Spaced rows) : ∀ row ∈ rows, Spaced [(row.1, [])] := by
  induction h with
  | nil => exact nofun
  | last some grouped _ => exact List.forall_mem_singleton.mpr (.last some grouped nofun)
  | escape grouped => exact List.forall_mem_singleton.mpr (.escape grouped)
  | cons some grouped _ _ _ ih => exact List.forall_mem_cons.mpr ⟨.last some grouped nofun, ih⟩

/-- The tokens are laid out with single blanks between as well. -/
theorem respaced (h : Spaced rows) : ∃ again, Spaced again ∧ again.map Prod.fst = rows.map Prod.fst ∧
    layOut again = [' '].intercalate (rows.map Prod.fst) ∧ (rows ≠ [] → again ≠ []) := by
  induction h with
  | nil => exact ⟨[], .nil, rfl, rfl, id⟩
  | @last token _ some grouped _ =>
    exact ⟨[(token, [])], .last some grouped nofun, rfl, by simp [layOut], nofun⟩
  | @escape front grouped =>
    exact ⟨[(front ++ ['\\'], [])], .escape grouped, rfl, by simp [layOut], nofun⟩
  | @cons token _ row rows some grouped _ _ _ ih =>
    obtain ⟨again, spaced, same, text, nonempty⟩ := ih
    obtain ⟨first, more, rfl⟩ := List.exists_cons_of_ne_nil (nonempty (List.cons_ne_nil row rows))
    have blank : AllBlank [' '] := List.forall_mem_singleton.mpr (by decide)
    refine ⟨(token, [' ']) :: first :: more, .cons some grouped nofun blank spaced, ?_, ?_, nofun⟩
    · rw [List.map_cons, same]
      rfl
    · have behind : layOut ((token, [' ']) :: first :: more) = token ++ ' ' :: layOut (first :: more) := by
        simp [layOut]
      rw [behind, text]
      simp [List.intercalate_cons_cons]

end Spaced

/-! ### Where blanks stand in a token -/

/-- A character of a token stands right behind a backslash, between two quotes or between two brackets,
all that comes before being closed. -/
def Sheltered (before : List Char) (c : Char) (after : List Char) : Prop :=
  ∃ front, Grouped false front ∧ (before = front ++ ['\\'] ∨ ∃ opener inner more closer rest,
    before = front ++ opener :: inner ∧ after = more ++ closer :: rest ∧
    ((opener = closer ∧ (closer = '"' ∨ closer = '\'') ∧ Quoted closer (inner ++ c :: more)) ∨
      ((opener, closer) ∈ brackets ∧ Grouped true (inner ++ c :: more))))

namespace Sheltered

variable {before after : List Char} {c : Char}

theorem behind {piece : List Char} (h : Sheltered before c after) (closed : Grouped false piece) :
    Sheltered (piece ++ before) c after := by
  obtain ⟨front, grouped, rfl | ⟨opener, inner, more, closer, rest, rfl, within⟩⟩ := h
  · exact ⟨piece ++ front, closed.append grouped, .inl (List.append_assoc ..).symm⟩
  · exact ⟨piece ++ front, closed.append grouped,
      .inr ⟨opener, inner, more, closer, rest, (List.append_assoc ..).symm, within⟩⟩

theorem ahead (h : Sheltered before c after) (more : List Char) : Sheltered before c (after ++ more) := by
  obtain ⟨front, grouped, escaped | ⟨opener, inner, part, closer, rest, split, rfl, within⟩⟩ := h
  · exact ⟨front, grouped, .inl escaped⟩
  · exact ⟨front, grouped, .inr ⟨opener, inner, part, closer, rest ++ more, split, by simp, within⟩⟩

end Sheltered

/-- What stands before a character of a text in two parts, and whether the character is in the first. -/
theorem place_cases {a b before after : List Char} {c : Char} (h : a ++ b = before ++ c :: after) :
    (∃ more, a = before ++ c :: more ∧ after = more ++ b) ∨
      ∃ more, before = a ++ more ∧ b = more ++ c :: after := by
  rcases List.append_eq_append_iff.mp h with ⟨more, rfl, same⟩ | ⟨more, rfl, same⟩
  · exact .inr ⟨more, rfl, same⟩
  · cases more with
    | nil => exact .inr ⟨[], by simp, by simpa using same.symm⟩
    | cons d more => cases same; exact .inl ⟨more, rfl, rfl⟩

/-- A character of a group that is neither of the two around it stands between them. -/
theorem place_between {opener closer : Char} {body before after : List Char} {c : Char}
    (h : opener :: (body ++ [closer]) = before ++ c :: after) (first : c ≠ opener) (last : c ≠ closer) :
    ∃ inner more, before = opener :: inner ∧ body = inner ++ c :: more ∧ after = more ++ [closer] := by
  cases before with
  | nil => exact absurd (List.cons.inj h).1.symm first
  | cons d inner =>
    obtain ⟨same, inside⟩ := List.cons.inj h
    rcases place_cases inside with ⟨more, split, behind⟩ | ⟨more, -, split⟩
    · exact ⟨inner, more, same ▸ rfl, split, behind⟩
    · have mem : c ∈ [closer] := split ▸ by simp
      exact absurd (List.mem_singleton.mp mem) last

/-- **Blanks in a token are sheltered.** -/
theorem Grouped.sheltered {text : List Char} (h : Grouped false text) {before after : List Char} {c : Char}
    (split : text = before ++ c :: after) (blank : isBlankChar c = true) : Sheltered before c after := by
  have other : ∀ d ∈ delimiters, c ≠ d := by
    rintro d mem rfl
    simp [solid_of_delimiter c mem] at blank
  generalize outside : false = inside at h
  induction h generalizing before with
  | nil => simp at split
  | @plain _ d rest free solid grouped ih =>
    subst outside
    rcases place_cases (show [d] ++ rest = _ from split) with ⟨more, same, -⟩ | ⟨more, rfl, behind⟩
    · have mem : c ∈ [d] := same ▸ by simp
      obtain rfl := List.mem_singleton.mp mem
      simp [blank] at solid
    · exact (ih behind rfl).behind (.plain free solid .nil)
  | @escaped _ d rest grouped ih =>
    subst outside
    cases before with
    | nil => exact absurd (List.cons.inj split).1.symm (other _ (by decide))
    | cons e before =>
      obtain ⟨first, second⟩ := List.cons.inj split
      obtain rfl : '\\' = e := first
      rcases place_cases (show [d] ++ rest = _ from second) with ⟨more, same, rfl⟩ | ⟨more, rfl, behind⟩
      · cases before with
        | nil => exact ⟨[], .nil, .inl rfl⟩
        | cons e before => simp at same
      · have piece : Grouped false ['\\', d] := .escaped d .nil
        exact (ih behind rfl).behind piece
  | @quoted _ q body rest quote between grouped ih =>
    subst outside
    have apart : c ≠ q := other q (by rcases quote with rfl | rfl <;> decide)
    have regrouped : (q :: (body ++ [q])) ++ rest = before ++ c :: after := by simpa using split
    rcases place_cases regrouped with ⟨more, within, rfl⟩ | ⟨more, rfl, behind⟩
    · obtain ⟨inner, part, rfl, rfl, rfl⟩ := place_between within apart apart
      exact ⟨[], .nil, .inr ⟨q, inner, part, q, rest, rfl, by simp, .inl ⟨rfl, quote, between⟩⟩⟩
    · exact (ih behind rfl).behind (.quoted quote between .nil)
  | @bracketed _ opener closer body rest pair inner grouped _ ih =>
    subst outside
    have apart : c ≠ opener ∧ c ≠ closer := by
      rcases bracket_cases pair with ⟨rfl, rfl⟩ | ⟨rfl, rfl⟩ | ⟨rfl, rfl⟩ <;>
        exact ⟨other _ (by decide), other _ (by decide)⟩
    have regrouped : (opener :: (body ++ [closer])) ++ rest = before ++ c :: after := by simpa using split
    rcases place_cases regrouped with ⟨more, within, rfl⟩ | ⟨more, rfl, behind⟩
    · obtain ⟨front, part, rfl, rfl, rfl⟩ := place_between within apart.1 apart.2
      exact ⟨[], .nil, .inr ⟨opener, front, part, closer, rest, rfl, by simp, .inr ⟨pair, inner⟩⟩⟩
    · exact (ih behind rfl).behind (.bracketed pair inner .nil)

namespace Spaced

variable {rows : List (List Char × List Char)}

/-- A token begins with no blank, and the blanks in it are sheltered. -/
theorem token (h : Spaced rows) : ∀ row ∈ rows, row.1 ≠ [] ∧ (∀ c ∈ row.1.head?, isBlankChar c = false) ∧
    ∀ before c after, row.1 = before ++ c :: after → isBlankChar c = true → Sheltered before c after := by
  have closed {token : List Char} (grouped : Grouped false token) :
      ∀ c ∈ token.head?, isBlankChar c = false := by
    intro c hc
    obtain ⟨rest, rfl⟩ := List.head?_eq_some_iff.mp hc
    exact grouped.solid
  induction h with
  | nil => exact nofun
  | last some grouped _ =>
    exact List.forall_mem_singleton.mpr ⟨some, closed grouped, fun _ _ _ => grouped.sheltered⟩
  | @escape front grouped =>
    refine List.forall_mem_singleton.mpr ⟨by simp, fun c hc => ?_, fun before c after split blank => ?_⟩
    · cases front with
      | nil => cases hc; exact solid_of_delimiter _ (by decide)
      | cons d front => exact closed grouped c hc
    · rcases place_cases split with ⟨more, same, rfl⟩ | ⟨more, -, same⟩
      · exact (grouped.sheltered same blank).ahead ['\\']
      · have mem : c ∈ ['\\'] := same ▸ by simp
        obtain rfl := List.mem_singleton.mp mem
        simp [solid_of_delimiter _ (by decide : '\\' ∈ delimiters)] at blank
  | cons some grouped _ _ _ ih =>
    exact List.forall_mem_cons.mpr ⟨⟨some, closed grouped, fun _ _ _ => grouped.sheltered⟩, ih⟩

end Spaced

theorem tokenize_ok_iff {input : String} {tokens : List String} :
    tokenize input = .ok tokens ↔ tokenizeChars input.toList = .ok (tokens.map String.toList) := by
  unfold tokenize
  rw [map_ok_iff]
  constructor
  · rintro ⟨found, e, rfl⟩
    rw [e, List.map_map]
    simp
  · intro e
    exact ⟨_, e, by simp⟩

/-- **Splitting loses nothing and doubles nothing.** The text is its tokens in order with blanks between
them and perhaps around. No token begins with a blank, and the blanks inside are quoted, bracketed or
escaped. Each token by itself is split into itself, and the tokens with single spaces between are split
into the same tokens. -/
theorem tokenize_spaced {input : String} {tokens : List String} (h : tokenize input = .ok tokens) :
    (∃ (lead : String) (rows : List (String × String)),
      input = lead ++ String.join (rows.map fun row => row.1 ++ row.2) ∧ tokens = rows.map Prod.fst ∧
        AllBlank lead.toList ∧ (∀ row ∈ rows, AllBlank row.2.toList) ∧ ∀ row ∈ rows.dropLast, row.2 ≠ "") ∧
    (∀ token ∈ tokens, token ≠ "" ∧ (∀ c ∈ token.toList.head?, isBlankChar c = false) ∧
      (∀ before c after, token.toList = before ++ c :: after → isBlankChar c = true →
        Sheltered before c after) ∧
      tokenize token = .ok [token]) ∧
    tokenize (" ".intercalate tokens) = .ok tokens := by
  obtain ⟨lead, rows, split, blank, spaced, same⟩ := tokenizeChars_ok_iff.mp (tokenize_ok_iff.mp h)
  have named : tokens = rows.map fun row => String.ofList row.1 := by
    have back := congrArg (List.map String.ofList) same
    simpa [List.map_map, Function.comp_def] using back
  refine ⟨⟨String.ofList lead, rows.map fun row => (String.ofList row.1, String.ofList row.2),
    ?_, by simpa [List.map_map, Function.comp_def] using named, by simpa using blank, ?_, ?_⟩, ?_, ?_⟩
  · rw [← String.toList_inj, split]
    simp [layOut, List.flatMap_map]
  · refine List.forall_mem_map.mpr fun row mem => ?_
    rw [String.toList_ofList]
    exact spaced.blank row mem
  · rw [← List.map_dropLast]
    refine List.forall_mem_map.mpr fun row mem same => spaced.apart row mem ?_
    simpa [← String.toList_inj] using same
  · rw [named]
    refine List.forall_mem_map.mpr fun row mem => ?_
    obtain ⟨some, solid, sheltered⟩ := spaced.token row mem
    refine ⟨by simpa [← String.toList_inj] using some, by simpa using solid, by simpa using sheltered, ?_⟩
    refine tokenize_ok_iff.mpr (tokenizeChars_ok_iff.mpr ⟨[], _, ?_, nofun, spaced.alone row mem, ?_⟩)
    · simp [layOut]
    · simp
  · obtain ⟨again, respaced, tokens', text, -⟩ := spaced.respaced
    refine tokenize_ok_iff.mpr (tokenizeChars_ok_iff.mpr ⟨[], again, ?_, nofun, respaced, ?_⟩)
    · rw [String.toList_intercalate, same]
      exact text.symm
    · rw [same, tokens']

/-- Of the three blanks of a text one is escaped, one is bracketed and one stands between its tokens. -/
theorem tokenize_spaced_escape_and_bracket :
    tokenize "a\\ b [c d]" = .ok ["a\\ b", "[c d]"] ∧
    tokenize (" ".intercalate ["a\\ b", "[c d]"]) = .ok ["a\\ b", "[c d]"] ∧
    Sheltered ['a', '\\'] ' ' ['b'] ∧ Sheltered ['[', 'c'] ' ' ['d', ']'] := by
  have found : tokenize "a\\ b [c d]" = .ok ["a\\ b", "[c d]"] := by decide +kernel
  obtain ⟨-, each, joined⟩ := tokenize_spaced found
  exact ⟨found, joined, (each "a\\ b" (by decide)).2.2.1 _ _ _ rfl rfl,
    (each "[c d]" (by decide)).2.2.1 _ _ _ rfl rfl⟩

end PageQuery
