/-
# Selectors set one behind the other

Behind a text that leaves no quote, bracket or escape open, a blank ends the token begun and the walk
starts afresh. So the tokens of two texts with blanks between are those of the first and then those of
the second, and their segments are the two lists end to end, except that two structural segments that
meet there are one.

Key definitions: `leavesEscape`, `Segment.splice`.
Key theorems: `tokensFrom_append`, `Selector.segmentsFrom_append`, `Selector.parse_append`,
`Selector.splice_eq_append`, `Selector.parse_between_blanks`.
-/
import PageQuery.Proofs.Results
import PageQuery.Selector.Segment

namespace PageQuery

/-! ### Tokens -/

/-- Whether a backslash at the end of a text escapes nothing yet, given whether one came just before
the text. -/
def leavesEscape : Bool → List Char → Bool
  | escaped, [] => escaped
  | escaped, c :: rest => leavesEscape (!escaped && c = '\\') rest

/-- A selector that ends behind a backslash which would escape the next character. -/
def Selector.endsInEscape (text : String) : Bool := leavesEscape false text.toList

theorem TokenState.escaped_of_step {s next : TokenState} {c : Char} (h : s.step? c = some next) :
    next.escaped = (!s.escaped && c = '\\') := by
  unfold step? add at h
  split at h
  · next e => cases h; simp [e]
  · next e => grind

theorem TokenState.separates_iff {s : TokenState} {c : Char} :
    s.separates c = true ↔
      s.quote = none ∧ s.escaped = false ∧ s.closers = [] ∧ isBlankChar c = true := by
  simp [separates, and_assoc]

/-- Blanks between two tokens leave no trace. -/
theorem tokensFrom_blanks (rest : List Char) : ∀ {blanks : List Char},
    (∀ c ∈ blanks, isBlankChar c = true) →
    tokensFrom .between (blanks ++ rest) = tokensFrom .between rest
  | [], _ => rfl
  | c :: blanks, h => by
    obtain ⟨hc, h⟩ := List.forall_mem_cons.mp h
    have apart : TokenState.between.separates c = true :=
      TokenState.separates_iff.mpr ⟨rfl, rfl, rfl, hc⟩
    rw [List.cons_append, tokensFrom, if_pos apart, tokensFrom_blanks rest h]
    cases tokensFrom .between rest <;> rfl

/-- Blanks that come where nothing is left open end the token begun. -/
theorem tokensFrom_atEnd {s : TokenState} {tokens : List (List Char)} (h : s.atEnd = .ok tokens)
    (e : s.escaped = false) {blanks : List Char} (some : blanks ≠ [])
    (blank : ∀ c ∈ blanks, isBlankChar c = true) (rest : List Char) :
    tokensFrom s (blanks ++ rest) = (tokensFrom .between rest).map (tokens ++ ·) := by
  obtain ⟨c, blanks, rfl⟩ := List.exists_cons_of_ne_nil some
  obtain ⟨hc, blank⟩ := List.forall_mem_cons.mp blank
  unfold TokenState.atEnd at h
  split at h
  · cases h
  · next quote =>
    split at h
    · next closers =>
      cases h
      have apart : s.separates c = true := TokenState.separates_iff.mpr
        ⟨by simpa using quote, e, List.isEmpty_iff.mp closers, hc⟩
      rw [List.cons_append, tokensFrom, if_pos apart, tokensFrom_blanks rest blank]
    · cases h

/-- **A blank behind a text that leaves nothing open starts the walk afresh.** -/
theorem tokensFrom_append {blanks : List Char} (some : blanks ≠ [])
    (blank : ∀ c ∈ blanks, isBlankChar c = true) (rest : List Char) :
    ∀ {text : List Char} {s : TokenState} {tokens : List (List Char)},
      tokensFrom s text = .ok tokens → leavesEscape s.escaped text = false →
      tokensFrom s (text ++ (blanks ++ rest)) = (tokensFrom .between rest).map (tokens ++ ·)
  | [], s, tokens, h, e => tokensFrom_atEnd h e some blank rest
  | c :: text, s, tokens, h, e => by
    unfold tokensFrom at h
    rw [List.cons_append, tokensFrom]
    by_cases apart : s.separates c = true
    · rw [if_pos apart] at h ⊢
      obtain ⟨-, -, -, hc⟩ := TokenState.separates_iff.mp apart
      have free : c ≠ '\\' := by rintro rfl; revert hc; decide
      cases e' : tokensFrom .between text with
      | error x => rw [e'] at h; cases h
      | ok more =>
        rw [e'] at h
        cases h
        have afresh : leavesEscape TokenState.between.escaped text = false := by
          simpa [leavesEscape, free, TokenState.between] using e
        rw [tokensFrom_append some blank rest e' afresh]
        cases tokensFrom .between rest with
        | error x => rfl
        | ok last => exact congrArg Except.ok (List.append_assoc _ _ _).symm
    · rw [if_neg apart] at h ⊢
      cases step : s.step? c with
      | none => rw [step] at h; cases h
      | some next =>
        rw [step] at h
        rw [leavesEscape, ← TokenState.escaped_of_step step] at e
        exact tokensFrom_append some blank rest h e

/-! ### Segments -/

/-- Two lists of segments end to end; structural segments that meet become one. -/
def Segment.splice : List Segment → List Segment → List Segment
  | [], later => later
  | [.structural a], .structural b :: later => .structural (a ++ " " ++ b) :: later
  | segment :: rest, later => segment :: splice rest later

namespace Selector

@[simp] theorem splice_nil : ∀ segments : List Segment, Segment.splice segments [] = segments
  | [] => rfl
  | [.structural _] => rfl
  | [.component _] => rfl
  | segment :: second :: rest => by
    rw [Segment.splice, splice_nil (second :: rest)]
    simp

theorem splice_component (query : ComponentQuery) (rest later : List Segment) :
    Segment.splice (.component query :: rest) later = .component query :: Segment.splice rest later := by
  rw [Segment.splice]
  simp

theorem splice_structuralRun (run : List (List Char)) (query : ComponentQuery)
    (rest : List Segment) :
    Segment.splice (structuralRun run) (structuralRun [] ++ .component query :: rest) =
      structuralRun run ++ .component query :: rest := by
  unfold structuralRun
  split <;> rfl

theorem splice_behind_component (run : List (List Char)) (query : ComponentQuery)
    (rest later : List Segment) :
    Segment.splice (structuralRun run ++ .component query :: rest) later =
      structuralRun run ++ .component query :: Segment.splice rest later := by
  unfold structuralRun
  split
  · exact splice_component query rest later
  · rw [List.singleton_append, Segment.splice, splice_component]
    · rfl
    · simp

theorem joinBlank_append : ∀ {a b : List (List Char)}, a ≠ [] → b ≠ [] →
    joinBlank (a ++ b) = joinBlank a ++ ' ' :: joinBlank b
  | [_], _ :: _, _, _ => by simp [joinBlank]
  | _ :: second :: rest, b, _, hb => by
    have behind := joinBlank_append (List.cons_ne_nil second rest) hb
    rw [List.cons_append] at behind
    simp [joinBlank, behind]

/-- The segment of two runs is the segments of both, spliced. -/
theorem structuralRun_append (a b : List (List Char)) (later : List Segment) :
    Segment.splice (structuralRun (a ++ b)) later =
      Segment.splice (structuralRun a) (Segment.splice (structuralRun b) later) := by
  cases a with
  | nil => rfl
  | cons t a =>
    cases b with
    | nil => rw [List.append_nil]; rfl
    | cons u b =>
      have joined : String.ofList (joinBlank (t :: a ++ u :: b)) =
          String.ofList (joinBlank (t :: a)) ++ " " ++ String.ofList (joinBlank (u :: b)) := by
        rw [joinBlank_append (List.cons_ne_nil t a) (List.cons_ne_nil u b), ← String.toList_inj]
        simp
      have runs : structuralRun (t :: a ++ u :: b) =
          [.structural (String.ofList (joinBlank (t :: a)) ++ " " ++ String.ofList (joinBlank (u :: b)))] := by
        rw [← joined]; rfl
      rw [runs]
      match later with
      | [] => rfl
      | .component query :: later => rfl
      | .structural c :: later =>
        show [Segment.structural _] ++ later = [Segment.structural _] ++ later
        simp [String.append_assoc]

theorem segmentsFrom_plain {token : List Char} (h : token.head? ≠ some componentMark)
    (run rest : List (List Char)) : segmentsFrom run (token :: rest) = segmentsFrom (token :: run) rest := by
  match token, h with
  | [], _ => rfl
  | c :: body, h =>
    have plain : c ≠ componentMark := fun e => h (congrArg some e)
    exact if_neg plain

theorem segmentsFrom_marked (body : List Char) (run rest : List (List Char)) :
    segmentsFrom run ((componentMark :: body) :: rest) =
      (componentOf (componentMark :: body) body).bind fun query =>
        (segmentsFrom [] rest).map fun segments =>
          structuralRun run.reverse ++ .component query :: segments := by
  rw [segmentsFrom]
  refine (if_pos rfl).trans ?_
  cases componentOf (componentMark :: body) body <;> rfl

/-- The run kept backwards goes in front of the segments of the tokens. -/
theorem segmentsFrom_run : ∀ run tokens : List (List Char),
    segmentsFrom run tokens = (segmentsFrom [] tokens).map (Segment.splice (structuralRun run.reverse))
  | run, [] => congrArg Except.ok (splice_nil _).symm
  | run, token :: rest => by
    by_cases h : token.head? = some componentMark
    · obtain ⟨body, rfl⟩ := List.head?_eq_some_iff.mp h
      rw [segmentsFrom_marked, segmentsFrom_marked]
      cases componentOf (componentMark :: body) body with
      | error e => rfl
      | ok query =>
        cases segmentsFrom [] rest with
        | error e => rfl
        | ok segments =>
          have behind := splice_structuralRun run.reverse query segments
          exact congrArg Except.ok behind.symm
    · rw [segmentsFrom_plain h, segmentsFrom_plain h, segmentsFrom_run (token :: run) rest,
        segmentsFrom_run [token] rest, List.reverse_cons]
      cases segmentsFrom [] rest with
      | error e => rfl
      | ok segments => exact congrArg Except.ok (structuralRun_append _ _ _)

/-- Tokens have segments. -/
theorem segmentsFrom_ne_nil : ∀ run tokens : List (List Char), run ≠ [] ∨ tokens ≠ [] →
    segmentsFrom run tokens ≠ .ok []
  | run, [], h, e => by
    have some : run ≠ [] := h.resolve_right fun n => n rfl
    simp [segmentsFrom, structuralRun, some] at e
  | run, token :: rest, _, e => by
    by_cases mark : token.head? = some componentMark
    · obtain ⟨body, rfl⟩ := List.head?_eq_some_iff.mp mark
      rw [segmentsFrom_marked] at e
      cases q : componentOf (componentMark :: body) body with
      | error x => rw [q] at e; cases e
      | ok query =>
        cases r : segmentsFrom [] rest with
        | error x => rw [q, r] at e; cases e
        | ok segments => rw [q, r] at e; simp [Except.bind, Except.map] at e
    · rw [segmentsFrom_plain mark] at e
      exact segmentsFrom_ne_nil (token :: run) rest (Or.inl (List.cons_ne_nil _ _)) e

/-- **The segments of two token lists are those of both, spliced.** -/
theorem segmentsFrom_append (second : List (List Char)) : ∀ run first : List (List Char),
    segmentsFrom run (first ++ second) = (segmentsFrom run first).bind fun a =>
      (segmentsFrom [] second).map (Segment.splice a)
  | run, [] => segmentsFrom_run run second
  | run, token :: rest => by
    rw [List.cons_append]
    by_cases h : token.head? = some componentMark
    · obtain ⟨body, rfl⟩ := List.head?_eq_some_iff.mp h
      rw [segmentsFrom_marked, segmentsFrom_marked, segmentsFrom_append second [] rest]
      cases componentOf (componentMark :: body) body with
      | error e => rfl
      | ok query =>
        cases segmentsFrom [] rest with
        | error e => rfl
        | ok segments =>
          cases segmentsFrom [] second with
          | error e => rfl
          | ok later => exact congrArg Except.ok (splice_behind_component run.reverse query segments later).symm
    · rw [segmentsFrom_plain h, segmentsFrom_plain h, segmentsFrom_append second (token :: run) rest]

/-- A text parses when it has tokens and they have segments. -/
theorem parse_ok_iff {text : String} {s : Selector} :
    parse text = .ok s ↔ s.source = text ∧
      ∃ tokens, tokenizeChars text.toList = .ok tokens ∧ tokens ≠ [] ∧
        segmentsFrom [] tokens = .ok s.segments := by
  obtain ⟨source, segments⟩ := s
  unfold parse segmentsOf
  cases tokenizeChars text.toList with
  | error e => simp [Except.map]
  | ok tokens =>
    cases tokens with
    | nil => simp [Except.map]
    | cons token rest =>
      show (segmentsFrom [] (token :: rest)).map (fun segments => (⟨text, segments⟩ : Selector)) = _ ↔ _
      have one : (∃ tokens, (.ok (token :: rest) : Except SelectorError _) = .ok tokens ∧ tokens ≠ [] ∧
          segmentsFrom [] tokens = .ok segments) ↔ segmentsFrom [] (token :: rest) = .ok segments := by
        simp
      rw [one]
      cases segmentsFrom [] (token :: rest) <;> simp [Except.map, eq_comm]

/-- **Two selectors with blanks between them parse to the segments of both, spliced**, unless the first
ends in a backslash that would escape the first blank. -/
theorem parse_append {a b blanks : String} {s t : Selector} (ha : parse a = .ok s)
    (hb : parse b = .ok t) (free : endsInEscape a = false) (some : blanks ≠ "")
    (blank : ∀ c ∈ blanks.toList, isBlankChar c = true) :
    parse (a ++ blanks ++ b) = .ok ⟨a ++ blanks ++ b, Segment.splice s.segments t.segments⟩ := by
  obtain ⟨-, first, split, isSome, found⟩ := parse_ok_iff.mp ha
  obtain ⟨-, second, split', -, found'⟩ := parse_ok_iff.mp hb
  refine parse_ok_iff.mpr ⟨rfl, first ++ second, ?_, by simp [isSome], ?_⟩
  · have some : blanks.toList ≠ [] := by simpa using some
    have tokens := tokensFrom_append some blank b.toList split free
    unfold tokenizeChars at split' ⊢
    rw [String.toList_append, String.toList_append, List.append_assoc, tokens, split']
    rfl
  · rw [segmentsFrom_append, found, found']
    rfl

/-- A selector that starts with a component segment. -/
def startsInComponent (s : Selector) : Bool := s.segments.head?.any Segment.isComponent

/-- Where a component segment stands at the joint, nothing is merged. -/
theorem splice_eq_append : ∀ {a b : List Segment},
    a.getLast?.any Segment.isComponent = true ∨ b.head?.any Segment.isComponent = true →
    Segment.splice a b = a ++ b
  | [], _, _ => rfl
  | [.component _], _, _ => rfl
  | [.structural _], [], _ => rfl
  | [.structural _], .component _ :: _, _ => rfl
  | [.structural _], .structural _ :: _, h => by simp [Segment.isComponent] at h
  | segment :: second :: rest, b, h => by
    rw [Segment.splice, splice_eq_append (by simpa using h)]
    · rfl
    · simp

/-- A selector has segments. -/
theorem segments_ne_nil {text : String} {s : Selector} (h : parse text = .ok s) : s.segments ≠ [] := by
  obtain ⟨-, tokens, -, some, found⟩ := parse_ok_iff.mp h
  exact fun e => segmentsFrom_ne_nil [] tokens (Or.inr some) (e ▸ found)

/-- Where structural segments meet, they become one. -/
theorem splice_structural (x y : String) (last : List Segment) : ∀ first : List Segment,
    Segment.splice (first ++ [.structural x]) (.structural y :: last) =
      first ++ .structural (x ++ " " ++ y) :: last
  | [] => rfl
  | segment :: rest => by
    rw [List.cons_append, Segment.splice, splice_structural x y last rest]
    · rfl
    · simp

/-- At the joint there is a component segment, or there are two structural ones. -/
theorem joint_cases {a b : List Segment} (ha : a ≠ []) (hb : b ≠ []) :
    (a.getLast?.any Segment.isComponent = true ∨ b.head?.any Segment.isComponent = true) ∨
      ∃ first x y last, a = first ++ [.structural x] ∧ b = .structural y :: last := by
  obtain ⟨first, before, rfl⟩ : ∃ first before, a = first ++ [before] :=
    ⟨a.dropLast, a.getLast ha, (List.dropLast_concat_getLast ha).symm⟩
  obtain ⟨behind, last, rfl⟩ := List.exists_cons_of_ne_nil hb
  cases before with
  | component query => exact .inl (.inl (by simp [Segment.isComponent]))
  | structural x =>
    cases behind with
    | component query => exact .inl (.inr (by simp [Segment.isComponent]))
    | structural y => exact .inr ⟨first, x, y, last, rfl, rfl⟩

theorem endsInComponent_eq (s : Selector) :
    s.endsInComponent = s.segments.getLast?.any Segment.isComponent := by
  unfold endsInComponent
  cases s.segments.getLast? <;> rfl

/-- **Blanks between two selectors set their segments one behind the other**, whatever quotes, brackets and
escapes there are in them. Two structural segments that meet become one, their texts joined by a space. -/
theorem parse_between_blanks {a b blanks : String} {s t : Selector} (ha : parse a = .ok s)
    (hb : parse b = .ok t) (free : endsInEscape a = false) (some : blanks ≠ "")
    (blank : ∀ c ∈ blanks.toList, isBlankChar c = true) :
    ∃ segments, parse (a ++ blanks ++ b) = .ok ⟨a ++ blanks ++ b, segments⟩ ∧
      ((segments = s.segments ++ t.segments ∧
          (s.endsInComponent = true ∨ t.startsInComponent = true)) ∨
        ∃ first x y last, s.segments = first ++ [.structural x] ∧ t.segments = .structural y :: last ∧
          segments = first ++ .structural (x ++ " " ++ y) :: last) := by
  refine ⟨_, parse_append ha hb free some blank, ?_⟩
  rcases joint_cases (segments_ne_nil ha) (segments_ne_nil hb) with
    apart | ⟨first, x, y, last, ends, starts⟩
  · exact .inl ⟨splice_eq_append apart, s.endsInComponent_eq ▸ apart⟩
  · exact .inr ⟨first, x, y, last, ends, starts, by rw [ends, starts, splice_structural]⟩

/-- A quoted blank in brackets stays where it is, while the blanks between, of two kinds, become one. -/
theorem parse_between_blanks_quoted : ∃ segments,
    parse ("@A li[title=\"a  b\"]" ++ "\t\u00a0" ++ "p @B") =
      .ok ⟨"@A li[title=\"a  b\"]" ++ "\t\u00a0" ++ "p @B", segments⟩ ∧
    segments = [.component (.named "A"), .structural "li[title=\"a  b\"] p", .component (.named "B")] := by
  have ha : parse "@A li[title=\"a  b\"]" = .ok ⟨"@A li[title=\"a  b\"]",
      [.component (.named "A"), .structural "li[title=\"a  b\"]"]⟩ :=
    toOption_some_iff.mp (by decide +kernel)
  have hb : parse "p @B" = .ok ⟨"p @B", [.structural "p", .component (.named "B")]⟩ :=
    toOption_some_iff.mp (by decide +kernel)
  have free : endsInEscape "@A li[title=\"a  b\"]" = false := by decide +kernel
  have some : "\t\u00a0" ≠ "" := by decide
  obtain ⟨segments, parsed, apart | ⟨first, x, y, last, ends, starts, joined⟩⟩ :=
    parse_between_blanks ha hb free some (List.all_eq_true.mp (by decide +kernel))
  · exact absurd apart.2 (by decide)
  · refine ⟨segments, parsed, ?_⟩
    obtain ⟨rfl, ends⟩ := List.append_inj' (show [.component (.named "A")] ++ [_] = first ++ [_] from ends) rfl
    cases ends
    cases starts
    rw [joined]
    rfl

end Selector

end PageQuery
