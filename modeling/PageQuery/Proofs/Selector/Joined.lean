/-
# Predicates behind one another

Two predicates written behind one another, with a comma between them or none, are the first with the second
laid over it. The first has to end with its last object, and no comment may end in the second, as a regular
expression of the first that begins with a star would become that comment. Then no text behind the first
changes what is read of it: it ends in a brace, so no number and no word goes on, and an end of a comment
would have to stand in one of the two texts.

Laying over is associative, so the objects of the second text may be laid over one another first.

Key definitions: `Literal.EndsInObject`.
Key theorems: `Literal.ReadsObjects.closes`, `Literal.blocks?_joined`, `Selector.predicateOf_merge`,
`Predicate.parse_joined`.
-/
import PageQuery.Proofs.Selector.Props

namespace PageQuery

namespace Literal

variable {cs more rest : List Char} {blocks others : List (List (String × Literal))}

/-- The text reads as objects, and the closing brace of the last of them is its last character. -/
def EndsInObject (cs : List Char) : Prop := ∃ blocks, ReadsObjects (skip cs) blocks []

/-! ### The ends of comments -/

theorem unclosed_iff : ∀ {cs : List Char}, Unclosed cs ↔ ¬['*', '/'] <:+: cs
  | [] => by simp [Unclosed, skipFrom]
  | c :: cs => by
    have first : ['*', '/'] <+: c :: cs ↔ ∃ rest, c = '*' ∧ cs = '/' :: rest := by
      constructor
      · rintro ⟨rest, same⟩
        obtain ⟨rfl, rfl⟩ := List.cons.inj same
        exact ⟨rest, rfl, rfl⟩
      · rintro ⟨rest, rfl, rfl⟩
        exact ⟨rest, rfl⟩
    rw [unclosed_cons_iff, unclosed_iff, List.infix_cons_iff, first]
    grind

theorem Unclosed.append (unclosed : Unclosed more) : ∀ {cs : List Char}, Unclosed cs →
    cs.getLast? ≠ some '*' → Unclosed (cs ++ more)
  | [], _, _ => unclosed
  | [c], h, ends => by
    have star : c ≠ '*' := fun star => ends (by rw [star]; rfl)
    exact unclosed_cons_iff.mpr ⟨fun _ same => absurd same star, unclosed⟩
  | c :: d :: cs, h, ends => by
    obtain ⟨goes, h⟩ := unclosed_cons_iff.mp h
    have behind : Unclosed (d :: cs ++ more) := unclosed.append h (by rwa [List.getLast?_cons_cons] at ends)
    refine unclosed_cons_iff.mpr ⟨fun rest star same => ?_, behind⟩
    exact goes cs star (by rw [(List.cons.inj same).1])

/-- In a text that ends in a brace no regular expression becomes a comment that ends behind it. -/
theorem held_of_brace (ends : cs.getLast? = some '}') (unclosed : Unclosed more) : Held cs more := by
  rintro - tail ⟨front, rfl⟩ h
  refine unclosed.append h fun star => ?_
  rw [List.getLast?_append, star] at ends
  cases ends

/-! ### Objects -/

/-- What is read as objects ends with a closing brace. -/
theorem ReadsObjects.closes (h : ReadsObjects cs blocks rest) : '}' :: rest <:+ cs := by
  induction h with
  | last read =>
    obtain ⟨inner, rfl, spans⟩ := exists_inner_of_object (object?_eq_some_iff.mp read)
    exact suffix_cons spans.suffix
  | cons read follows _ ih => exact ih.trans ((spans_of_object read).trans follows.spans).suffix

theorem cutsOff_of_skip {inner : List Char} (h : skip cs = '{' :: inner) : CutsOff cs := by
  match cs with
  | [] => exact nofun
  | c :: cs =>
    intro d first
    obtain rfl := Option.some.inj first
    by_cases slash : c = '/'
    · subst slash; decide
    · rw [skip_cons_of_not_slash slash] at h
      split at h
      · next blank =>
        simp only [isBlank, Bool.or_eq_true, decide_eq_true_eq] at blank
        rcases blank with ((rfl | rfl) | rfl) | rfl <;> decide
      · rw [(List.cons.inj h).1]
        decide

/-- **The objects of a text behind another are read behind the objects of this**, if the first text ends in
an object and no comment ends in the second. -/
theorem blocks?_joined {inner : List Char} (first : ReadsObjects (skip cs) blocks [])
    (unclosed : Unclosed more) (cut : CutsOff more) (follows : Follows more inner)
    (second : ReadsObjects ('{' :: inner) others rest) (shut : skip rest = []) :
    blocks? (cs ++ more) = some (blocks ++ others) := by
  have ends {text : List Char} (closes : ['}'] <:+ text) : text.getLast? = some '}' := by
    obtain ⟨front, rfl⟩ := closes
    exact List.getLast?_concat
  have held : Held cs more := held_of_brace (ends (first.closes.trans (skip_suffix cs))) unclosed
  have behind := first.behind cut (held_of_brace (ends first.closes) unclosed)
  obtain ⟨within, begins⟩ := first.begins
  refine blocks?_eq_some_iff.mpr ⟨rest, ?_, shut⟩
  rw [skip_behind_cons held begins (by decide)]
  rw [begins] at behind
  exact behind.append follows second

end Literal

namespace Selector

/-! ### Predicates laid over one another -/

theorem ascending_predicateOf : ∀ {blocks : List (List (String × Literal))} {p q : Predicate},
    Fields.Ascending p.fields → Literal.predicateOf p blocks = .ok q → Fields.Ascending q.fields
  | [], _, _, ascending, h => by
    cases h
    exact ascending
  | pairs :: blocks, p, q, ascending, h => by
    rw [Literal.predicateOf] at h
    cases first : Literal.pairsToJson pairs with
    | error e => rw [first] at h; cases h
    | ok fields => rw [first] at h; exact ascending_predicateOf (Fields.ascending_putAll ascending) h

/-- **Objects laid over a predicate may be laid over one another first.** -/
theorem predicateOf_merge {p : Predicate} (hp : Fields.Ascending p.fields) :
    ∀ {blocks : List (List (String × Literal))} {q r : Predicate}, Fields.Ascending q.fields →
      Literal.predicateOf q blocks = .ok r →
        Literal.predicateOf (p.merge q.fields) blocks = .ok (p.merge r.fields)
  | [], _, _, _, h => by
    cases h
    rfl
  | pairs :: blocks, q, r, hq, h => by
    rw [Literal.predicateOf] at h ⊢
    cases first : Literal.pairsToJson pairs with
    | error e => rw [first] at h; cases h
    | ok fields =>
      rw [first] at h
      have grouped : (p.merge q.fields).merge fields = p.merge (q.merge fields).fields :=
        congrArg Predicate.mk (Fields.putAll_putAll hp hq).symm
      have rest : Literal.predicateOf (p.merge (q.merge fields).fields) blocks = .ok (p.merge r.fields) :=
        predicateOf_merge hp (Fields.ascending_putAll hq) h
      rwa [← grouped] at rest

end Selector

open Selector (predicate_ok_iff predicateOf_append predicateOf_merge ascending_predicateOf)

/-- **Two predicates behind one another are the second laid over the first**, with a comma between them or
none, if the first text ends in an object and no comment ends in the second. A key of the second has the
value that it has there, and any other key the value it has in the first. -/
theorem Predicate.parse_joined {s t : String} {p q : Predicate} (hs : Predicate.parse s = .ok p)
    (ht : Predicate.parse t = .ok q) (ends : Literal.EndsInObject s.toList)
    (unclosed : ¬['*', '/'] <:+: t.toList) :
    Predicate.parse (s ++ t) = .ok (p.merge q.fields) ∧
      Predicate.parse (s ++ "," ++ t) = .ok (p.merge q.fields) ∧
      ∀ key, Fields.find? key (p.merge q.fields).fields =
        (Fields.find? key q.fields).or (Fields.find? key p.fields) := by
  rw [← String.ofList_toList (s := s)] at hs
  rw [← String.ofList_toList (s := t)] at ht
  obtain ⟨blocks, readsS, denotesS⟩ := predicate_ok_iff.mp hs
  obtain ⟨others, readsT, denotesT⟩ := predicate_ok_iff.mp ht
  have none : Fields.Ascending Predicate.any.fields := trivial
  have hp : Fields.Ascending p.fields := ascending_predicateOf none denotesS
  have hq : Fields.Ascending q.fields := ascending_predicateOf none denotesT
  -- the objects that the text ends in are those it is read as
  obtain ⟨found, first⟩ := ends
  obtain rfl : found = blocks :=
    Option.some.inj ((Literal.blocks?_eq_some_iff.mpr ⟨[], first, rfl⟩).symm.trans readsS)
  obtain ⟨rest, second, shut⟩ := Literal.blocks?_eq_some_iff.mp readsT
  obtain ⟨inner, begins⟩ := second.begins
  rw [begins] at second
  have laid : Literal.predicateOf .any (found ++ others) = .ok (p.merge q.fields) :=
    (predicateOf_append denotesS).trans (predicateOf_merge hp none denotesT)
  have free : Literal.Unclosed t.toList := Literal.unclosed_iff.mpr unclosed
  have joined : Literal.blocks? (s.toList ++ t.toList) = some (found ++ others) :=
    Literal.blocks?_joined first free (Literal.cutsOff_of_skip begins) (.inl begins) second shut
  have apart : Literal.blocks? (s.toList ++ ',' :: t.toList) = some (found ++ others) := by
    have comma : Literal.skip (',' :: t.toList) = ',' :: t.toList :=
      Literal.skip_cons_of_not_slash (by decide) _
    have unclosed : Literal.Unclosed (',' :: t.toList) :=
      Literal.unclosed_cons_iff.mpr ⟨fun _ star => absurd star (by decide), free⟩
    have cut : Literal.CutsOff (',' :: t.toList) := fun c first => Option.some.inj first ▸ by decide
    exact Literal.blocks?_joined first unclosed cut (.inr ⟨_, comma, begins⟩) second shut
  have text : (s ++ t).toList = s.toList ++ t.toList := String.toList_append
  have commaText : (s ++ "," ++ t).toList = s.toList ++ ',' :: t.toList := by simp
  refine ⟨?_, ?_, fun key => Fields.find?_putAll key hq⟩
  · rw [← String.ofList_toList (s := s ++ t), text]
    exact predicate_ok_iff.mpr ⟨_, joined, laid⟩
  · rw [← String.ofList_toList (s := s ++ "," ++ t), commaText]
    exact predicate_ok_iff.mpr ⟨_, apart, laid⟩

/-- The first text has two objects and a regular expression that begins with a star; a comment with an end
of one behind it stands in front of the second. -/
theorem Predicate.parse_joined_star :
    Literal.EndsInObject "\x7ba: 1, re: /*x/\x7d \x7bb: [2]\x7d".toList ∧
    ¬['*', '/'] <:+: "// b\n\x7bb: 3,\x7d //".toList ∧
    Predicate.parse ("\x7ba: 1, re: /*x/\x7d \x7bb: [2]\x7d" ++ "," ++ "// b\n\x7bb: 3,\x7d //") =
      .ok ⟨[("a", .ofInt 1), ("b", .ofInt 3), ("re", Literal.regexDocument "*x" "")]⟩ := by
  have first : Predicate.parse "\x7ba: 1, re: /*x/\x7d \x7bb: [2]\x7d" = .ok ⟨[("a", .ofInt 1),
      ("b", .array [.ofInt 2]), ("re", Literal.regexDocument "*x" "")]⟩ :=
    toOption_some_iff.mp (by decide +kernel)
  have second : Predicate.parse "// b\n\x7bb: 3,\x7d //" = .ok ⟨[("b", .ofInt 3)]⟩ :=
    toOption_some_iff.mp (by decide +kernel)
  have ends : Literal.EndsInObject "\x7ba: 1, re: /*x/\x7d \x7bb: [2]\x7d".toList := by
    obtain ⟨⟨_, _⟩, last, rfl⟩ := Option.map_eq_some_iff.mp
      (show (Literal.object? 9 "\x7bb: [2]\x7d".toList).map Prod.snd = some [] by decide +kernel)
    obtain ⟨⟨_, _⟩, front, rfl⟩ := Option.map_eq_some_iff.mp
      (show (Literal.object? 9 "\x7ba: 1, re: /*x/\x7d \x7bb: [2]\x7d".toList).map Prod.snd =
        some " \x7bb: [2]\x7d".toList by decide +kernel)
    exact ⟨_, .cons front (.inl (by decide +kernel)) (.last last)⟩
  have unclosed : ¬['*', '/'] <:+: "// b\n\x7bb: 3,\x7d //".toList := by decide +kernel
  exact ⟨ends, unclosed, (Predicate.parse_joined first second ends unclosed).2.1⟩

end PageQuery
