/-
# Where a predicate block ends

Behind a component's name the splitter leaves a predicate block where the grammar of literals does,
provided that the comments and regular expressions in it are balanced. The apostrophe of a comment is
enough to set the two apart.

Key definitions: `Selector.commentedBlock`.
Key theorems: `tokenizeChars_block`, `Selector.parse_block`, `Selector.parse_block_apostrophe`.
-/
import PageQuery.Proofs.Selector.Literals

namespace PageQuery

theorem isBlankChar_of_isNameChar {c : Char} (h : Literal.isNameChar c = true) :
    isBlankChar c = false := by
  have range : 0x20 < c.toNat ∧ c.toNat < 0x80 := by
    simp only [Literal.isNameChar, Literal.isNameStart, Literal.isAsciiLetter, isDigit, Bool.or_eq_true,
      Bool.and_eq_true, decide_eq_true_eq, Char.le_def, UInt32.le_iff_toNat_le, Char.toNat_val,
      Char.reduceVal, UInt32.reduceToNat] at h
    rcases h with ((h | rfl) | rfl) | h
    · omega
    · decide
    · decide
    · omega
  simp [isBlankChar, loneBlanks]
  omega

open Selector (componentMark) in
/-- A name and a block behind a component's mark are one token. -/
theorem tokenizeChars_block {name inner : List Char} (plain : ∀ c ∈ name, Literal.isNameChar c = true)
    (h : Balanced inner) :
    tokenizeChars (componentMark :: (name ++ '{' :: (inner ++ ['}']))) =
      .ok [componentMark :: (name ++ '{' :: (inner ++ ['}']))] := by
  have named : Balanced (componentMark :: name) := Literal.balanced_of_plain (List.forall_mem_cons.mpr
    ⟨by decide, fun c hc => Literal.not_mem_marks (by decide) (plain c hc)⟩)
  have solid : ∀ c ∈ componentMark :: name, isBlankChar c = false :=
    List.forall_mem_cons.mpr ⟨by decide, fun c hc => isBlankChar_of_isNameChar (plain c hc)⟩
  have opened (token rest : List Char) : tokensFrom ⟨token, [], none, false⟩ ('{' :: rest) =
      tokensFrom ⟨'{' :: token, ['}'], none, false⟩ rest := rfl
  have closed (token : List Char) : tokensFrom ⟨token, ['}'], none, false⟩ ['}'] =
      .ok [('}' :: token).reverse] := rfl
  calc tokensFrom .between (componentMark :: name ++ '{' :: (inner ++ ['}']))
    _ = tokensFrom ⟨(componentMark :: name).reverse ++ [], [], none, false⟩ ('{' :: (inner ++ ['}'])) :=
      tokensFrom_balanced named (.inr solid) _
    _ = tokensFrom ⟨inner.reverse ++ '{' :: ((componentMark :: name).reverse ++ []), ['}'], none, false⟩
          ['}'] := by
      rw [opened, tokensFrom_balanced h (.inl (by simp))]
    _ = .ok [componentMark :: (name ++ '{' :: (inner ++ ['}']))] := by rw [closed]; simp

namespace Selector

theorem componentOf_block {name inner : List Char} (named : name ≠ [])
    (plain : ∀ c ∈ name, Literal.isNameChar c = true) (token : List Char) :
    componentOf token (name ++ '{' :: inner) =
      (Predicate.parse (String.ofList ('{' :: inner))).map fun predicate =>
        ⟨String.ofList name, predicate⟩ := by
  have apart : ∀ c ∈ name, decide (c ≠ '{') = true := by
    intro c hc
    have mark := Literal.not_mem_marks (by decide) (plain c hc)
    exact decide_eq_true fun e => mark (e ▸ by decide)
  have first : (name ++ '{' :: inner).takeWhile (· ≠ '{') = name := by
    rw [List.takeWhile_append_of_pos apart]; simp
  have behind : (name ++ '{' :: inner).dropWhile (· ≠ '{') = '{' :: inner := by
    rw [List.dropWhile_append_of_pos apart]; simp
  unfold componentOf
  rw [first, behind]
  simp [named]

/-- **A block whose comments and regular expressions are balanced ends where the grammar says.** Behind a
component's name it makes one segment, with the predicate that it denotes; there is one unless a number is
too large. -/
theorem parse_block {name text : String} (named : name ≠ "")
    (plain : ∀ c ∈ name.toList, Literal.isNameChar c = true) (block : Literal.IsObject text.toList)
    (balanced : ∀ aside ∈ Literal.asides text.toList, Balanced aside) :
    (∃ predicate, Predicate.parse text = .ok predicate ∧
        parse ("@" ++ name ++ text) = .ok ⟨"@" ++ name ++ text, [.component ⟨name, predicate⟩]⟩) ∨
      ∃ number, Predicate.parse text = .error (.invalidPredicate text (.invalidNumber number)) ∧
        parse ("@" ++ name ++ text) = .error (.invalidPredicate text (.invalidNumber number)) := by
  obtain ⟨inner, split, within⟩ := block.inner balanced
  have chars : ("@" ++ name ++ text).toList = componentMark :: (name.toList ++ '{' :: (inner ++ ['}'])) := by
    simp [split, componentMark]
  have parsed : parse ("@" ++ name ++ text) = (Predicate.parse text).map fun predicate =>
      ⟨"@" ++ name ++ text, [.component ⟨name, predicate⟩]⟩ := by
    unfold parse segmentsOf
    rw [chars, tokenizeChars_block plain within]
    dsimp only
    rw [segmentsFrom_marked, componentOf_block (by simpa using named) plain, ← split,
      String.ofList_toList, String.ofList_toList]
    cases Predicate.parse text <;> rfl
  rcases Predicate.parse_of_isObject block with ⟨predicate, denotes⟩ | ⟨number, large⟩
  · exact .inl ⟨predicate, denotes, by rw [parsed, denotes]; rfl⟩
  · exact .inr ⟨number, large, by rw [parsed, large]; rfl⟩

/-- A block with a quote and a brace in a string, brackets and a slash in a regular expression, and two
comments. -/
def commentedBlock : String :=
  "\x7btext: 'it\\'s \x7d', tags: [/^(a|\\/)$/i, /* (two) */ 2, // last\n],\x7d"

theorem parse_block_commented : ∃ predicate, Predicate.parse commentedBlock = .ok predicate ∧
    parse ("@" ++ "Card_2" ++ commentedBlock) =
      .ok ⟨"@" ++ "Card_2" ++ commentedBlock, [.component ⟨"Card_2", predicate⟩]⟩ ∧
    predicate.fields = [("tags", .array [Literal.regexDocument "^(a|\\/)$" "i", .number (.int 2)]),
      ("text", .string "it's \x7d")] := by
  have denotes : Predicate.parse commentedBlock =
      .ok ⟨[("tags", .array [Literal.regexDocument "^(a|\\/)$" "i", .number (.int 2)]),
        ("text", .string "it's \x7d")]⟩ := by decide +kernel
  have named : ∀ c ∈ "Card_2".toList, Literal.isNameChar c = true :=
    List.all_eq_true.mp (by decide +kernel)
  have block : Literal.IsObject commentedBlock.toList := by decide +kernel
  have balanced : ∀ aside ∈ Literal.asides commentedBlock.toList, Balanced aside := by decide +kernel
  rcases parse_block (by decide) named block balanced with ⟨predicate, same, parsed⟩ | ⟨number, large, -⟩
  · cases denotes.symm.trans same
    exact ⟨_, denotes, parsed, rfl⟩
  · cases denotes.symm.trans large

/-- The splitter takes the apostrophe of a comment for a quote, though the grammar accepts the block. -/
theorem parse_block_apostrophe :
    Literal.IsObject "\x7ba: 1 /* it's */\x7d".toList ∧
    Predicate.parse "\x7ba: 1 /* it's */\x7d" = .ok ⟨[("a", .number (.int 1))]⟩ ∧
    parse ("@" ++ "A" ++ "\x7ba: 1 /* it's */\x7d") =
      .error (.unterminatedQuote ("@" ++ "A" ++ "\x7ba: 1 /* it's */\x7d")) := by
  decide +kernel

end Selector

end PageQuery
