/-
# Blank characters

The characters with the Unicode property White_Space, all 25 of them.

Key definitions: `isBlankChar`, `trimEnd`.
-/

namespace PageQuery

/-- Blank characters outside the ranges U+0009–U+000D and U+2000–U+200A. -/
def loneBlanks : List Nat :=
  [0x20, 0x85, 0xA0, 0x1680, 0x2028, 0x2029, 0x202F, 0x205F, 0x3000]

/-- The Unicode property White_Space. -/
def isBlankChar (c : Char) : Bool :=
  let n := c.toNat
  (decide (0x9 ≤ n) && decide (n ≤ 0xD)) || (decide (0x2000 ≤ n) && decide (n ≤ 0x200A))
    || loneBlanks.contains n

/-- Every character that the core library takes for a blank is one here. -/
theorem isBlankChar_of_isWhitespace {c : Char} (h : c.isWhitespace = true) :
    isBlankChar c = true := by
  simp only [Char.isWhitespace, Bool.or_eq_true, decide_eq_true_eq] at h
  rcases h with ((rfl | rfl) | rfl) | rfl <;> decide

/-- A text without the blanks at its end. -/
def trimEnd (cs : List Char) : List Char := (cs.reverse.dropWhile isBlankChar).reverse

end PageQuery
