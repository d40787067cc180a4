/-
# The text of a JSON value

The compact form has no blanks; the indented form puts each item and field on a line of its own, two
blanks deeper than its container, and leaves an empty container closed. In a string only the quote,
the backslash and the control characters below U+0020 are escaped.

A double whose leading digit stands for 10^-5 up to 10^15 is written positionally with at least one
fraction digit; any other is written with an exponent that shows its sign. A zero keeps its sign, and
what is not finite is written `null`.

Key definitions: `Json.chars`, `Json.compact`, `Json.indented`, `Double.chars`.
-/
import PageQuery.Json.Basic
import PageQuery.Number.Shortest

namespace PageQuery

/-! ### Numbers -/

/-- The decimal digits of a natural number. -/
def natChars (n : Nat) : List Char := Nat.toDigits 10 n

def intChars : Int → List Char
  | .ofNat n => natChars n
  | .negSucc n => '-' :: natChars (n + 1)

namespace Decimal

/-- The least power of ten of a leading digit that is still written positionally. -/
def leastPlain : Int := -5

/-- The power of ten of a leading digit from which on an exponent is written. -/
def firstScaled : Int := 16

/-- Positional text: the point stands behind the ones, with a digit on either side. -/
def plainChars (d : Decimal) : List Char :=
  let ds := d.digits
  if d.leading < 0 then
    '0' :: '.' :: (List.replicate (-d.leading - 1).toNat '0' ++ ds)
  else
    let whole := (d.leading + 1).toNat
    if ds.length ≤ whole then ds ++ List.replicate (whole - ds.length) '0' ++ ['.', '0']
    else ds.take whole ++ '.' :: ds.drop whole

/-- Text with an exponent: one digit, the rest behind a point, the signed power of ten. -/
def scaledChars (d : Decimal) : List Char :=
  let fraction := d.digits.drop 1
  let head := d.digits.take 1 ++ (if fraction.isEmpty then [] else '.' :: fraction)
  let sign := if d.leading < 0 then '-' else '+'
  head ++ 'e' :: sign :: natChars d.leading.natAbs

def chars (d : Decimal) : List Char :=
  if leastPlain ≤ d.leading ∧ d.leading < firstScaled then d.plainChars else d.scaledChars

end Decimal

/-- The text of a double: the fewest digits that read back, in the layout above. -/
def Double.chars : Double → List Char
  | .finite negative m e =>
    let text := if m = 0 then ['0', '.', '0'] else (Double.shortest m e).chars
    if negative then '-' :: text else text
  | _ => ['n', 'u', 'l', 'l']

def Number.chars : Number → List Char
  | .int n => intChars n
  | .double d => d.chars

/-! ### Strings -/

/-- How one character stands inside a string. -/
def escapedChar (c : Char) : List Char :=
  if c = '"' then ['\\', '"']
  else if c = '\\' then ['\\', '\\']
  else if c = '\n' then ['\\', 'n']
  else if c = '\r' then ['\\', 'r']
  else if c = '\t' then ['\\', 't']
  else if c = '\x08' then ['\\', 'b']
  else if c = '\x0c' then ['\\', 'f']
  else if c.toNat < 0x20 then
    ['\\', 'u', '0', '0', Nat.digitChar (c.toNat / 16), Nat.digitChar (c.toNat % 16)]
  else [c]

/-- A string between quotes. -/
def quotedChars (s : List Char) : List Char := '"' :: (s.flatMap escapedChar ++ ['"'])

/-! ### Values -/

namespace Json

mutual

/-- The compact text of a value. -/
def chars : Json → List Char
  | .null => ['n', 'u', 'l', 'l']
  | .bool true => ['t', 'r', 'u', 'e']
  | .bool false => ['f', 'a', 'l', 's', 'e']
  | .number n => n.chars
  | .string s => quotedChars s.toList
  | .array items => '[' :: itemChars items
  | .object fields => '{' :: fieldChars fields

/-- The items, separated by commas, and the closing bracket. -/
def itemChars : List Json → List Char
  | [] => [']']
  | v :: rest => chars v ++ moreItemChars rest

def moreItemChars : List Json → List Char
  | [] => [']']
  | v :: rest => ',' :: (chars v ++ moreItemChars rest)

/-- The fields, separated by commas, and the closing brace. -/
def fieldChars : List (String × Json) → List Char
  | [] => ['}']
  | (k, v) :: rest => quotedChars k.toList ++ ':' :: (chars v ++ moreFieldChars rest)

def moreFieldChars : List (String × Json) → List Char
  | [] => ['}']
  | (k, v) :: rest => ',' :: (quotedChars k.toList ++ ':' :: (chars v ++ moreFieldChars rest))

end

/-- The compact text of a value. -/
def compact (v : Json) : String := String.ofList v.chars

/-- A new line that begins `depth` levels deep. -/
def lineBreak (depth : Nat) : List Char := '\n' :: List.replicate (2 * depth) ' '

mutual

/-- The indented text of a value whose container stands `depth` levels deep. -/
def indentedChars (depth : Nat) : Json → List Char
  | .array [] => ['[', ']']
  | .array (v :: rest) =>
    '[' :: (lineBreak (depth + 1) ++ indentedChars (depth + 1) v ++ indentedItems (depth + 1) rest
      ++ lineBreak depth ++ [']'])
  | .object [] => ['{', '}']
  | .object ((k, v) :: rest) =>
    '{' :: (lineBreak (depth + 1) ++ quotedChars k.toList ++ ':' :: ' ' :: indentedChars (depth + 1) v
      ++ indentedFields (depth + 1) rest ++ lineBreak depth ++ ['}'])
  | v => v.chars

def indentedItems (depth : Nat) : List Json → List Char
  | [] => []
  | v :: rest => ',' :: (lineBreak depth ++ indentedChars depth v ++ indentedItems depth rest)

def indentedFields (depth : Nat) : List (String × Json) → List Char
  | [] => []
  | (k, v) :: rest =>
    ',' :: (lineBreak depth ++ quotedChars k.toList ++ ':' :: ' ' :: indentedChars depth v
      ++ indentedFields depth rest)

end

/-- The text of a value over several lines. -/
def indented (v : Json) : String := String.ofList (v.indentedChars 0)

end Json

end PageQuery
