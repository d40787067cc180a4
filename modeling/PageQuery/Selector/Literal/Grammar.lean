/-
# Property literals

The text of a predicate is one or more objects behind one another, a comma between them or none. The
notation extends JSON: keys may be bare names or numbers, strings may stand in single quotes, a comma
may close a list, `undefined` is null, `/body/flags` is a regular expression, and comments stand
wherever blanks may. An escape names one UTF-16 unit, and a surrogate becomes U+FFFD.

Key definitions: `Literal`, `Literal.skip`, `Literal.value?`, `Literal.blocks?`.
-/
import PageQuery.Json.Reader

namespace PageQuery

/-- A property literal as written. A number keeps its text. -/
inductive Literal where
  | null
  | bool (value : Bool)
  | number (text : String) (parts : NumberText)
  | string (value : String)
  | regex (body flags : String)
  | array (items : List Literal)
  | object (pairs : List (String × Literal))
  deriving Repr, Inhabited

namespace Literal

/-! ### Blanks and comments -/

def isBlank (c : Char) : Bool := c = ' ' || c = '\t' || c = '\r' || c = '\n'

/-- What is being skipped. A block comment remembers where it began. -/
inductive Filler where
  | blanks
  | lineComment
  | blockComment (start : List Char)

/-- Skips blanks and comments. A block comment without an end is not one: the walk returns to its
beginning. -/
def skipFrom : Filler → List Char → List Char
  | .blanks, '/' :: '*' :: rest => skipFrom (.blockComment ('/' :: '*' :: rest)) rest
  | .blanks, '/' :: '/' :: rest => skipFrom .lineComment rest
  | .blanks, c :: rest => if isBlank c then skipFrom .blanks rest else c :: rest
  | .blanks, [] => []
  | .lineComment, c :: rest => if c = '\n' then skipFrom .blanks rest else skipFrom .lineComment rest
  | .lineComment, [] => []
  | .blockComment _, '*' :: '/' :: rest => skipFrom .blanks rest
  | .blockComment start, _ :: rest => skipFrom (.blockComment start) rest
  | .blockComment start, [] => start

/-- Skips what may stand between two parts of a literal. -/
def skip (cs : List Char) : List Char := skipFrom .blanks cs

/-! ### Names, strings, regular expressions -/

def isAsciiLetter (c : Char) : Bool :=
  (decide ('a' ≤ c) && decide (c ≤ 'z')) || (decide ('A' ≤ c) && decide (c ≤ 'Z'))

def isNameStart (c : Char) : Bool := isAsciiLetter c || c = '_' || c = '$'

def isNameChar (c : Char) : Bool := isNameStart c || isDigit c

/-- What a letter behind a backslash stands for, `u` apart. -/
def escapeOf? (c : Char) : Option Char :=
  if c = '\'' then some c else Json.escapeOf? c

/-- The character of one UTF-16 unit; a surrogate is replaced. -/
def charOfUnit (unit : Nat) : Char :=
  if 0xD800 ≤ unit ∧ unit < 0xE000 then '\uFFFD' else Char.ofNat unit

/-- The rest of a string up to its closing quote `q`. -/
def quotedRest (q : Char) : List Char → Option (List Char × List Char)
  | [] => none
  | '\\' :: 'u' :: a :: b :: c :: d :: rest =>
    match hexQuad? a b c d with
    | none => none
    | some unit => Json.consTo (charOfUnit unit) (quotedRest q rest)
  | '\\' :: c :: rest =>
    match escapeOf? c with
    | none => none
    | some e => Json.consTo e (quotedRest q rest)
  | c :: rest =>
    if c = '\\' then none
    else if c = q then some ([], rest)
    else Json.consTo c (quotedRest q rest)

/-- The longest body of a regular expression: no slash, backslash or line break but behind a
backslash. -/
def regexBody : List Char → List Char × List Char
  | '\\' :: c :: rest =>
    let (body, rest) := regexBody rest
    ('\\' :: c :: body, rest)
  | c :: rest =>
    if c = '/' ∨ c = '\\' ∨ c = '\n' then ([], c :: rest)
    else
      let (body, rest) := regexBody rest
      (c :: body, rest)
  | [] => ([], [])

/-- A regular expression behind its opening slash: a body that is not empty, a slash, flags. -/
def regexRest (cs : List Char) : Option (Literal × List Char) :=
  match regexBody cs with
  | ([], _) => none
  | (body, '/' :: rest) =>
    some (.regex (String.ofList body) (String.ofList (rest.takeWhile isAsciiLetter)),
      rest.dropWhile isAsciiLetter)
  | _ => none

/-- The number at the beginning of a text and its spelling. -/
def spelledNumber? (cs : List Char) : Option ((String × NumberText) × List Char) :=
  match NumberText.scan? cs with
  | none => none
  | some (parts, rest) => some ((String.ofList (cs.take (cs.length - rest.length)), parts), rest)

/-- A key: a string, a number's spelling or a name. -/
def key? : List Char → Option (String × List Char)
  | [] => none
  | c :: rest =>
    if c = '"' ∨ c = '\'' then (quotedRest c rest).map fun (s, rest) => (String.ofList s, rest)
    else if isNameStart c then
      some (String.ofList (c :: rest.takeWhile isNameChar), rest.dropWhile isNameChar)
    else (spelledNumber? (c :: rest)).map fun (n, rest) => (n.1, rest)

/-- A word that is a value. -/
def word? (cs : List Char) : Option (Literal × List Char) :=
  let rest := cs.dropWhile isNameChar
  match cs.takeWhile isNameChar with
  | ['t', 'r', 'u', 'e'] => some (.bool true, rest)
  | ['f', 'a', 'l', 's', 'e'] => some (.bool false, rest)
  | ['n', 'u', 'l', 'l'] => some (.null, rest)
  | ['u', 'n', 'd', 'e', 'f', 'i', 'n', 'e', 'd'] => some (.null, rest)
  | _ => none

/-! ### Values -/

mutual

/-- The value at the beginning of a text. The fuel bounds the number of values and pairs read. -/
def value? : Nat → List Char → Option (Literal × List Char)
  | 0, _ => none
  | fuel + 1, cs =>
    match cs with
    | '{' :: rest =>
      match skip rest with
      | '}' :: rest => some (.object [], rest)
      | rest => (pairs? fuel rest).map fun (ps, rest) => (.object ps, rest)
    | '[' :: rest =>
      match skip rest with
      | ']' :: rest => some (.array [], rest)
      | rest => (items? fuel rest).map fun (vs, rest) => (.array vs, rest)
    | '/' :: rest => regexRest rest
    | c :: rest =>
      if c = '"' ∨ c = '\'' then
        (quotedRest c rest).map fun (s, rest) => (.string (String.ofList s), rest)
      else if isNameStart c then word? (c :: rest)
      else (spelledNumber? (c :: rest)).map fun (n, rest) => (.number n.1 n.2, rest)
    | [] => none

/-- The pairs of an object from the first key to the closing brace. -/
def pairs? : Nat → List Char → Option (List (String × Literal) × List Char)
  | 0, _ => none
  | fuel + 1, cs =>
    match key? cs with
    | none => none
    | some (key, rest) =>
      match skip rest with
      | ':' :: rest =>
        match value? fuel (skip rest) with
        | none => none
        | some (v, rest) =>
          match skip rest with
          | '}' :: rest => some ([(key, v)], rest)
          | ',' :: rest =>
            match skip rest with
            | '}' :: rest => some ([(key, v)], rest)
            | rest => (pairs? fuel rest).map fun (ps, rest) => ((key, v) :: ps, rest)
          | _ => none
      | _ => none

/-- The items of an array from the first one to the closing bracket. -/
def items? : Nat → List Char → Option (List Literal × List Char)
  | 0, _ => none
  | fuel + 1, cs =>
    match value? fuel cs with
    | none => none
    | some (v, rest) =>
      match skip rest with
      | ']' :: rest => some ([v], rest)
      | ',' :: rest =>
        match skip rest with
        | ']' :: rest => some ([v], rest)
        | rest => (items? fuel rest).map fun (vs, rest) => (v :: vs, rest)
      | _ => none

end

/-- The object at the beginning of a text. -/
def object? (fuel : Nat) (cs : List Char) : Option (List (String × Literal) × List Char) :=
  match value? fuel cs with
  | some (.object pairs, rest) => some (pairs, rest)
  | _ => none

/-- The objects of a text that is skipped up to the first of them, to its end. -/
def blocksFrom? : Nat → List Char → Option (List (List (String × Literal)))
  | 0, _ => none
  | fuel + 1, cs =>
    match object? fuel cs with
    | none => none
    | some (pairs, rest) =>
      match skip rest with
      | [] => some [pairs]
      | ',' :: rest => (blocksFrom? fuel (skip rest)).map (pairs :: ·)
      | rest => (blocksFrom? fuel rest).map (pairs :: ·)

/-- The objects of a whole text. -/
def blocks? (cs : List Char) : Option (List (List (String × Literal))) :=
  blocksFrom? (2 * cs.length + 3) (skip cs)

end Literal

end PageQuery
