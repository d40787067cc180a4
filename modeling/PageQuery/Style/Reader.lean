/-
# Reading structural selectors

Selectors are separated by commas. Names of tags, attributes and pseudo-classes ignore the case of
ASCII letters; other names and values do not. What is open at the end of the text counts as closed.

Comments may stand between any two parts, and are no blanks: what they part are two names, but one
compound. No prefix stands for a namespace, so a name may be in any namespace, `*|name`, or in none, `|name`.

Among the selectors of `:is` and `:where` one that cannot be read selects nothing; elsewhere it makes
the whole text no selector. Inside `:has` there is no other `:has`.

Key definitions: `Style.identAt`, `Style.placesAt`, `Style.typeAt`, `Style.read?`.
-/
import PageQuery.Style.Basic
import PageQuery.Json.Reader

namespace PageQuery

namespace Style

/-- Blanks between the parts of a selector. -/
def isBlank (c : Char) : Bool :=
  c = ' ' || c = '\t' || c = '\n' || c = '\r' || c = '\x0c'

/-- The text behind a comment, from behind its opening. One that is left open ends with the text. -/
def behindComment : List Char → List Char
  | '*' :: '/' :: rest => rest
  | _ :: rest => behindComment rest
  | [] => []

/-- Passes over comments, and over characters of a class, at most so many in all. -/
def skipOver (passes : Char → Bool) : Nat → List Char → List Char
  | 0, cs => cs
  | _ + 1, [] => []
  | fuel + 1, '/' :: '*' :: rest => skipOver passes fuel (behindComment rest)
  | fuel + 1, c :: rest => if passes c then skipOver passes fuel rest else c :: rest

def skipComments (cs : List Char) : List Char := skipOver (fun _ => false) cs.length cs

/-- Passes over blanks and comments. -/
def skipBlanks (cs : List Char) : List Char := skipOver isBlank cs.length cs

def lowerAscii (s : String) : String := String.ofList (s.toList.map Char.toLower)

/-! ### Names and strings -/

def isNameStart (c : Char) : Bool := c.isAlpha || c = '_' || decide (0x80 ≤ c.toNat) || c = '\x00'

def isNameChar (c : Char) : Bool := isNameStart c || c.isDigit || c = '-'

/-- The character of a code point, a replacement where there is none. -/
def charOf (code : Nat) : Char :=
  if code = 0 ∨ (0xD800 ≤ code ∧ code ≤ 0xDFFF) ∨ 0x10FFFF < code then Char.ofNat 0xFFFD
  else Char.ofNat code

/-- An escaped character, from behind the backslash, and the rest. -/
def escapeAt : List Char → Option (Char × List Char)
  | [] => some (Char.ofNat 0xFFFD, [])
  | c :: rest =>
    if c = '\n' || c = '\r' || c = '\x0c' then none
    else match hexValue? c with
      | none => some (c, rest)
      | some _ =>
        let digits := ((c :: rest).take 6).takeWhile fun d => (hexValue? d).isSome
        let code := digits.foldl (fun n d => n * 16 + (hexValue? d).getD 0) 0
        match (c :: rest).drop digits.length with
        | d :: more => some (charOf code, if isBlank d then more else d :: more)
        | [] => some (charOf code, [])

/-- The rest of a name, at most so many characters. -/
def nameAt : Nat → List Char → List Char × List Char
  | 0, cs => ([], cs)
  | _ + 1, [] => ([], [])
  | fuel + 1, '\\' :: rest =>
    match escapeAt rest with
    | none => ([], '\\' :: rest)
    | some (c, more) =>
      let (name, more) := nameAt fuel more
      (c :: name, more)
  | fuel + 1, c :: rest =>
    if isNameChar c then
      let (name, more) := nameAt fuel rest
      ((if c = '\x00' then Char.ofNat 0xFFFD else c) :: name, more)
    else ([], c :: rest)

/-- Whether a name begins here. -/
def beginsName : List Char → Bool
  | '-' :: '-' :: _ => true
  | '-' :: '\\' :: rest => (escapeAt rest).isSome
  | '-' :: c :: _ => isNameStart c
  | '\\' :: rest => (escapeAt rest).isSome
  | c :: _ => isNameStart c
  | [] => false

/-- A name and the rest. -/
def identAt (cs : List Char) : Option (String × List Char) :=
  if beginsName cs then
    let (name, rest) := nameAt cs.length cs
    some (String.ofList name, rest)
  else none

/-- A string behind its opening quote, at most so many characters. -/
def stringAt (quote : Char) : Nat → List Char → Option (List Char × List Char)
  | 0, _ => none
  | _ + 1, [] => some ([], [])
  | fuel + 1, c :: rest =>
    if c = quote then some ([], rest)
    else if c = '\n' || c = '\r' || c = '\x0c' then none
    else if c = '\\' then
      match rest with
      | [] => some ([], [])
      | '\n' :: more => stringAt quote fuel more
      | _ =>
        match escapeAt rest with
        | none => none
        | some (d, more) => (stringAt quote fuel more).map fun (text, more) => (d :: text, more)
    else (stringAt quote fuel rest).map fun (text, more) => (c :: text, more)

/-- A name or a string. -/
def valueAt : List Char → Option (String × List Char)
  | c :: rest =>
    if c = '"' || c = '\'' then
      (stringAt c (rest.length + 1) rest).map fun (text, more) => (String.ofList text, more)
    else identAt (c :: rest)
  | [] => none

/-! ### Attributes -/

/-- The end of something in brackets; the end of the text will do. -/
def closeAt (bracket : Char) (cs : List Char) : Option (List Char) :=
  match skipBlanks cs with
  | [] => some []
  | c :: rest => if c = bracket then some rest else none

/-- A comparison and the rest. -/
def comparisonAt : List Char → Option ((String → AttributeTest) × List Char)
  | '=' :: rest => some (.equal, rest)
  | '~' :: '=' :: rest => some (.word, rest)
  | '|' :: '=' :: rest => some (.dashed, rest)
  | '^' :: '=' :: rest => some (.start, rest)
  | '$' :: '=' :: rest => some (.finish, rest)
  | '*' :: '=' :: rest => some (.part, rest)
  | _ => none

/-- A flag for the case of letters, if there is one. -/
def caseRuleAt (cs : List Char) : Option (CaseRule × List Char) :=
  match identAt (skipBlanks cs) with
  | none => some (.byName, cs)
  | some (flag, rest) =>
    if lowerAscii flag = "i" then some (.ignored, rest)
    else if lowerAscii flag = "s" then some (.kept, rest)
    else none

/-- The rest behind a bar, which sets a name off from its namespace; none where a comparison begins. -/
def barAt (cs : List Char) : Option (List Char) :=
  match skipComments cs with
  | '|' :: '=' :: _ => none
  | '|' :: rest => some rest
  | _ => none

/-- The name of an attribute, whether it may be in any namespace, and the rest. -/
def attributeNameAt (cs : List Char) : Option (String × Bool × List Char) :=
  let named := fun (anywhere : Bool) (cs : List Char) =>
    (identAt (skipComments cs)).map fun (name, rest) => (name, anywhere, rest)
  match barAt cs, cs with
  | some rest, _ => named false rest
  | none, '*' :: rest => (barAt rest).bind (named true)
  | none, _ =>
    match identAt cs with
    | some (name, rest) => if (barAt rest).isSome then none else some (name, false, rest)
    | none => none

/-- An attribute behind its opening bracket. -/
def attributeAt (cs : List Char) : Option (StyleTest × List Char) := do
  let (name, anywhere, rest) ← attributeNameAt (skipBlanks cs)
  match closeAt ']' rest with
  | some rest => return (.attribute name anywhere .present .byName, rest)
  | none =>
    let (test, rest) ← comparisonAt (skipBlanks rest)
    let (value, rest) ← valueAt (skipBlanks rest)
    let (rule, rest) ← caseRuleAt rest
    let rest ← closeAt ']' rest
    return (.attribute name anywhere (test value) rule, rest)

/-! ### Places -/

/-- A number written in digits alone, and the rest. -/
def digitsAt (cs : List Char) : Option (Int × List Char) :=
  let digits := cs.takeWhile Char.isDigit
  if digits.isEmpty then none
  else some (digitsValue 0 digits, cs.drop digits.length)

/-- A sign and the rest. -/
def signAt : List Char → Int × List Char
  | '+' :: rest => (1, rest)
  | '-' :: rest => (-1, rest)
  | cs => (1, cs)

/-- The offset behind `n`: a sign, with or without blanks around it, and a number. -/
def offsetAt (cs : List Char) : Option (Int × List Char) :=
  match skipBlanks cs with
  | '+' :: rest => digitsAt (skipBlanks rest)
  | '-' :: rest => (digitsAt (skipBlanks rest)).map fun (n, more) => (-n, more)
  | _ => some (0, cs)

/-- Whether a number or a name would go on here. -/
def goesOn (cs : List Char) : Bool :=
  match cs with
  | c :: _ => isNameChar c || c = '.' || c = '\\'
  | [] => false

/-- The step and offset of places, and the rest. -/
def formulaAt (cs : List Char) : Option (Places × List Char) := do
  let (sign, unsigned) := signAt cs
  let stepped := fun (size : Int) (rest : List Char) => do
    let (offset, rest) ← offsetAt rest
    if goesOn rest then none else return (⟨sign * size, offset⟩, rest)
  match digitsAt unsigned with
  | some (n, rest) =>
    match rest with
    | c :: more =>
      if c = 'n' || c = 'N' then stepped n more
      else if goesOn rest then none
      else return (⟨0, sign * n⟩, rest)
    | [] => return (⟨0, sign * n⟩, [])
  | none =>
    match unsigned with
    | c :: more => if c = 'n' || c = 'N' then stepped 1 more else none
    | [] => none

/-- Places: `odd`, `even` or a formula. -/
def placesAt (cs : List Char) : Option (Places × List Char) :=
  let word := match identAt cs with
    | some (name, rest) => (lowerAscii name, rest)
    | none => ("", cs)
  if word.1 = "odd" then some (⟨2, 1⟩, word.2)
  else if word.1 = "even" then some (⟨2, 0⟩, word.2)
  else formulaAt cs

/-! ### Pseudo-classes -/

def firstPlace : Places := ⟨0, 1⟩

/-- The tests that a pseudo-class without arguments stands for. -/
def plainTests? (name : String) : Option (List StyleTest) :=
  let placed := fun ofType fromEnd => StyleTest.place ofType fromEnd firstPlace
  if name = "first-child" then some [placed false false]
  else if name = "last-child" then some [placed false true]
  else if name = "only-child" then some [placed false false, placed false true]
  else if name = "first-of-type" then some [placed true false]
  else if name = "last-of-type" then some [placed true true]
  else if name = "only-of-type" then some [placed true false, placed true true]
  else if name = "root" || name = "scope" then some [.root]
  else if name = "empty" then some [.empty]
  else none

/-- Whether a pseudo-class names places, and of which elements and from where. -/
def placeKind? (name : String) : Option (Bool × Bool) :=
  if name = "nth-child" then some (false, false)
  else if name = "nth-last-child" then some (false, true)
  else if name = "nth-of-type" then some (true, false)
  else if name = "nth-last-of-type" then some (true, true)
  else none

/-- A sign for how elements stand to each other. -/
def signOf? : Char → Option Combinator
  | '>' => some .child
  | '+' => some .nextSibling
  | '~' => some .laterSibling
  | _ => none

/-- A combinator and the rest, unless a selector ends here. -/
def combinatorAt (cs : List Char) : Option (Combinator × List Char) :=
  match skipBlanks cs with
  | [] => none
  | c :: rest =>
    match signOf? c with
    | some combinator => some (combinator, rest)
    | none =>
      if c = ',' || c = ')' then none
      else if (skipComments cs).head?.any isBlank then some (.descendant, c :: rest)
      else none

/-- The rest behind a string, from behind its opening quote; one that is cut off ends with its line. -/
def behindString (quote : Char) (cs : List Char) : List Char :=
  match stringAt quote (cs.length + 1) cs with
  | some (_, rest) => rest
  | none => cs.dropWhile fun c => !(c = '\n' || c = '\r' || c = '\x0c')

/-- The text up to a comma or a closing bracket outside brackets, strings and comments, passed over, at most so
many parts; `closers` are the brackets open here, innermost first. Nothing if brackets do not match. -/
def skipItem : Nat → List Char → List Char → Option (List Char)
  | 0, _, _ => none
  | fuel + 1, closers, cs =>
    match skipComments cs with
    | [] => some []
    | '\\' :: rest => skipItem fuel closers (rest.drop 1)
    | c :: rest =>
      if closers.isEmpty && (c = ',' || c = ')') then some (c :: rest)
      else if c = '"' || c = '\'' then skipItem fuel closers (behindString c rest)
      else if c = '(' then skipItem fuel (')' :: closers) rest
      else if c = '[' then skipItem fuel (']' :: closers) rest
      else if c = '\x7b' then skipItem fuel ('\x7d' :: closers) rest
      else if c = ')' || c = ']' || c = '\x7d' then
        if closers.head? = some c then skipItem fuel closers.tail rest else none
      else skipItem fuel closers rest

/-- Whether a selector of a list ends here. -/
def endsItem : List Char → Bool
  | [] => true
  | c :: _ => c = ',' || c = ')'

/-! ### Types -/

/-- A name or a star behind a bar: the tests, those given before them, and the rest. -/
def typeBehindBar (before : List StyleTest) (cs : List Char) : Option (List StyleTest × List Char) :=
  match skipComments cs with
  | '*' :: rest => some (before, rest)
  | cs => (identAt cs).map fun (name, rest) => (before ++ [.tag name], rest)

/-- The tests of an element's name, if a compound begins with a name or a star, and the rest. A prefix is not
known, and no element is without a namespace. -/
def typeAt (cs : List Char) : Option (Option (List StyleTest) × List Char) :=
  let given := fun (found : List StyleTest × List Char) => (some found.1, found.2)
  match barAt cs, cs with
  | some rest, _ => (typeBehindBar [.oneOf []] rest).map given
  | none, '*' :: rest =>
    match barAt rest with
    | some rest => (typeBehindBar [] rest).map given
    | none => some (some [], rest)
  | none, _ =>
    match identAt cs with
    | some (name, rest) => if (barAt rest).isSome then none else some (some [.tag name], rest)
    | none => some (none, cs)

/-! ### Selectors -/

mutual

/-- Selectors separated by commas; `within` says that they stand inside `:has`. -/
def listAt (within : Bool) : Nat → List Char → Option (List StyleSelector × List Char)
  | 0, _ => none
  | fuel + 1, cs =>
    match selectorAt within fuel cs with
    | none => none
    | some (s, ',' :: rest) => (listAt within fuel rest).map fun (more, rest) => (s :: more, rest)
    | some (s, rest) => some ([s], rest)

/-- Selectors separated by commas, those that cannot be read selecting nothing. -/
def forgivingAt (within : Bool) : Nat → List Char → Option (List StyleSelector × List Char)
  | 0, _ => none
  | fuel + 1, cs =>
    let item := match selectorAt within fuel cs with
      | some (s, rest) => if endsItem rest then some (s, rest) else none
      | none => none
    let item := item.or ((skipItem (cs.length + 1) [] cs).map fun rest => (StyleSelector.nothing, rest))
    match item with
    | none => none
    | some (s, ',' :: rest) =>
      (forgivingAt within fuel rest).map fun (more, rest) => (s :: more, rest)
    | some (s, rest) => some ([s], rest)

/-- Relative selectors separated by commas. -/
def relativesAt : Nat → List Char → Option (List StyleRelative × List Char)
  | 0, _ => none
  | fuel + 1, cs =>
    let (combinator, start) := match combinatorAt cs with
      | some (c, rest) => (c, rest)
      | none => (.descendant, cs)
    match selectorAt true fuel start with
    | none => none
    | some (s, ',' :: rest) =>
      (relativesAt fuel rest).map fun (more, rest) => (.relative combinator s :: more, rest)
    | some (s, rest) => some ([.relative combinator s], rest)

/-- A selector. -/
def selectorAt (within : Bool) : Nat → List Char → Option (StyleSelector × List Char)
  | 0, _ => none
  | fuel + 1, cs =>
    match compoundAt within fuel (skipBlanks cs) with
    | none => none
    | some (tests, rest) => combinedAt within fuel (.compound tests) rest

/-- A selector that goes on from its left part. -/
def combinedAt (within : Bool) : Nat → StyleSelector → List Char →
    Option (StyleSelector × List Char)
  | 0, _, _ => none
  | fuel + 1, left, cs =>
    match combinatorAt cs with
    | none => some (left, skipBlanks cs)
    | some (combinator, rest) =>
      match compoundAt within fuel (skipBlanks rest) with
      | none => none
      | some (tests, rest) => combinedAt within fuel (.combined left combinator tests) rest

/-- A compound: perhaps a tag, and then other tests, at least one in all. -/
def compoundAt (within : Bool) : Nat → List Char → Option (List StyleTest × List Char)
  | 0, _ => none
  | fuel + 1, cs =>
    match typeAt cs with
    | none => none
    | some (some named, rest) =>
      (testsAt within fuel rest).map fun (tests, rest) => (named ++ tests, rest)
    | some (none, _) =>
      match testsAt within fuel cs with
      | some ([], _) => none
      | found => found

/-- Tests other than of the tag, as many as there are. -/
def testsAt (within : Bool) : Nat → List Char → Option (List StyleTest × List Char)
  | 0, _ => none
  | fuel + 1, cs =>
    let goOn := fun (found : Option (List StyleTest × List Char)) =>
      match found with
      | none => none
      | some (tests, rest) =>
        (testsAt within fuel rest).map fun (more, rest) => (tests ++ more, rest)
    match skipComments cs with
    | '#' :: rest => goOn ((identAt rest).map fun (name, rest) => ([.id name], rest))
    | '.' :: rest =>
      goOn ((identAt (skipComments rest)).map fun (name, rest) => ([.class name], rest))
    | '[' :: rest => goOn ((attributeAt rest).map fun (test, rest) => ([test], rest))
    | ':' :: rest =>
      match identAt (skipComments rest) with
      | none => none
      | some (name, '(' :: rest) => goOn (functionAt within fuel (lowerAscii name) rest)
      | some (name, rest) =>
        goOn ((plainTests? (lowerAscii name)).map fun tests => (tests, rest))
    | _ => some ([], cs)

/-- A pseudo-class with arguments, from behind its opening bracket. -/
def functionAt (within : Bool) : Nat → String → List Char → Option (List StyleTest × List Char)
  | 0, _, _ => none
  | fuel + 1, name, cs =>
    let close := fun (test : StyleTest) (rest : List Char) =>
      (closeAt ')' rest).map fun rest => ([test], rest)
    if name = "not" then
      (listAt within fuel cs).bind fun (selectors, rest) => close (.noneOf selectors) rest
    else if name = "is" || name = "where" then
      (forgivingAt within fuel cs).bind fun (selectors, rest) => close (.oneOf selectors) rest
    else if name = "has" then
      if within then none
      else (relativesAt fuel cs).bind fun (relatives, rest) => close (.has relatives) rest
    else
      match placeKind? name with
      | none => none
      | some (ofType, fromEnd) =>
        (placesAt (skipBlanks cs)).bind fun (places, rest) =>
          close (.place ofType fromEnd places) rest

end

/-- The selectors that a text denotes. -/
def read? (cs : List Char) : Option (List StyleSelector) :=
  match listAt false (4 * cs.length + 8) cs with
  | some (selectors, []) => some selectors
  | _ => none

end Style

end PageQuery
