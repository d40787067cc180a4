/-
# Reading JSON text

The reader takes the whole text: blanks, one value, blanks. It keeps the fields of an object in
written order, repeated keys included. Containers nest at most `maxDepth` deep, a string holds no raw
control character and no lone surrogate, and a number that no double can hold is refused.

A number written with a fraction or an exponent, or out of 64-bit range, becomes a double in two
steps: its digits, as far as they fit 64 bits, are rounded to a double, and that double is multiplied
or divided by a power of ten that is itself a double. A minus sign before a plain zero makes the
double -0.

Key definitions: `Json.read?`, `Json.parse?`, `NumberText.scan?`.
-/
import PageQuery.Json.Basic

namespace PageQuery

/-- How deep containers may nest in a text. -/
def Json.maxDepth : Nat := 127

def isDigit (c : Char) : Bool := decide ('0' ≤ c ∧ c ≤ '9')

def digitValue (c : Char) : Nat := c.toNat - '0'.toNat

/-- The number that a run of decimal digits denotes, after the digits denoting `n`. -/
def digitsValue (n : Nat) (ds : List Char) : Nat := ds.foldl (fun n d => n * 10 + digitValue d) n

/-- The value of a hexadecimal digit of either case. -/
def hexValue? (c : Char) : Option Nat :=
  if '0' ≤ c ∧ c ≤ '9' then some (c.toNat - '0'.toNat)
  else if 'a' ≤ c ∧ c ≤ 'f' then some (c.toNat - 'a'.toNat + 10)
  else if 'A' ≤ c ∧ c ≤ 'F' then some (c.toNat - 'A'.toNat + 10)
  else none

/-- The number that four hexadecimal digits denote. -/
def hexQuad? (a b c d : Char) : Option Nat := do
  let a ← hexValue? a
  let b ← hexValue? b
  let c ← hexValue? c
  let d ← hexValue? d
  return ((a * 16 + b) * 16 + c) * 16 + d

/-! ### The parts of a number's text -/

/-- A number as written: sign, whole digits, fraction digits, exponent. -/
structure NumberText where
  negative : Bool
  whole : List Char
  fraction : Option (List Char)
  exponent : Option (Bool × List Char)
  deriving DecidableEq, Repr

namespace NumberText

/-- A fraction: a point and at least one digit. A point without one is left in place. -/
def scanFraction : List Char → Option (List Char) × List Char
  | '.' :: rest =>
    let ds := rest.takeWhile isDigit
    if ds.isEmpty then (none, '.' :: rest) else (some ds, rest.dropWhile isDigit)
  | cs => (none, cs)

/-- The digits of an exponent behind its sign, for `whole` text from the letter on. -/
def scanPower (whole : List Char) (negative : Bool) (rest : List Char) :
    Option (Bool × List Char) × List Char :=
  let ds := rest.takeWhile isDigit
  if ds.isEmpty then (none, whole) else (some (negative, ds), rest.dropWhile isDigit)

/-- An exponent: the letter, a sign or none, at least one digit. One without is left in place. -/
def scanExponent : List Char → Option (Bool × List Char) × List Char
  | c :: rest =>
    if c = 'e' ∨ c = 'E' then
      match rest with
      | '+' :: more => scanPower (c :: rest) false more
      | '-' :: more => scanPower (c :: rest) true more
      | more => scanPower (c :: rest) false more
    else (none, c :: rest)
  | [] => (none, [])

/-- The whole part: a zero alone, or digits that begin with another one. -/
def scanWhole : List Char → Option (List Char × List Char)
  | '0' :: rest => some (['0'], rest)
  | c :: rest =>
    if isDigit c then some (c :: rest.takeWhile isDigit, rest.dropWhile isDigit) else none
  | [] => none

/-- The longest number at the beginning of a text. -/
def scan? (cs : List Char) : Option (NumberText × List Char) :=
  let (negative, cs) := match cs with
    | '-' :: rest => (true, rest)
    | cs => (false, cs)
  match scanWhole cs with
  | none => none
  | some (whole, rest) =>
    let (fraction, rest) := scanFraction rest
    let (exponent, rest) := scanExponent rest
    some (⟨negative, whole, fraction, exponent⟩, rest)

/-- Written with digits alone. -/
def isWhole (t : NumberText) : Bool := t.fraction.isNone && t.exponent.isNone

/-- The signed power of ten behind the digits. -/
def power (t : NumberText) : Int :=
  match t.exponent with
  | none => 0
  | some (negative, ds) => if negative then -(digitsValue 0 ds : Int) else digitsValue 0 ds

/-- The whole number denoted by the whole part, with its sign. -/
def wholeValue (t : NumberText) : Int :=
  if t.negative then -(digitsValue 0 t.whole : Int) else digitsValue 0 t.whole

/-- The double nearest to the number written. -/
def toDouble (t : NumberText) : Double :=
  let fraction := t.fraction.getD []
  Double.ofDecimal t.negative (digitsValue 0 (t.whole ++ fraction)) (t.power - fraction.length)

/-- The digits that fit 64 bits, as a number, and how many of the digits are left over. -/
def significand (n : Nat) : List Char → Nat × Nat
  | [] => (n, 0)
  | d :: ds =>
    if n * 10 + digitValue d < 2 ^ 64 then significand (n * 10 + digitValue d) ds
    else (n, ds.length + 1)

/-- `f · 10^exponent` by steps of powers of ten that are doubles; nothing if the size is too great. -/
def scaleBy (f : Double) (exponent : Int) : Nat → Option Double
  | 0 => none
  | fuel + 1 =>
    if exponent.natAbs ≤ 308 then
      let p := Double.ofDecimal false 1 exponent.natAbs
      let scaled := if 0 ≤ exponent then f.mul p else f.div p
      if scaled.isFinite then some scaled else none
    else if f.units = 0 then some f
    else if 0 ≤ exponent then none
    else scaleBy (f.div (Double.ofDecimal false 1 308)) (exponent + 308) fuel

/-- The double that a JSON text denotes: digits rounded first, then scaled and rounded again. -/
def twiceRounded? (t : NumberText) : Option Double :=
  let fraction := t.fraction.getD []
  let (n, left) := significand 0 t.whole
  let (n, kept) :=
    if left = 0 then
      let (m, dropped) := significand n fraction
      (m, fraction.length - dropped)
    else
      match fraction with
      | [] => (n, 0)
      | d :: ds =>
        let (m, dropped) := significand n (d :: ds)
        (m, ds.length + 1 - dropped)
  let exponent := t.power + left - kept
  if n = 0 then some (.finite t.negative 0 0)
  else if exponent < -1000 then some (.finite t.negative 0 0)
  else (scaleBy (Double.ofInt n) exponent 8).map fun f => if t.negative then f.neg else f

/-- The number that a JSON text denotes. -/
def toNumber? (t : NumberText) : Option Number :=
  let n := t.wholeValue
  if t.isWhole ∧ (Number.minInt ≤ n ∧ n ≤ Number.maxNat) ∧ ¬ (t.negative ∧ n = 0) then some (.int n)
  else t.twiceRounded?.map .double

end NumberText

/-! ### Text -/

namespace Json

def isBlank (c : Char) : Bool := c = ' ' || c = '\n' || c = '\t' || c = '\r'

def skipBlanks (cs : List Char) : List Char := cs.dropWhile isBlank

/-- What a letter behind a backslash stands for, `u` apart. -/
def escapeOf? (c : Char) : Option Char :=
  if c = '"' ∨ c = '\\' ∨ c = '/' then some c
  else if c = 'b' then some '\x08'
  else if c = 'f' then some '\x0c'
  else if c = 'n' then some '\n'
  else if c = 'r' then some '\r'
  else if c = 't' then some '\t'
  else none

/-- Puts a character before a string that was read. -/
def consTo (c : Char) : Option (List Char × List Char) → Option (List Char × List Char) :=
  Option.map fun (s, rest) => (c :: s, rest)

/-- The rest of a string up to its closing quote. Two escaped surrogates are one character. -/
def stringRest : List Char → Option (List Char × List Char)
  | [] => none
  | '"' :: rest => some ([], rest)
  | '\\' :: 'u' :: a :: b :: c :: d :: rest =>
    match hexQuad? a b c d with
    | none => none
    | some unit =>
      if 0xD800 ≤ unit ∧ unit < 0xDC00 then
        match rest with
        | '\\' :: 'u' :: e :: f :: g :: h :: rest =>
          match hexQuad? e f g h with
          | none => none
          | some low =>
            if 0xDC00 ≤ low ∧ low < 0xE000 then
              consTo (Char.ofNat (0x10000 + (unit - 0xD800) * 0x400 + (low - 0xDC00))) (stringRest rest)
            else none
        | _ => none
      else if 0xDC00 ≤ unit ∧ unit < 0xE000 then none
      else consTo (Char.ofNat unit) (stringRest rest)
  | '\\' :: c :: rest =>
    match escapeOf? c with
    | none => none
    | some e => consTo e (stringRest rest)
  | c :: rest => if c.toNat < 0x20 then none else consTo c (stringRest rest)

/-- Drops an expected word. -/
def afterWord? : List Char → List Char → Option (List Char)
  | [], rest => some rest
  | w :: ws, c :: cs => if w = c then afterWord? ws cs else none
  | _ :: _, [] => none

mutual

/-- One value at the beginning of a text, blanks before it skipped; `depth` more containers may be
opened. The fuel bounds the number of values and separators read. -/
def read? (depth : Nat) : Nat → List Char → Option (Json × List Char)
  | 0, _ => none
  | fuel + 1, cs =>
    match skipBlanks cs with
    | '{' :: rest =>
      if depth = 0 then none
      else
        match skipBlanks rest with
        | '}' :: rest => some (.object [], rest)
        | rest => (readFields (depth - 1) fuel rest).map fun (fs, rest) => (.object fs, rest)
    | '[' :: rest =>
      if depth = 0 then none
      else
        match skipBlanks rest with
        | ']' :: rest => some (.array [], rest)
        | rest => (readItems (depth - 1) fuel rest).map fun (vs, rest) => (.array vs, rest)
    | '"' :: rest => (stringRest rest).map fun (s, rest) => (.string (String.ofList s), rest)
    | 'n' :: rest => (afterWord? ['u', 'l', 'l'] rest).map fun rest => (.null, rest)
    | 't' :: rest => (afterWord? ['r', 'u', 'e'] rest).map fun rest => (.bool true, rest)
    | 'f' :: rest => (afterWord? ['a', 'l', 's', 'e'] rest).map fun rest => (.bool false, rest)
    | cs =>
      match NumberText.scan? cs with
      | none => none
      | some (t, rest) => t.toNumber?.map fun n => (.number n, rest)

/-- The fields of an object from the first key on. -/
def readFields (depth : Nat) : Nat → List Char → Option (List (String × Json) × List Char)
  | 0, _ => none
  | fuel + 1, cs =>
    match skipBlanks cs with
    | '"' :: rest =>
      match stringRest rest with
      | none => none
      | some (key, rest) =>
        match skipBlanks rest with
        | ':' :: rest =>
          match read? depth fuel rest with
          | none => none
          | some (v, rest) =>
            match skipBlanks rest with
            | '}' :: rest => some ([(String.ofList key, v)], rest)
            | ',' :: rest =>
              (readFields depth fuel rest).map fun (fs, rest) => ((String.ofList key, v) :: fs, rest)
            | _ => none
        | _ => none
    | _ => none

/-- The items of an array from the first one on. -/
def readItems (depth : Nat) : Nat → List Char → Option (List Json × List Char)
  | 0, _ => none
  | fuel + 1, cs =>
    match read? depth fuel cs with
    | none => none
    | some (v, rest) =>
      match skipBlanks rest with
      | ']' :: rest => some ([v], rest)
      | ',' :: rest => (readItems depth fuel rest).map fun (vs, rest) => (v :: vs, rest)
      | _ => none

end

/-- The value of a whole text. -/
def parseChars? (cs : List Char) : Option Json :=
  match read? maxDepth (2 * cs.length + 2) cs with
  | none => none
  | some (v, rest) => if (skipBlanks rest).isEmpty then some v else none

/-- The value of a whole text, its fields as written. -/
def parse? (text : String) : Option Json := parseChars? text.toList

end Json

end PageQuery
