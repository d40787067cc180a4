/-
# Where a property literal goes wrong

A text that is no property literal is walked once more, part by part. The fault is where the part
that was begun furthest on failed; the parts tried there are what was expected. A part whose own
parts made no progress stands for them, unless there was just one of them.

A fault on the first nine lines is told by one word. Further down the text is too long to find it by
eye, and the report shows its line, its column and what was expected there.

Key definitions: `LiteralPart`, `Trace`, `Literal.diagnose`, `Diagnosis.message`.
-/
import PageQuery.Selector.Literal.Grammar

namespace PageQuery

/-- The parts of a property literal that a report can name, in the order it names them. -/
inductive LiteralPart where
  | endOfText
  | object
  | pair
  | array
  | identifier
  | boolean
  | null
  | number
  | string
  | regex
  | regexBody
  deriving DecidableEq, Repr

namespace LiteralPart

def all : List LiteralPart :=
  [.endOfText, .object, .pair, .array, .identifier, .boolean, .null, .number, .string, .regex,
    .regexBody]

def name : LiteralPart → String
  | .endOfText => "EOI"
  | .object => "object"
  | .pair => "pair"
  | .array => "array"
  | .identifier => "identifier"
  | .boolean => "boolean"
  | .null => "null"
  | .number => "number"
  | .string => "string"
  | .regex => "regex"
  | .regexBody => "regex_body"

end LiteralPart

/-- The furthest fault so far: how many characters were left there, and the parts tried. -/
structure Trace where
  left : Nat
  parts : List LiteralPart
  deriving DecidableEq, Repr

namespace Trace

/-- How many parts failed where `left` characters were left, if that is the furthest fault. -/
def countAt (t : Trace) (left : Nat) : Nat := if t.left = left then t.parts.length else 0

/-- Notes that `part`, begun with `left` characters left, failed; `before` parts had failed there
already when it began. -/
def fail (t : Trace) (part : LiteralPart) (left before : Nat) : Trace :=
  if t.countAt left = before + 1 then t
  else if t.left = left then { t with parts := t.parts.take before ++ [part] }
  else if left < t.left then ⟨left, [part]⟩
  else t

end Trace

/-- An attempt at a part: the text behind it if it is there, and the trace of faults. -/
abbrev Attempt := List Char → Trace → Option (List Char) × Trace

namespace Attempt

/-- An attempt that leaves no trace. -/
def plain (f : List Char → Option (List Char)) : Attempt := fun cs t => (f cs, t)

/-- An attempt at a part that a report can name. -/
def named (part : LiteralPart) (f : Attempt) : Attempt := fun cs t =>
  match f cs t with
  | (some rest, u) => (some rest, u)
  | (none, u) => (none, u.fail part cs.length (t.countAt cs.length))

/-- The first attempt that succeeds. -/
def firstOf : List Attempt → Attempt
  | [] => fun _ t => (none, t)
  | f :: rest => fun cs t =>
    match f cs t with
    | (some r, t) => (some r, t)
    | (none, t) => firstOf rest cs t

/-- One expected character. -/
def char (c : Char) : Attempt := plain fun
  | d :: rest => if d = c then some rest else none
  | [] => none

/-- One attempt behind another, blanks and comments skipped between them. -/
def andThen (f g : Attempt) : Attempt := fun cs t =>
  match f cs t with
  | (some rest, t) => g (Literal.skip rest) t
  | (none, t) => (none, t)

/-- An attempt that need not succeed. -/
def maybe (f : Attempt) : Attempt := fun cs t =>
  match f cs t with
  | (some rest, t) => (some rest, t)
  | (none, t) => (some cs, t)

/-- As many attempts as succeed, blanks and comments skipped before each. -/
def more (f : Attempt) : Nat → Attempt
  | 0 => fun cs t => (some cs, t)
  | fuel + 1 => fun cs t =>
    match f (Literal.skip cs) t with
    | (some rest, t) => more f fuel rest t
    | (none, t) => (some cs, t)

/-- As many attempts as succeed, one behind the other. -/
def many (f : Attempt) (fuel : Nat) : Attempt := fun cs t =>
  match f cs t with
  | (some rest, t) => more f fuel rest t
  | (none, t) => (some cs, t)

end Attempt

namespace Literal

open Attempt

def stringAttempt : Attempt := plain fun
  | c :: rest =>
    if c = '"' ∨ c = '\'' then (quotedRest c rest).map (·.2) else none
  | [] => none

def numberAttempt : Attempt := plain fun cs => (NumberText.scan? cs).map (·.2)

def identifierAttempt : Attempt := plain fun
  | c :: rest => if isNameStart c then some (rest.dropWhile isNameChar) else none
  | [] => none

def wordAttempt (words : List String) : Attempt := plain fun cs =>
  if words.contains (String.ofList (cs.takeWhile isNameChar)) then some (cs.dropWhile isNameChar)
  else none

/-- A regular expression; its body is a part of its own. -/
def regexAttempt : Attempt := fun cs t =>
  match char '/' cs t with
  | (none, t) => (none, t)
  | (some rest, t) =>
    let body := named .regexBody (plain fun cs =>
      if (regexBody cs).1.isEmpty then none else some (regexBody cs).2)
    match body rest t with
    | (none, t) => (none, t)
    | (some rest, t) =>
      match char '/' rest t with
      | (some rest, t) => (some (rest.dropWhile isAsciiLetter), t)
      | (none, t) => (none, t)

def keyAttempt : Attempt :=
  firstOf [named .string stringAttempt, named .number numberAttempt,
    named .identifier identifierAttempt]

/-- A list between brackets: items separated by commas, one more comma allowed at its end. -/
def listAttempt (opening closing : Char) (item : Attempt) (fuel : Nat) : Attempt :=
  andThen (char opening) (andThen
    (maybe (andThen item (andThen (many (andThen (char ',') item) fuel) (maybe (char ',')))))
    (char closing))

mutual

def valueAttempt : Nat → List Char → Trace → Option (List Char) × Trace
  | 0, _, t => (none, t)
  | fuel + 1, cs, t =>
    firstOf [fun cs t => objectAttempt fuel cs t,
      named .array (listAttempt '[' ']' (fun cs t => valueAttempt fuel cs t) fuel),
      named .string stringAttempt, named .regex regexAttempt, named .number numberAttempt,
      named .boolean (wordAttempt ["true", "false"]),
      named .null (wordAttempt ["null", "undefined"])] cs t

def objectAttempt : Nat → List Char → Trace → Option (List Char) × Trace
  | 0, _, t => (none, t)
  | fuel + 1, cs, t =>
    named .object (listAttempt '{' '}'
      (named .pair (andThen keyAttempt
        (andThen (char ':') (fun cs t => valueAttempt fuel cs t)))) fuel) cs t

end

/-- The whole text: objects behind one another, a comma between them or none. -/
def blocksAttempt (fuel : Nat) : Attempt :=
  andThen (plain some) (andThen (objectAttempt fuel)
    (andThen (many (andThen (maybe (char ',')) (objectAttempt fuel)) fuel)
      (named .endOfText (plain fun cs => if cs.isEmpty then some [] else none))))

end Literal

/-- A fault in a property literal: its line and column, that line, and the parts expected. -/
structure Diagnosis where
  line : Nat
  column : Nat
  text : List Char
  expected : List LiteralPart
  deriving DecidableEq, Repr

namespace Diagnosis

/-- The last line of a text without its end. -/
def lastLine (cs : List Char) : List Char := (cs.reverse.takeWhile (· ≠ '\n')).reverse

/-- The line around a place, behind `before` and ahead of `rest`. Line ends are dropped, but shown
by a sign of their own where the place is one. -/
def lineAround (before rest : List Char) : List Char :=
  let tail := rest.takeWhile (· ≠ '\n')
  let ending := if tail.length < rest.length then ['\n'] else []
  let line := lastLine before ++ tail ++ ending
  if rest.head? = some '\n' ∨ rest.head? = some '\r' then
    line.map fun c => if c = '\r' then '␍' else if c = '\n' then '␊' else c
  else line.filter fun c => !(c = '\r' || c = '\n')

/-- The fault where `left` characters of a text are left. -/
def ofPlace (cs : List Char) (left : Nat) (parts : List LiteralPart) : Diagnosis :=
  let before := cs.take (cs.length - left)
  { line := before.count '\n' + 1
    column := (lastLine before).length + 1
    text := lineAround before (cs.drop (cs.length - left))
    expected := LiteralPart.all.filter parts.contains }

/-- Names as an enumeration. -/
def enumerate : List String → String
  | [] => ""
  | [a] => a
  | [a, b] => a ++ " or " ++ b
  | names => String.intercalate ", " names.dropLast ++ ", or " ++ names.getLast?.getD ""

/-- The report over several lines, the place marked below its line. -/
def report (d : Diagnosis) : String :=
  let number := toString d.line
  let margin := String.ofList (List.replicate number.length ' ')
  let marker := String.ofList ((d.text.take (d.column - 1)).map fun c => if c = '\t' then c else ' ')
  margin ++ "--> " ++ number ++ ":" ++ toString d.column ++ "\n" ++ margin ++ " |\n" ++ number ++ " | "
    ++ String.ofList d.text ++ "\n" ++ margin ++ " | " ++ marker ++ "^---\n" ++ margin ++ " |\n"
    ++ margin ++ " = expected " ++ enumerate (d.expected.map LiteralPart.name)

/-- The first line on which a fault is reported with its place. -/
def firstReportedLine : Nat := 10

def message (d : Diagnosis) : String :=
  if d.line < firstReportedLine then "grammar" else d.report

end Diagnosis

/-- Where a text that is no property literal goes wrong. -/
def Literal.diagnose (cs : List Char) : Diagnosis :=
  let (_, t) := blocksAttempt (2 * cs.length + 3) cs ⟨cs.length, []⟩
  .ofPlace cs t.left t.parts

end PageQuery
