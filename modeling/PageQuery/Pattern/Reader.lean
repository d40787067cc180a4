/-
# Reading patterns

The notation of patterns: literals, `.`, classes between brackets, escapes, anchors, groups,
alternatives, `*` `+` `?` and counted repetition, each perhaps followed by a `?` of no consequence
here, and flags for the whole pattern, the rest of a group or a group of their own. Look-around,
back-references, a repetition of nothing and anything left open are refused.

Key definitions: `PatternFlags`, `Pattern.parse?`.
-/
import PageQuery.Json.Reader
import PageQuery.Pattern.Basic

namespace PageQuery

/-- How the pattern read next is meant. -/
structure PatternFlags where
  ignoreCase : Bool
  multiLine : Bool
  dotAll : Bool
  verbose : Bool
  deriving DecidableEq, Repr

/-- What carries over from one part of a pattern to the next: flags, and group names in use. -/
structure PatternState where
  flags : PatternFlags
  names : List (List Char)
  deriving DecidableEq, Repr

namespace Pattern

/-! ### Characters and classes -/

/-- A set, closed under case if case is ignored. -/
def cased (flags : PatternFlags) (s : CharSet) : CharSet :=
  if flags.ignoreCase then .anyCase s else s

def negatedIf (negated : Bool) (s : CharSet) : CharSet := if negated then .complement s else s

/-- What an escape stands for. -/
inductive Escaped where
  | char (c : Char)
  | set (s : CharSet)
  | assertion (a : Assertion)

/-- The number that hexadecimal digits denote. -/
def hexNumber? (ds : List Char) : Option Nat :=
  if ds.isEmpty then none
  else ds.foldl (fun n d => n.bind fun n => (hexValue? d).map (n * 16 + ·)) (some 0)

/-- The character with a number, if there is one. -/
def charOf? (n : Nat) : Option Char := if n.isValidChar then some (Char.ofNat n) else none

/-- A code point behind the letter of its escape: `digits` digits, or any number between braces. -/
def codePoint? (digits : Nat) : List Char → Option (Char × List Char)
  | '{' :: rest =>
    match rest.dropWhile (· ≠ '}') with
    | _ :: more => do
      let c ← (hexNumber? (rest.takeWhile (· ≠ '}'))).bind charOf?
      return (c, more)
    | [] => none
  | cs =>
    if cs.length < digits then none
    else do
      let c ← (hexNumber? (cs.take digits)).bind charOf?
      return (c, cs.drop digits)

/-- The name of a property behind the letter of its escape, and whether it is negated. -/
def propertyName? : List Char → Option (Bool × List Char × List Char)
  | '{' :: rest =>
    match rest.dropWhile (· ≠ '}') with
    | _ :: more =>
      match rest.takeWhile (· ≠ '}') with
      | '^' :: name => some (true, name, more)
      | name => some (false, name, more)
    | [] => none
  | c :: rest => some (false, [c], rest)
  | [] => none

/-- A property by name, or a general category as the value of that property. -/
def property? (name : List Char) : Option CharSet :=
  match name.dropWhile (fun c => !(c = '=' || c = ':')) with
  | [] => CharSet.ofProperty? name
  | _ :: value =>
    let key := String.ofList (CharSet.looseName (name.takeWhile fun c => !(c = '=' || c = ':')))
    if key = "gc" ∨ key = "generalcategory" then CharSet.ofProperty? value else none

/-- A word boundary's kind between braces, if a name stands there. -/
def boundaryKind? : List Char → Option (Assertion × List Char)
  | '{' :: c :: rest =>
    if c.isAlpha ∨ c = '-' then
      match (c :: rest).dropWhile (· ≠ '}') with
      | _ :: more =>
        let name := String.ofList ((c :: rest).takeWhile (· ≠ '}'))
        if name = "start" then some (.wordStart, more)
        else if name = "end" then some (.wordEnd, more)
        else if name = "start-half" then some (.wordStartHalf, more)
        else if name = "end-half" then some (.wordEndHalf, more)
        else none
      | [] => none
    else some (.wordBoundary, '{' :: c :: rest)
  | cs => some (.wordBoundary, cs)

/-- An escape behind its backslash. -/
def escape? (flags : PatternFlags) : List Char → Option (Escaped × List Char)
  | [] => none
  | c :: rest =>
    match c with
    | 'd' => some (.set .digit, rest)
    | 'D' => some (.set (.complement .digit), rest)
    | 's' => some (.set .blank, rest)
    | 'S' => some (.set (.complement .blank), rest)
    | 'w' => some (.set .word, rest)
    | 'W' => some (.set (.complement .word), rest)
    | 'p' => do
      let (negated, name, rest) ← propertyName? rest
      let s ← property? name
      return (.set (negatedIf negated (cased flags s)), rest)
    | 'P' => do
      let (negated, name, rest) ← propertyName? rest
      let s ← property? name
      return (.set (negatedIf (!negated) (cased flags s)), rest)
    | 'x' => (codePoint? 2 rest).map fun (c, rest) => (.char c, rest)
    | 'u' => (codePoint? 4 rest).map fun (c, rest) => (.char c, rest)
    | 'U' => (codePoint? 8 rest).map fun (c, rest) => (.char c, rest)
    | 'a' => some (.char '\x07', rest)
    | 'f' => some (.char '\x0c', rest)
    | 't' => some (.char '\t', rest)
    | 'n' => some (.char '\n', rest)
    | 'r' => some (.char '\r', rest)
    | 'v' => some (.char '\x0b', rest)
    | 'A' => some (.assertion .textStart, rest)
    | 'z' => some (.assertion .textEnd, rest)
    | 'b' => (boundaryKind? rest).map fun (a, rest) => (.assertion a, rest)
    | 'B' => some (.assertion .notWordBoundary, rest)
    | '<' => some (.assertion .wordStart, rest)
    | '>' => some (.assertion .wordEnd, rest)
    | c => if c.isAlphanum ∨ 0x80 ≤ c.toNat then none else some (.char c, rest)

/-- An ASCII class behind `[:`, if the text has one. -/
def asciiClass? (cs : List Char) : Option ((Bool × CharSet) × List Char) :=
  let (negated, cs) := match cs with
    | '^' :: rest => (true, rest)
    | cs => (false, cs)
  match cs.dropWhile (· ≠ ':') with
  | ':' :: ']' :: rest =>
    (CharSet.ofAsciiClass? (String.ofList (cs.takeWhile (· ≠ ':')))).map fun s => ((negated, s), rest)
  | _ => none

/-- The operations between the operands of a class. -/
inductive ClassOp where
  | inter
  | diff
  | symmDiff

/-- The left operand so far, if any, combined with the right one. -/
def combined (flags : PatternFlags) (left : Option (CharSet × ClassOp)) (right : CharSet) : CharSet :=
  match left with
  | none => right
  | some (l, op) =>
    let l := cased flags l
    let r := cased flags right
    match op with
    | .inter => .inter l r
    | .diff => CharSet.diff l r
    | .symmDiff => CharSet.symmDiff l r

/-- One member of a class: a character or a set. -/
def classItem? (flags : PatternFlags) : List Char → Option ((Char ⊕ CharSet) × List Char)
  | [] => none
  | '\\' :: rest =>
    match escape? flags rest with
    | some (.char c, rest) => some (.inl c, rest)
    | some (.set s, rest) => some (.inr s, rest)
    | _ => none
  | c :: rest => some (.inl c, rest)

/-- The members of an item, alone. -/
def itemSet : Char ⊕ CharSet → CharSet
  | .inl c => CharSet.single c
  | .inr s => s

/-- A member of a class or a range of characters. A hyphen before a bracket or another hyphen begins
no range. -/
def classRange? (flags : PatternFlags) (cs : List Char) : Option (CharSet × List Char) :=
  match classItem? flags cs with
  | none => none
  | some (first, rest) =>
    match rest with
    | [] => none
    | '-' :: ']' :: _ => some (itemSet first, rest)
    | '-' :: '-' :: _ => some (itemSet first, rest)
    | '-' :: more =>
      match first, classItem? flags more with
      | .inl low, some (.inl high, rest) =>
        if low ≤ high then some (.range low high, rest) else none
      | _, _ => none
    | _ => some (itemSet first, rest)

/-- Hyphens at the beginning of a class. -/
def leadingHyphens (cs : List Char) : CharSet :=
  if cs.head? = some '-' then CharSet.single '-' else .empty

mutual

/-- A class behind its opening bracket. -/
def class? (flags : PatternFlags) : Nat → List Char → Option (CharSet × List Char)
  | 0, _ => none
  | fuel + 1, cs =>
    let (negated, cs) := match cs with
      | '^' :: rest => (true, rest)
      | cs => (false, cs)
    let hyphens := leadingHyphens cs
    let cs := cs.dropWhile (· = '-')
    let (start, cs) := match hyphens, cs with
      | .empty, ']' :: rest => (CharSet.single ']', rest)
      | s, rest => (s, rest)
    (classRest? flags fuel none start cs).map fun (s, rest) =>
      (negatedIf negated (cased flags s), rest)

/-- The rest of a class: the operand read so far, and what stands to its left. -/
def classRest? (flags : PatternFlags) :
    Nat → Option (CharSet × ClassOp) → CharSet → List Char → Option (CharSet × List Char)
  | 0, _, _, _ => none
  | fuel + 1, left, operand, cs =>
    match cs with
    | [] => none
    | ']' :: rest => some (combined flags left operand, rest)
    | '&' :: '&' :: rest =>
      classRest? flags fuel (some (combined flags left operand, .inter)) .empty rest
    | '-' :: '-' :: rest =>
      classRest? flags fuel (some (combined flags left operand, .diff)) .empty rest
    | '~' :: '~' :: rest =>
      classRest? flags fuel (some (combined flags left operand, .symmDiff)) .empty rest
    | '[' :: rest =>
      let ascii := match rest with
        | ':' :: more => asciiClass? more
        | _ => none
      match ascii with
      | some ((negated, s), rest) =>
        classRest? flags fuel left (.union operand (negatedIf negated (cased flags s))) rest
      | none =>
        match class? flags fuel rest with
        | none => none
        | some (s, rest) => classRest? flags fuel left (.union operand s) rest
    | cs =>
      match classRange? flags cs with
      | none => none
      | some (s, rest) => classRest? flags fuel left (.union operand s) rest

end

/-! ### Repetition, flags, groups -/

/-- A `?` that says which repetition to prefer. -/
def skipPreference : List Char → List Char
  | '?' :: rest => rest
  | cs => cs

def skipSpaces (cs : List Char) : List Char := cs.dropWhile isBlankChar

/-- A decimal number of 32 bits, blanks around it skipped. -/
def count? (cs : List Char) : Option (Nat × List Char) :=
  let cs := skipSpaces cs
  let ds := cs.takeWhile isDigit
  if ds.isEmpty || Nat.pow 2 32 ≤ digitsValue 0 ds then none
  else some (digitsValue 0 ds, skipSpaces (cs.dropWhile isDigit))

/-- Bounds of a repetition behind the opening brace; the lower one must be written. -/
def bounds? (cs : List Char) : Option ((Nat × Option Nat) × List Char) :=
  match count? cs with
  | some (n, '}' :: rest) => some ((n, some n), rest)
  | some (n, ',' :: '}' :: rest) => some ((n, none), rest)
  | some (n, ',' :: rest) =>
    match count? rest with
    | some (m, '}' :: rest) => if n ≤ m then some ((n, some m), rest) else none
    | _ => none
  | _ => none

/-- Letters that are flags. -/
def flagLetters : List Char := ['i', 'm', 's', 'x', 'U', 'u', 'R']

/-- Sets one flag. -/
def setFlag (flags : PatternFlags) (on : Bool) (c : Char) : PatternFlags :=
  match c with
  | 'i' => { flags with ignoreCase := on }
  | 'm' => { flags with multiLine := on }
  | 's' => { flags with dotAll := on }
  | 'x' => { flags with verbose := on }
  | _ => flags

/-- Flag letters, each at most once, those behind a hyphen switched off. -/
def flags? (flags : PatternFlags) (on : Bool) (seen : List Char) :
    List Char → Option (PatternFlags × List Char × List Char)
  | [] => none
  | c :: rest =>
    if c = ')' ∨ c = ':' then
      if seen.head? = some '-' then none else some (flags, seen, c :: rest)
    else if seen.contains c then none
    else if c = '-' then flags? flags false ('-' :: seen) rest
    else if flagLetters.contains c then flags? (setFlag flags on c) on (c :: seen) rest
    else none

/-- The name of a group up to the closing angle bracket. -/
def groupName? (names : List (List Char)) (cs : List Char) : Option (List Char × List Char) :=
  let name := cs.takeWhile (· ≠ '>')
  match cs.dropWhile (· ≠ '>'), name with
  | _ :: rest, c :: more =>
    let start := c = '_' || c.isAlpha || (categoryOf c).head? == some 'L'
    let inner := more.all fun c =>
      c = '_' || c = '.' || c = '[' || c = ']' || c.isAlphanum
        || (categoryOf c).head? == some 'L' || (categoryOf c).head? == some 'N'
    if start && inner && !names.contains name then some (name, rest) else none
  | _, _ => none

/-- What a single character means outside classes. -/
def literal (flags : PatternFlags) (c : Char) : Pattern :=
  if c = '.' then .set (if flags.dotAll then CharSet.all else CharSet.notLineFeed)
  else if c = '^' then .assertion (if flags.multiLine then .lineStart else .textStart)
  else if c = '$' then .assertion (if flags.multiLine then .lineEnd else .textEnd)
  else .set (cased flags (CharSet.single c))

/-- A sequence with one more part at its end. -/
def append (a : Pattern) (last : Option Pattern) : Pattern :=
  match a, last with
  | a, none => a
  | .nothing, some b => b
  | a, some b => .sequence a b

mutual

/-- Alternatives up to the end of the text or of the group. -/
def alternatives? : Nat → PatternState → List Char → Option (Pattern × PatternState × List Char)
  | 0, _, _ => none
  | fuel + 1, st, cs =>
    match parts? fuel st .nothing none cs with
    | none => none
    | some (r, st, '|' :: rest) =>
      (alternatives? fuel st rest).map fun (s, st, rest) => (.either r s, st, rest)
    | some answer => some answer

/-- The parts of a sequence: those read, and the last of them, which a repetition would apply to. -/
def parts? : Nat → PatternState → Pattern → Option Pattern → List Char →
    Option (Pattern × PatternState × List Char)
  | 0, _, _, _, _ => none
  | fuel + 1, st, done, last, cs =>
    match cs with
    | [] => some (append done last, st, [])
    | '|' :: rest => some (append done last, st, '|' :: rest)
    | ')' :: rest => some (append done last, st, ')' :: rest)
    | '*' :: rest =>
      match last with
      | none => none
      | some r => parts? fuel st done (some (.repeated r 0 none)) (skipPreference rest)
    | '+' :: rest =>
      match last with
      | none => none
      | some r => parts? fuel st done (some (.repeated r 1 none)) (skipPreference rest)
    | '?' :: rest =>
      match last with
      | none => none
      | some r => parts? fuel st done (some (.repeated r 0 (some 1))) (skipPreference rest)
    | '{' :: rest =>
      match last, bounds? rest with
      | some r, some ((least, most), rest) =>
        parts? fuel st done (some (.repeated r least most)) (skipPreference rest)
      | _, _ => none
    | '[' :: rest =>
      match class? st.flags (2 * rest.length + 2) rest with
      | none => none
      | some (s, rest) => parts? fuel st (append done last) (some (.set s)) rest
    | '\\' :: rest =>
      match escape? st.flags rest with
      | none => none
      | some (.char c, rest) =>
        parts? fuel st (append done last) (some (.set (cased st.flags (CharSet.single c)))) rest
      | some (.set s, rest) => parts? fuel st (append done last) (some (.set s)) rest
      | some (.assertion a, rest) => parts? fuel st (append done last) (some (.assertion a)) rest
    | '(' :: '?' :: 'P' :: '<' :: rest =>
      match groupName? st.names rest with
      | none => none
      | some (name, rest) => group? fuel { st with names := name :: st.names } st.flags done last rest
    | '(' :: '?' :: '<' :: rest =>
      match groupName? st.names rest with
      | none => none
      | some (name, rest) => group? fuel { st with names := name :: st.names } st.flags done last rest
    | '(' :: '?' :: rest =>
      match flags? st.flags true [] rest with
      | some (flags, seen, ')' :: rest) =>
        if seen.isEmpty then none
        else parts? fuel { st with flags } (append done last) none rest
      | some (flags, _, ':' :: rest) => group? fuel { st with flags } st.flags done last rest
      | _ => none
    | '(' :: rest => group? fuel st st.flags done last rest
    | c :: rest =>
      if st.flags.verbose && isBlankChar c then parts? fuel st done last rest
      else if st.flags.verbose && c = '#' then
        parts? fuel st done last (rest.dropWhile (· ≠ '\n'))
      else parts? fuel st (append done last) (some (literal st.flags c)) rest

/-- A group behind its opening, and the parts behind the group, for which `outer` holds again. -/
def group? : Nat → PatternState → PatternFlags → Pattern → Option Pattern → List Char →
    Option (Pattern × PatternState × List Char)
  | 0, _, _, _, _, _ => none
  | fuel + 1, st, outer, done, last, cs =>
    match alternatives? fuel st cs with
    | some (r, st, ')' :: rest) =>
      parts? fuel { st with flags := outer } (append done last) (some r) rest
    | _ => none

end

/-- The pattern that a text denotes under the given flags. -/
def parse? (flags : PatternFlags) (cs : List Char) : Option Pattern :=
  match alternatives? (4 * cs.length + 4) ⟨flags, []⟩ cs with
  | some (r, _, []) => some r
  | _ => none

end Pattern

end PageQuery
