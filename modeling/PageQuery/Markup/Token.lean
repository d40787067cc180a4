/-
# Tokens of markup

Markup is read as start tags, end tags and characters. Comments and declarations are passed over. How
text is read depends on the element it stands in: as ordinary text, as text with references but no
tags, as raw text, or as raw text without end.

Names of tags and attributes are in lower case. Of two attributes with one name the first counts.

Key definitions: `MarkupToken`, `TextKind`, `Markup.nextToken`.
-/
import PageQuery.Markup.References

namespace PageQuery

inductive MarkupToken where
  | startTag (name : String) (attributes : List (String × String)) (selfClosing : Bool)
  | endTag (name : String)
  | char (c : Char)
  deriving DecidableEq, Repr

/-- How text is read. The tag is the one whose end tag ends it. -/
inductive TextKind where
  | ordinary
  | escapable (tag : String)
  | raw (tag : String)
  | endless
  deriving DecidableEq, Repr

namespace Markup

/-- Blanks between the parts of a tag. -/
def isTagBlank (c : Char) : Bool := c = ' ' || c = '\n' || c = '\t' || c = '\x0c'

def withoutNul (c : Char) : Char := if c = '\x00' then replacement else c

/-- Line ends as line feeds. -/
def normalizeLines : List Char → List Char
  | [] => []
  | '\r' :: '\n' :: rest => '\n' :: normalizeLines rest
  | '\r' :: rest => '\n' :: normalizeLines rest
  | c :: rest => c :: normalizeLines rest

/-- The value of an attribute as written, at most so many characters. -/
def attributeValue : Nat → List Char → List Char
  | 0, _ => []
  | _ + 1, [] => []
  | fuel + 1, c :: rest =>
    match reference? true (c :: rest) with
    | some (d, more) => d :: attributeValue fuel more
    | none => withoutNul c :: attributeValue fuel rest

def decodeValue (cs : List Char) : String := String.ofList (attributeValue cs.length cs)

/-- Names in lower case, which is defined for letters of ASCII alone. -/
def lowerName (cs : List Char) : String := String.ofList (cs.map fun c => (withoutNul c).toLower)

/-- A value behind an equals sign and blanks, and the rest. Nothing if the text ends within it. -/
def valueAt : List Char → Option (String × List Char)
  | [] => none
  | '>' :: rest => some ("", '>' :: rest)
  | c :: rest =>
    if c = '"' || c = '\'' then
      match rest.dropWhile (· ≠ c) with
      | [] => none
      | _ :: more => some (decodeValue (rest.takeWhile (· ≠ c)), more)
    else
      let stops := fun d => isTagBlank d || d = '>'
      some (decodeValue ((c :: rest).takeWhile (!stops ·)), (c :: rest).dropWhile (!stops ·))

/-- Attributes up to the end of a tag, those read before backwards: all of them, whether the tag
closes itself, and the rest. Nothing if the text ends within the tag. -/
def attributesAt : Nat → List (String × String) → List Char →
    Option (List (String × String) × Bool × List Char)
  | 0, _, _ => none
  | fuel + 1, before, cs =>
    match cs.dropWhile isTagBlank with
    | [] => none
    | '>' :: rest => some (before.reverse, false, rest)
    | '/' :: '>' :: rest => some (before.reverse, true, rest)
    | '/' :: rest => attributesAt fuel before rest
    | c :: rest =>
      let stops := fun d => isTagBlank d || d = '/' || d = '>' || d = '='
      let name := lowerName (c :: rest.takeWhile (!stops ·))
      let keep := fun (value : String) =>
        if before.any (fun a => a.1 == name) then before else (name, value) :: before
      match (rest.dropWhile (!stops ·)).dropWhile isTagBlank with
      | '=' :: more =>
        match valueAt (more.dropWhile isTagBlank) with
        | none => none
        | some (value, more) => attributesAt fuel (keep value) more
      | more => attributesAt fuel (keep "") more

/-- A tag from its name on: name, attributes, whether it closes itself, and the rest. -/
def tagAt (cs : List Char) : Option (String × List (String × String) × Bool × List Char) :=
  let stops := fun d => isTagBlank d || d = '/' || d = '>'
  let name := lowerName (cs.takeWhile (!stops ·))
  let rest := cs.dropWhile (!stops ·)
  (attributesAt (rest.length + 1) [] rest).map fun (attributes, selfClosing, more) =>
    (name, attributes, selfClosing, more)

/-- The rest behind the first `>`. -/
def behindClose (cs : List Char) : List Char := (cs.dropWhile (· ≠ '>')).drop 1

/-- The rest behind the end of a comment. -/
def behindComment : List Char → List Char
  | '-' :: '-' :: '>' :: rest => rest
  | '-' :: '-' :: '!' :: '>' :: rest => rest
  | [] => []
  | _ :: rest => behindComment rest

/-- The rest behind a comment, from behind its opening. -/
def behindCommentOpening : List Char → List Char
  | '>' :: rest => rest
  | '-' :: '>' :: rest => rest
  | cs => behindComment cs

/-- A token and the rest of the text. There may be no token where the text was passed over. -/
abbrev Scanned := Option MarkupToken × List Char

/-- A start tag, from its name on. -/
def startTagAt (cs : List Char) : Scanned :=
  match tagAt cs with
  | some (name, attributes, selfClosing, rest) =>
    (some (.startTag name attributes selfClosing), rest)
  | none => (none, [])

/-- An end tag, from its name on. -/
def endTagAt (cs : List Char) : Scanned :=
  match tagAt cs with
  | some (name, _, _, rest) => (some (.endTag name), rest)
  | none => (none, [])

/-- What follows a `<` in ordinary text. -/
def afterOpening : List Char → Scanned
  | '!' :: '-' :: '-' :: rest => (none, behindCommentOpening rest)
  | '!' :: rest => (none, behindClose rest)
  | '?' :: rest => (none, behindClose rest)
  | '/' :: '>' :: rest => (none, rest)
  | '/' :: c :: rest =>
    if c.isAlpha then endTagAt (c :: rest) else (none, behindClose (c :: rest))
  | c :: rest =>
    if c.isAlpha && c ≠ '/' then startTagAt (c :: rest) else (some (.char '<'), c :: rest)
  | [] => (some (.char '<'), [])

/-- Whether a text begins with the name of a tag, in any case, and then with what ends a name. -/
def beginsEndTag (tag : String) (cs : List Char) : Bool :=
  let name := tag.toList
  (cs.take name.length).map Char.toLower == name &&
    match cs.drop name.length with
    | d :: _ => isTagBlank d || d = '/' || d = '>'
    | [] => false

/-- The end tag of the element that a text stands in, or a character. -/
def closingOr (tag : String) (c : Char) (rest : List Char) : Scanned :=
  match c, rest with
  | '<', '/' :: more =>
    if beginsEndTag tag more then endTagAt more else (some (.char c), rest)
  | _, _ => (some (.char (withoutNul c)), rest)

/-- The next token of a text that is not empty. -/
def nextToken (kind : TextKind) (c : Char) (rest : List Char) : Scanned :=
  match kind with
  | .ordinary =>
    match reference? false (c :: rest) with
    | some (d, more) => (some (.char d), more)
    | none => if c = '<' then afterOpening rest else (some (.char c), rest)
  | .escapable tag =>
    match reference? false (c :: rest) with
    | some (d, more) => (some (.char d), more)
    | none => closingOr tag c rest
  | .raw tag => closingOr tag c rest
  | .endless => (some (.char (withoutNul c)), rest)

end Markup

end PageQuery
