/-
# What selectors select

Key definitions: `StyleDocument.matches`, `StyleDocument.select`.
-/
import PageQuery.Style.Basic
import PageQuery.Style.Reader
import PageQuery.Text.Blank

namespace PageQuery

/-! ### Attributes -/

namespace AttributeTest

/-- Attributes of HTML whose values ignore the case of ASCII letters. -/
def caselessNames : List String :=
  ["accept", "accept-charset", "align", "alink", "axis", "bgcolor", "charset", "checked", "clear",
    "codetype", "color", "compact", "declare", "defer", "dir", "direction", "disabled", "enctype",
    "face", "frame", "hreflang", "http-equiv", "lang", "language", "link", "media", "method",
    "multiple", "nohref", "noresize", "noshade", "nowrap", "readonly", "rel", "rev", "rules",
    "scope", "scrolling", "selected", "shape", "target", "text", "type", "valign", "valuetype",
    "vlink"]

/-- The pieces of a text between blanks, empty ones among them. -/
def pieces : List Char → List (List Char)
  | [] => [[]]
  | c :: rest =>
    match pieces rest with
    | [] => [[c]]
    | piece :: more => if Style.isBlank c then [] :: piece :: more else (c :: piece) :: more

/-- Whether a list occurs in another. -/
def occursIn (part : List Char) : List Char → Bool
  | [] => part.isEmpty
  | c :: rest => part.isPrefixOf (c :: rest) || occursIn part rest

/-- Whether a value passes, letters being compared as they are. An empty part is everywhere. -/
def accepts (test : AttributeTest) (value : List Char) : Bool :=
  match test with
  | .present => true
  | .equal wanted => value == wanted.toList
  | .word wanted => (pieces value).contains wanted.toList
  | .dashed wanted => value == wanted.toList || (wanted.toList ++ ['-']).isPrefixOf value
  | .start wanted => wanted.toList.isPrefixOf value
  | .finish wanted => wanted.toList.isSuffixOf value
  | .part wanted => occursIn wanted.toList value

/-- The same test with its value in lower case. -/
def lowered : AttributeTest → AttributeTest
  | .present => .present
  | .equal v => .equal (Style.lowerAscii v)
  | .word v => .word (Style.lowerAscii v)
  | .dashed v => .dashed (Style.lowerAscii v)
  | .start v => .start (Style.lowerAscii v)
  | .finish v => .finish (Style.lowerAscii v)
  | .part v => .part (Style.lowerAscii v)

/-- Whether a value passes. -/
def passes (test : AttributeTest) (caseless : Bool) (value : String) : Bool :=
  if caseless then test.lowered.accepts (Style.lowerAscii value).toList else test.accepts value.toList

end AttributeTest

/-! ### Elements -/

namespace StyleElement

def isHtml (e : StyleElement) : Bool := e.element.space == .html

/-- A name as this element's vocabulary compares it. -/
def nameFor (e : StyleElement) (name : String) : String :=
  if e.isHtml then Style.lowerAscii name else name

/-- The value of the attribute of a name that is in no namespace. -/
def attribute? (e : StyleElement) (name : String) : Option String :=
  (e.element.attributes.find? fun a => a.1 == name && !e.element.space.sets a.1).map (·.2)

/-- The words between blanks of an element's classes. -/
def classes (e : StyleElement) : List String :=
  let words := fun (value : String) =>
    (value.toList.foldr
      (fun c words =>
        if isBlankChar c then [] :: words
        else match words with
          | [] => [[c]]
          | word :: more => (c :: word) :: more) [[]]).filter (!·.isEmpty)
  ((e.attribute? "class").map fun value => (words value).map String.ofList).getD []

/-- Whether an attribute of a name passes, one in no namespace or in any. -/
def hasAttribute (e : StyleElement) (name : String) (anywhere : Bool) (test : AttributeTest)
    (rule : CaseRule) : Bool :=
  let caseless := match rule with
    | .ignored => true
    | .kept => false
    | .byName => e.isHtml && AttributeTest.caselessNames.contains (Style.lowerAscii name)
  let space := e.element.space
  e.element.attributes.any fun a => space.localName a.1 == e.nameFor name &&
    (anywhere || !space.sets a.1) && test.passes caseless a.2

end StyleElement

/-- Whether a place is one of the places. -/
def Places.contains (p : Places) (place : Nat) : Bool :=
  let distance := (place : Int) - p.offset
  if p.step = 0 then distance = 0
  else distance % p.step = 0 && decide (0 ≤ distance / p.step)

namespace StyleDocument

variable (d : StyleDocument)

def element? (n : Nat) : Option StyleElement := d.elements[n]?

def parent? (n : Nat) : Option Nat := (d.element? n).bind (·.parent?)

/-- The elements around one, nearest first; a parent comes before its content. -/
def ancestors (n : Nat) : List Nat :=
  match d.parent? n with
  | none => []
  | some p => if p < n then p :: ancestors p else []
termination_by n

/-- The elements with the parent of one, in order. -/
def siblings (n : Nat) : List Nat :=
  (List.range d.elements.size).filter fun m => d.parent? m == d.parent? n

/-- The siblings of the same type. -/
def siblingsOfType (n : Nat) : List Nat :=
  let name := fun (m : Nat) => (d.element? m).map fun e => (e.element.space, e.element.name)
  (d.siblings n).filter fun m => name m == name n

/-- The place of an element in a list of siblings, counted from 1. -/
def placeIn (n : Nat) (fromEnd : Bool) (siblings : List Nat) : Nat :=
  (if fromEnd then siblings.filter (n < ·) else siblings.filter (· < n)).length + 1

/-- The siblings before an element, nearest first. -/
def earlier (n : Nat) : List Nat := ((d.siblings n).filter (· < n)).reverse

/-- The elements that a combinator leads to, leftwards from one. -/
def leftOf (combinator : Combinator) (n : Nat) : List Nat :=
  match combinator with
  | .descendant => d.ancestors n
  | .child => (d.ancestors n).take 1
  | .nextSibling => (d.earlier n).take 1
  | .laterSibling => d.earlier n

/-- Whether an element has neither elements nor text in it. -/
def isEmptyElement (n : Nat) : Bool :=
  ((d.element? n).map fun e => !e.hasText).getD false &&
    (List.range d.elements.size).all fun m => d.parent? m != some n

/-- Tests of one element alone. -/
def passesOwn (e : StyleElement) (n : Nat) : StyleTest → Bool
  | .tag name => e.element.name == e.nameFor name
  | .id id => e.attribute? "id" == some id
  | .class name => e.classes.contains name
  | .attribute name anywhere test rule => e.hasAttribute name anywhere test rule
  | .root => e.parent?.isNone
  | .empty => d.isEmptyElement n
  | .place ofType fromEnd places =>
    places.contains (placeIn n fromEnd (if ofType then d.siblingsOfType n else d.siblings n))
  | _ => false

mutual

/-- Whether an element passes a test. -/
def passes (n : Nat) : StyleTest → Bool
  | .noneOf selectors => !matchesAny selectors n
  | .oneOf selectors => matchesAny selectors n
  | .has relatives => hasAny n relatives
  | .tag name => (d.element? n).any fun e => d.passesOwn e n (.tag name)
  | .id id => (d.element? n).any fun e => d.passesOwn e n (.id id)
  | .class name => (d.element? n).any fun e => d.passesOwn e n (.class name)
  | .attribute name anywhere test rule =>
    (d.element? n).any fun e => d.passesOwn e n (.attribute name anywhere test rule)
  | .root => (d.element? n).any fun e => d.passesOwn e n .root
  | .empty => (d.element? n).any fun e => d.passesOwn e n .empty
  | .place ofType fromEnd places =>
    (d.element? n).any fun e => d.passesOwn e n (.place ofType fromEnd places)

def passesAll (n : Nat) : List StyleTest → Bool
  | [] => true
  | test :: rest => passes n test && passesAll n rest

/-- Whether a selector selects an element. With an anchor, the first compound's element must stand to
it as the combinator says. -/
def «matches» (anchor? : Option (Combinator × Nat)) : StyleSelector → Nat → Bool
  | .nothing, _ => false
  | .compound tests, n =>
    passesAll n tests &&
      match anchor? with
      | none => true
      | some (combinator, anchor) => (d.leftOf combinator n).contains anchor
  | .combined left combinator tests, n =>
    passesAll n tests && (d.leftOf combinator n).any fun m => «matches» anchor? left m

def matchesAny : List StyleSelector → Nat → Bool
  | [], _ => false
  | s :: rest, n => «matches» none s n || matchesAny rest n

/-- Whether some element stands so to an element as one of the relative selectors says. -/
def hasAny (n : Nat) : List StyleRelative → Bool
  | [] => false
  | .relative combinator s :: rest =>
    ((List.range d.elements.size).any fun m => «matches» (some (combinator, n)) s m) || hasAny n rest

end

/-- The elements that any of some selectors selects, in document order. -/
def select (selectors : List StyleSelector) : List Nat :=
  (List.range d.elements.size).filter fun n => d.matchesAny selectors n

end StyleDocument

end PageQuery
