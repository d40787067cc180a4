/-
# Markup that keeps its tree

What is written may read as another tree, since some elements cannot stand in others. The tree that
was read agrees with the elements that were written if, in document order, each element carries the
next number and stands in the element that carries its parent's number, and none is missing.

Key definitions: `MarkupTree.entries`, `Markup.disagreement?`, `MarkupTree.styleElements`.
-/
import PageQuery.Fixture.Render
import PageQuery.Markup.Reader
import PageQuery.Markup.Writer
import PageQuery.Matching.Path
import PageQuery.Style.Basic

namespace PageQuery

/-- An element as read: its name, its number and its parent's number. -/
structure MarkupEntry where
  tag : String
  number? : Option Nat
  parent? : Option Nat
  deriving DecidableEq, Repr

namespace DraftElement

/-- The number that an element carries. -/
def number? (e : DraftElement) : Option Nat :=
  ((e.attributes.find? fun a => a.1 == Markup.numberAttribute).map (·.2)).bind indexOf?

end DraftElement

namespace MarkupTree

mutual

/-- The elements in document order. -/
def entries (parent? : Option Nat) : MarkupTree → List MarkupEntry
  | .text _ => []
  | .element e content => ⟨e.name, e.number?, parent?⟩ :: entriesAll e.number? content

def entriesAll (parent? : Option Nat) : List MarkupTree → List MarkupEntry
  | [] => []
  | t :: rest => entries parent? t ++ entriesAll parent? rest

end

mutual

/-- The number of elements. -/
def size : MarkupTree → Nat
  | .text _ => 0
  | .element _ content => 1 + sizeAll content

def sizeAll : List MarkupTree → Nat
  | [] => 0
  | t :: rest => size t + sizeAll rest

end

/-- Whether there is text right in some content. -/
def anyText : List MarkupTree → Bool
  | [] => false
  | .text s :: rest => !s.isEmpty || anyText rest
  | _ :: rest => anyText rest

mutual

/-- The elements in document order as selectors see them, numbered from `number`. -/
def styleElements (parent? : Option Nat) (number : Nat) : MarkupTree → List StyleElement
  | .text _ => []
  | .element e content =>
    ⟨e, parent?, anyText content⟩ :: styleElementsAll (some number) (number + 1) content

def styleElementsAll (parent? : Option Nat) (number : Nat) : List MarkupTree → List StyleElement
  | [] => []
  | t :: rest => styleElements parent? number t ++ styleElementsAll parent? (number + size t) rest

end

end MarkupTree

namespace Markup

/-- The first way in which elements read, the first of them being expected to have a number, differ
from the elements written from that number on. -/
def firstDifference (written : List PlacedElement) (expected : Nat) :
    List MarkupEntry → Option FixtureError
  | [] =>
    match written with
    | [] => none
    | missing :: _ => some (.reparented missing.head.tag (some expected))
  | entry :: rest =>
    match entry.number? with
    | none => some (.reparented entry.tag none)
    | some number =>
      match written with
      | [] => some (.reparented entry.tag (some number))
      | element :: more =>
        if number = expected ∧ element.parent? = entry.parent? then
          firstDifference more (expected + 1) rest
        else some (.reparented entry.tag (some number))

/-- The first way in which trees read differ from the elements written. -/
def disagreement? (written : List PlacedElement) (trees : List MarkupTree) : Option FixtureError :=
  firstDifference written 0 (MarkupTree.entriesAll none trees)

end Markup

end PageQuery
