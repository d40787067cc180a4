/-
# Rendered trees

A rendered element has a tag, attributes, perhaps a place on the screen and a host, and content:
text and elements in order. Elements of a tree are numbered in document order, an element before its
content. A serial tells elements apart by when they were made.

Key definitions: `ElementTree`, `ElementTree.size`, `ElementTree.texts`, `ElementTree.bounds`,
`ElementTree.appendTo`, `ElementTree.placed`.
-/
import PageQuery.Page.Handle
import PageQuery.Page.Rect

namespace PageQuery

/-- An element without its content. -/
structure ElementHead where
  serial : Nat
  tag : String
  attributes : List (String × String)
  rect? : Option Rect
  host? : Option InstanceId
  deriving DecidableEq, Repr

inductive ElementTree where
  | text (text : String)
  | element (head : ElementHead) (content : List ElementTree)
  deriving Repr

/-- An element in its place in a tree: its parent's number and itself. -/
structure PlacedElement where
  parent? : Option Nat
  head : ElementHead
  content : List ElementTree
  deriving Repr

namespace ElementTree

mutual

/-- The number of elements. -/
def size : ElementTree → Nat
  | .text _ => 0
  | .element _ content => 1 + sizeAll content

def sizeAll : List ElementTree → Nat
  | [] => 0
  | t :: rest => size t + sizeAll rest

end

mutual

/-- The texts, in order. -/
def texts : ElementTree → List String
  | .text s => [s]
  | .element _ content => textsAll content

def textsAll : List ElementTree → List String
  | [] => []
  | t :: rest => texts t ++ textsAll rest

end

mutual

/-- The place of an element: the declared one, or else the box around the places of its children
that have any extent or offset. Text has none. -/
def bounds : ElementTree → Rect
  | .text _ => .zero
  | .element head content =>
    match head.rect? with
    | some rect => rect
    | none => ((Rect.unionAll ((boundsAll content).filter fun r => !r.same .zero))).getD .zero

def boundsAll : List ElementTree → List Rect
  | [] => []
  | t :: rest => bounds t :: boundsAll rest

end

mutual

/-- The tree with more content at the end of the element of that serial. -/
def appendTo (serial : Nat) (more : List ElementTree) : ElementTree → ElementTree
  | .text s => .text s
  | .element head content =>
    let content := appendToAll serial more content
    .element head (if head.serial = serial then content ++ more else content)

def appendToAll (serial : Nat) (more : List ElementTree) : List ElementTree → List ElementTree
  | [] => []
  | t :: rest => appendTo serial more t :: appendToAll serial more rest

end

mutual

/-- The elements of a tree in document order, numbered from `number`. -/
def placed (parent? : Option Nat) (number : Nat) : ElementTree → List PlacedElement
  | .text _ => []
  | .element head content =>
    ⟨parent?, head, content⟩ :: placedAll (some number) (number + 1) content

def placedAll (parent? : Option Nat) (number : Nat) : List ElementTree → List PlacedElement
  | [] => []
  | t :: rest => placed parent? number t ++ placedAll parent? (number + size t) rest

end

mutual

/-- There are as many numbered elements as elements. -/
@[simp] theorem length_placed (parent? : Option Nat) (number : Nat) :
    (t : ElementTree) → (placed parent? number t).length = size t
  | .text _ => rfl
  | .element _ content => by
    rw [placed, size, List.length_cons, length_placedAll (some number) (number + 1) content,
      Nat.add_comm]

@[simp] theorem length_placedAll (parent? : Option Nat) (number : Nat) :
    (ts : List ElementTree) → (placedAll parent? number ts).length = sizeAll ts
  | [] => rfl
  | t :: rest => by
    rw [placedAll, sizeAll, List.length_append, length_placed parent? number t,
      length_placedAll parent? (number + size t) rest]

end

end ElementTree

end PageQuery
