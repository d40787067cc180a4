/-
# Markup of a tree

An element is written as a start tag, its content and an end tag; an element that cannot have content
is written as a start tag alone. The first attribute of each element is its number in document order.
In text `&`, `<` and `>` are written as references, in attributes `"` as well.

Key definitions: `Markup.escape`, `Markup.writeTree`, `Markup.document`.
-/
import PageQuery.Fixture.Tree
import PageQuery.Json.Printer

namespace PageQuery

namespace Markup

/-- The name of the attribute that holds an element's number. -/
def numberAttribute : String := "data-specview-node"

/-- Elements without content. -/
def voidTags : List String :=
  ["area", "base", "br", "col", "embed", "hr", "img", "input", "link", "meta", "source", "track",
    "wbr"]

/-- How a character is written in text or in an attribute. -/
def escapeChar (inAttribute : Bool) (c : Char) : List Char :=
  if c = '&' then "&amp;".toList
  else if c = '<' then "&lt;".toList
  else if c = '>' then "&gt;".toList
  else if c = '"' && inAttribute then "&quot;".toList
  else [c]

def escape (inAttribute : Bool) (cs : List Char) : List Char := cs.flatMap (escapeChar inAttribute)

/-- An attribute behind a blank. -/
def writeAttribute (name value : String) : List Char :=
  ' ' :: name.toList ++ '=' :: '"' :: escape true value.toList ++ ['"']

/-- The attributes of a start tag: the number, and those declared, none of which may set it. -/
def writeAttributes (number : Nat) (attributes : List (String × String)) : List Char :=
  ' ' :: numberAttribute.toList ++ '=' :: '"' :: natChars number ++ '"' ::
    (attributes.filter fun a => a.1 ≠ numberAttribute).flatMap fun a => writeAttribute a.1 a.2

def startTag (number : Nat) (head : ElementHead) : List Char :=
  '<' :: head.tag.toList ++ writeAttributes number head.attributes ++ ['>']

def endTag (head : ElementHead) : List Char := '<' :: '/' :: head.tag.toList ++ ['>']

mutual

/-- A tree whose first element has the number. -/
def writeTree (number : Nat) : ElementTree → List Char
  | .text s => escape false s.toList
  | .element head content =>
    if voidTags.contains head.tag then startTag number head
    else startTag number head ++ writeTrees (number + 1) content ++ endTag head

def writeTrees (number : Nat) : List ElementTree → List Char
  | [] => []
  | t :: rest => writeTree number t ++ writeTrees (number + t.size) rest

end

/-- A whole document. -/
def document (t : ElementTree) : List Char := "<!DOCTYPE html>".toList ++ writeTree 0 t

end Markup

end PageQuery
