/-
# The state of construction

Markup becomes a tree token by token. The state holds the tree so far, the elements that are open,
innermost first, the formatting elements that are to be opened again after being closed by others,
and the mode, which says by what rules the next token is taken.

Key definitions: `InsertionMode`, `Construction`, `Build`, `Build.insertElement`, `Build.inScope`,
`Build.generateImplied`, `Build.resetMode`.
-/
import PageQuery.Markup.Draft
import PageQuery.Markup.Token

namespace PageQuery

inductive InsertionMode where
  | beforeHtml
  | beforeHead
  | inHead
  | afterHead
  | inBody
  | text
  | inTable
  | inTableText
  | inCaption
  | inColumnGroup
  | inTableBody
  | inRow
  | inCell
  | inSelect
  | inSelectInTable
  | inTemplate
  | afterBody
  | afterAfterBody
  deriving DecidableEq, Repr, Inhabited

/-- A formatting element, or a mark that those before it are out of reach. -/
inductive FormattingEntry where
  | marker
  | element (node : Nat) (element : DraftElement)
  deriving DecidableEq, Repr

structure Construction where
  draft : Draft
  /-- Open elements, innermost first. -/
  stack : List Nat
  /-- Formatting elements, latest first. -/
  formatting : List FormattingEntry
  mode : InsertionMode
  /-- The mode to go back to after text. -/
  originalMode : InsertionMode
  /-- The modes of open templates, innermost first. -/
  templateModes : List InsertionMode
  head? : Option Nat
  form? : Option Nat
  /-- Text of a table that has no place yet, latest first. -/
  pendingText : List Char
  /-- Whether what may not stand in a table is put before it. -/
  fostering : Bool
  /-- Whether a line feed that comes next is dropped. -/
  skipNewline : Bool
  textKind : TextKind

namespace Construction

def start : Construction where
  draft := .empty
  stack := []
  formatting := []
  mode := .beforeHtml
  originalMode := .inBody
  templateModes := []
  head? := none
  form? := none
  pendingText := []
  fostering := false
  skipNewline := false
  textKind := .ordinary

end Construction

/-- A step of construction. -/
abbrev Build (α : Type) := StateM Construction α

namespace Build

/-! ### Names of elements -/

/-- The vocabulary and the name of a node; the document has none. -/
def nameOf (c : Construction) (n : Nat) : Namespace × String :=
  match c.draft.element? n with
  | some e => (e.space, e.name)
  | none => (.html, "")

def isHtml (names : List String) (c : Construction) (n : Nat) : Bool :=
  match nameOf c n with
  | (.html, name) => names.contains name
  | _ => false

/-- Elements whose names set them apart when end tags are matched. -/
def specialNames : List String :=
  ["address", "applet", "area", "article", "aside", "base", "basefont", "bgsound", "blockquote",
    "body", "br", "button", "caption", "center", "col", "colgroup", "dd", "details", "dir", "div",
    "dl", "dt", "embed", "fieldset", "figcaption", "figure", "footer", "form", "frame", "frameset",
    "h1", "h2", "h3", "h4", "h5", "h6", "head", "header", "hgroup", "hr", "html", "iframe", "img",
    "input", "isindex", "li", "link", "listing", "main", "marquee", "menu", "meta", "nav",
    "noembed", "noframes", "noscript", "object", "ol", "p", "param", "plaintext", "pre", "script",
    "section", "select", "source", "style", "summary", "table", "tbody", "td", "template",
    "textarea", "tfoot", "th", "thead", "title", "tr", "track", "ul", "wbr", "xmp"]

/-- Elements of another vocabulary whose content is text of the document. -/
def isMathText (c : Construction) (n : Nat) : Bool :=
  match nameOf c n with
  | (.math, name) => ["mi", "mo", "mn", "ms", "mtext"].contains name
  | _ => false

def isSvgContainer (c : Construction) (n : Nat) : Bool :=
  match nameOf c n with
  | (.svg, name) => ["foreignObject", "desc", "title"].contains name
  | _ => false

def isAnnotation (c : Construction) (n : Nat) : Bool := nameOf c n == (.math, "annotation-xml")

def isSpecial (c : Construction) (n : Nat) : Bool :=
  isHtml specialNames c n || isMathText c n || isAnnotation c n || isSvgContainer c n

/-! ### Scopes -/

/-- What ends a search of the open elements for one that is in scope. -/
def endsScope (c : Construction) (n : Nat) : Bool :=
  isHtml ["applet", "caption", "html", "table", "td", "th", "marquee", "object", "template"] c n
    || isMathText c n || isSvgContainer c n

def endsListScope (c : Construction) (n : Nat) : Bool := endsScope c n || isHtml ["ol", "ul"] c n

def endsButtonScope (c : Construction) (n : Nat) : Bool := endsScope c n || isHtml ["button"] c n

def endsTableScope (c : Construction) (n : Nat) : Bool :=
  isHtml ["html", "table", "template"] c n

def endsSelectScope (c : Construction) (n : Nat) : Bool :=
  !isHtml ["optgroup", "option"] c n

/-- Whether a wanted element is open inside of all that end the scope. -/
def searchScope (ends wanted : Nat → Bool) : List Nat → Bool
  | [] => false
  | n :: rest => if wanted n then true else if ends n then false else searchScope ends wanted rest

def inScope (ends : Construction → Nat → Bool) (names : List String) : Build Bool := do
  let c ← get
  return searchScope (ends c) (isHtml names c) c.stack

def nodeInScope (n : Nat) : Build Bool := do
  let c ← get
  return searchScope (endsScope c) (· == n) c.stack

/-! ### Open elements -/

def currentIs (names : List String) : Build Bool := do
  let c ← get
  return c.stack.head?.any (isHtml names c)

def pop : Build Unit := modify fun c => { c with stack := c.stack.drop 1 }

def push (n : Nat) : Build Unit := modify fun c => { c with stack := n :: c.stack }

/-- Closes elements up to and with the first of these names. -/
def popThrough (names : List String) : Build Unit :=
  modify fun c => { c with stack := (c.stack.dropWhile fun n => !isHtml names c n).drop 1 }

/-- Closes elements until one of these names is innermost. -/
def popTo (names : List String) : Build Unit :=
  modify fun c => { c with stack := c.stack.dropWhile fun n => !isHtml names c n }

/-- Takes an element from the open ones. -/
def removeOpen (n : Nat) : Build Unit :=
  modify fun c => { c with stack := c.stack.filter (· ≠ n) }

def isOpen (names : List String) : Build Bool := do
  let c ← get
  return c.stack.any (isHtml names c)

/-- Elements whose end tags may be left out. -/
def impliedNames : List String :=
  ["dd", "dt", "li", "option", "optgroup", "p", "rb", "rp", "rt", "rtc"]

def thoroughlyImpliedNames : List String :=
  impliedNames ++ ["caption", "colgroup", "tbody", "td", "tfoot", "th", "thead", "tr"]

/-- Closes innermost elements of these names. -/
def popWhile (names : List String) : Build Unit :=
  modify fun c => { c with stack := c.stack.dropWhile (isHtml names c) }

/-- Closes innermost elements whose end tags may be left out, except of one name. -/
def generateImplied (exception : String) : Build Unit :=
  popWhile (impliedNames.filter (· ≠ exception))

/-- Closes an open paragraph in the scope of buttons. -/
def closeParagraph : Build Unit := do
  if ← inScope endsButtonScope ["p"] then
    generateImplied "p"
    popThrough ["p"]

/-! ### Places -/

/-- The elements whose content is fostered. -/
def fosteringNames : List String := ["table", "tbody", "tfoot", "thead", "tr"]

/-- The place for what may not stand in a table: in an inner template, before the table, or in the
element around it if the table has no parent. -/
def fosterPlace (c : Construction) : List Nat → Draft.Place
  | [] => .inside (c.stack.getLast?.getD 0)
  | n :: rest =>
    if isHtml ["template"] c n then .inside n
    else if isHtml ["table"] c n then
      if (c.draft.parent? n).isSome then .before n else .inside (rest.head?.getD 0)
    else fosterPlace c rest

/-- Where a node goes that is meant for the target. -/
def placeIn (c : Construction) (target : Nat) : Draft.Place :=
  if c.fostering && isHtml fosteringNames c target then fosterPlace c c.stack else .inside target

/-- Where a node goes now. -/
def placeNow (c : Construction) : Draft.Place := placeIn c (c.stack.head?.getD 0)

/-! ### Insertion -/

def insertChar (ch : Char) : Build Unit :=
  modify fun c => { c with draft := c.draft.insertChar (placeNow c) ch }

/-- Inserts an element and opens it. -/
def insertDraft (e : DraftElement) : Build Nat := fun c =>
  let place := placeNow c
  let (n, draft) := c.draft.create (.element e)
  (n, { c with draft := draft.insert place n, stack := n :: c.stack })

def insertElement (name : String) (attributes : List (String × String)) : Build Nat :=
  insertDraft ⟨.html, name, attributes⟩

/-- Inserts an element without content. -/
def insertVoid (name : String) (attributes : List (String × String)) : Build Unit := do
  let _ ← insertElement name attributes
  pop

/-- Inserts an element that the markup leaves out. -/
def insertBare (name : String) : Build Unit := do
  let _ ← insertElement name []

/-- Inserts an element whose content is text of a kind. -/
def insertText (kind : TextKind) (name : String) (attributes : List (String × String)) :
    Build Unit := do
  let _ ← insertElement name attributes
  modify fun c => { c with originalMode := c.mode, mode := .text, textKind := kind }

def setMode (mode : InsertionMode) : Build Unit := modify fun c => { c with mode }

def addMarker : Build Unit := modify fun c => { c with formatting := .marker :: c.formatting }

/-- Forgets formatting elements up to the last marker. -/
def clearToMarker : Build Unit :=
  modify fun c => { c with formatting := (c.formatting.dropWhile (· ≠ .marker)).drop 1 }

/-! ### Resetting the mode -/

/-- The mode of a select element with these elements around it. -/
def selectMode (c : Construction) : List Nat → InsertionMode
  | [] => .inSelect
  | n :: rest =>
    if isHtml ["template"] c n then .inSelect
    else if isHtml ["table"] c n then .inSelectInTable
    else selectMode c rest

/-- The mode that fits the open elements. -/
def modeFor (c : Construction) : List Nat → InsertionMode
  | [] => .inBody
  | n :: rest =>
    match nameOf c n with
    | (.html, name) =>
      let inner := !rest.isEmpty
      if name = "select" then selectMode c rest
      else if (name = "td" || name = "th") && inner then .inCell
      else if name = "tr" then .inRow
      else if name = "tbody" || name = "thead" || name = "tfoot" then .inTableBody
      else if name = "caption" then .inCaption
      else if name = "colgroup" then .inColumnGroup
      else if name = "table" then .inTable
      else if name = "template" then c.templateModes.head?.getD .inBody
      else if name = "head" && inner then .inHead
      else if name = "body" then .inBody
      else if name = "html" then if c.head?.isSome then .afterHead else .beforeHead
      else modeFor c rest
    | _ => modeFor c rest

def resetMode : Build Unit := modify fun c => { c with mode := modeFor c c.stack }

end Build

end PageQuery
