/-
# Reading markup

Markup is read token by token, each token being taken by the rules of the mode, or, inside pictures
and formulas, by rules that keep names as they are until ordinary content breaks out.

What was read is a tree of elements and text.

Key definitions: `MarkupTree`, `Markup.read`.
-/
import PageQuery.Markup.Modes

namespace PageQuery

/-- A tree as read from markup. -/
inductive MarkupTree where
  | text (text : String)
  | element (element : DraftElement) (content : List MarkupTree)
  deriving Repr

namespace Build

/-- Ordinary content that ends pictures and formulas. -/
def breakoutNames : List String :=
  ["b", "big", "blockquote", "body", "br", "center", "code", "dd", "div", "dl", "dt", "em",
    "embed", "h1", "h2", "h3", "h4", "h5", "h6", "head", "hr", "i", "img", "li", "listing", "menu",
    "meta", "nobr", "ol", "p", "pre", "ruby", "s", "small", "span", "strong", "strike", "sub",
    "sup", "table", "tt", "u", "ul", "var"]

/-- Whether an annotation holds ordinary content. -/
def isOrdinaryAnnotation (c : Construction) (n : Nat) : Bool :=
  isAnnotation c n &&
    match c.draft.element? n with
    | some e => e.attributes.any fun a =>
      a.1 == "encoding" && ["text/html", "application/xhtml+xml"].contains (lowerCase a.2)
    | none => false

/-- Whether ordinary content may stand directly in an element. -/
def holdsOrdinary (c : Construction) (n : Nat) : Bool :=
  (nameOf c n).1 == .html || isMathText c n || isSvgContainer c n

/-- Whether a token is taken by the rules of pictures and formulas. -/
def isForeign (c : Construction) (token : MarkupToken) : Bool :=
  match c.stack.head? with
  | none => false
  | some n =>
    if (nameOf c n).1 == .html then false
    else match token with
      | .char _ => !(isMathText c n || isSvgContainer c n || isOrdinaryAnnotation c n)
      | .startTag name _ _ =>
        if isMathText c n then name = "mglyph" || name = "malignmark"
        else if isSvgContainer c n then false
        else if isAnnotation c n then !(name = "svg" || isOrdinaryAnnotation c n)
        else true
      | .endTag _ => true

/-- Closes pictures and formulas. -/
def breakOut : Build Unit :=
  modify fun c => { c with
    stack := c.stack.dropWhile fun n => !(holdsOrdinary c n || isOrdinaryAnnotation c n) }

/-- Whether a start tag ends pictures and formulas. -/
def breaksOut (name : String) (attributes : List (String × String)) : Bool :=
  breakoutNames.contains name ||
    (name = "font" && attributes.any fun a => ["color", "face", "size"].contains a.1)

/-- The open element of another vocabulary that an end tag closes; nothing if ordinary content comes
first. -/
def foreignClosed? (c : Construction) (name : String) : List Nat → Option Nat
  | [] => none
  | n :: rest =>
    if (nameOf c n).1 == .html then none
    else if lowerCase (nameOf c n).2 == name then some n
    else foreignClosed? c name rest

/-- The rules of pictures and formulas. -/
def foreignRules (token : MarkupToken) : Build Next := do
  let c ← get
  match token with
  | .char ch =>
    insertChar (Markup.withoutNul ch)
    return .done
  | .startTag name attributes selfClosing =>
    if breaksOut name attributes then
      breakOut
      return .by c.mode
    else
      let space := match c.stack.head? with
        | some n => (nameOf c n).1
        | none => .html
      insertForeign space name attributes selfClosing
      return .done
  | .endTag name =>
    if name = "br" || name = "p" then
      breakOut
      return .by c.mode
    else match foreignClosed? c name c.stack with
      | some n =>
        popThroughNode n
        return .done
      | none => return .by c.mode

/-- Takes a token by the rules of a mode; rules may refer to each other so many times. -/
def step : Nat → InsertionMode → MarkupToken → Build Next
  | 0, _, _ => pure .done
  | fuel + 1, mode, token => do
    match ← rules mode token with
    | .by other => step fuel other token
    | .foster =>
      modify fun c => { c with fostering := true }
      let next ← step fuel .inBody token
      modify fun c => { c with fostering := false }
      return next
    | next => return next

/-- Rules refer to those of the body and of the head at most through three others. -/
def ruleDepth : Nat := 8

/-- Takes a token, which may be taken again so many times. -/
def process : Nat → MarkupToken → Build Unit
  | 0, _ => pure ()
  | fuel + 1, token => do
    let c ← get
    let next ← if isForeign c token then foreignRules token else step ruleDepth c.mode token
    let next ← match next with
      | .by mode => step ruleDepth mode token
      | next => pure next
    match next with
    | .again token => process fuel token
    | _ => pure ()

/-- Takes a token. A token is taken again only when something was closed or a mode was left for a
more general one. -/
def takeToken (token : MarkupToken) : Build Unit := do
  let c ← get
  set { c with skipNewline := false }
  unless c.skipNewline && token = .char '\n' do
    process (2 * (c.stack.length + c.templateModes.length) + 16) token

/-- Takes the tokens of a text, at most so many characters. -/
def takeText : Nat → List Char → Build Unit
  | 0, _ => pure ()
  | _ + 1, [] => pure ()
  | fuel + 1, ch :: rest => do
    let (token?, rest) := Markup.nextToken (← get).textKind ch rest
    match token? with
    | some token => takeToken token
    | none => pure ()
    takeText fuel rest

end Build

namespace Draft

/-- The tree of a node, at most so deep. -/
def treeOf (d : Draft) : Nat → Nat → List MarkupTree
  | 0, _ => []
  | fuel + 1, n =>
    match d.item? n with
    | some (.text s) => [.text s]
    | some (.element e) => [.element e ((d.children n).flatMap (treeOf d fuel))]
    | _ => []

/-- The trees of the document. -/
def trees (d : Draft) : List MarkupTree := (d.children 0).flatMap (treeOf d d.nodes.size)

end Draft

namespace Markup

/-- The trees that a text reads as. -/
def read (cs : List Char) : List MarkupTree :=
  let cs := normalizeLines cs
  ((Build.takeText cs.length cs).run .start).2.draft.trees

end Markup

end PageQuery
