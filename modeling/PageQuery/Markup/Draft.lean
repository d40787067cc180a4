/-
# A tree under construction

While markup is read, elements may be moved, so that the tree is kept as numbered nodes that know
their parent and their children. Node 0 is the document. Text next to text is one text.

Key definitions: `Namespace`, `DraftElement`, `Draft`, `Draft.Place`, `Draft.insert`,
`Draft.insertChar`.
-/

namespace PageQuery

/-- The vocabulary that an element's name belongs to. -/
inductive Namespace where
  | html
  | svg
  | math
  deriving DecidableEq, Repr

namespace Namespace

/-- Attributes that are set in a namespace of their own outside ordinary content, with their names in it. -/
def setAttributes : List (String × String) :=
  [("xlink:actuate", "actuate"), ("xlink:arcrole", "arcrole"), ("xlink:href", "href"),
    ("xlink:role", "role"), ("xlink:show", "show"), ("xlink:title", "title"), ("xlink:type", "type"),
    ("xml:lang", "lang"), ("xml:space", "space"), ("xmlns", "xmlns"), ("xmlns:xlink", "xlink")]

/-- Whether an attribute of an element is in a namespace of its own. -/
def sets (space : Namespace) (name : String) : Bool :=
  space != .html && setAttributes.any fun a => a.1 == name

/-- The name of an attribute within its namespace. -/
def localName (space : Namespace) (name : String) : String :=
  if space.sets name then (setAttributes.lookup name).getD name else name

end Namespace

/-- An element as read: its name, vocabulary and attributes. -/
structure DraftElement where
  space : Namespace
  name : String
  attributes : List (String × String)
  deriving DecidableEq, Repr

inductive DraftItem where
  | document
  | element (element : DraftElement)
  | text (text : String)
  deriving DecidableEq, Repr

structure DraftNode where
  item : DraftItem
  parent? : Option Nat
  children : List Nat
  deriving DecidableEq, Repr

/-- Numbered nodes. -/
structure Draft where
  nodes : Array DraftNode

namespace Draft

/-- Where to insert: at the end of a node, or before a node. -/
inductive Place where
  | inside (parent : Nat)
  | before (sibling : Nat)
  deriving DecidableEq, Repr

/-- A document without content. -/
def empty : Draft := ⟨#[⟨.document, none, []⟩]⟩

def item? (d : Draft) (n : Nat) : Option DraftItem := (d.nodes[n]?).map (·.item)

def element? (d : Draft) (n : Nat) : Option DraftElement :=
  match d.item? n with
  | some (.element e) => some e
  | _ => none

def parent? (d : Draft) (n : Nat) : Option Nat := (d.nodes[n]?).bind (·.parent?)

def children (d : Draft) (n : Nat) : List Nat := ((d.nodes[n]?).map (·.children)).getD []

def update (d : Draft) (n : Nat) (f : DraftNode → DraftNode) : Draft := ⟨d.nodes.modify n f⟩

/-- A new node that is nowhere yet. -/
def create (d : Draft) (item : DraftItem) : Nat × Draft :=
  (d.nodes.size, ⟨d.nodes.push ⟨item, none, []⟩⟩)

/-- Takes a node from its parent. -/
def detach (d : Draft) (n : Nat) : Draft :=
  match d.parent? n with
  | none => d
  | some p =>
    (d.update p fun node => { node with children := node.children.filter (· ≠ n) }).update n
      fun node => { node with parent? := none }

/-- Puts a node at the end of another. -/
def append (d : Draft) (parent n : Nat) : Draft :=
  ((d.detach n).update parent fun node => { node with children := node.children ++ [n] }).update n
    fun node => { node with parent? := some parent }

/-- A list with an item put before another. -/
def putBefore (n sibling : Nat) : List Nat → List Nat
  | [] => [n]
  | m :: rest => if m = sibling then n :: m :: rest else m :: putBefore n sibling rest

/-- Puts a node into a place. Before a node that is nowhere there is no place. -/
def insert (d : Draft) (place : Place) (n : Nat) : Draft :=
  match place with
  | .inside parent => d.append parent n
  | .before sibling =>
    match d.parent? sibling with
    | none => d
    | some parent =>
      ((d.detach n).update parent fun node =>
        { node with children := putBefore n sibling node.children }).update n
          fun node => { node with parent? := some parent }

/-- The node that stands right before a place, if there is one. -/
def previous? (d : Draft) : Place → Option Nat
  | .inside parent => (d.children parent).getLast?
  | .before sibling =>
    match d.parent? sibling with
    | none => none
    | some parent => ((d.children parent).takeWhile (· ≠ sibling)).getLast?

/-- Puts a character into a place. -/
def insertChar (d : Draft) (place : Place) (c : Char) : Draft :=
  let addNew :=
    let (n, d) := d.create (.text (String.singleton c))
    d.insert place n
  match d.previous? place with
  | none => addNew
  | some n =>
    match d.item? n with
    | some (.text s) => d.update n fun node => { node with item := .text (s.push c) }
    | _ => addNew

/-- Moves the children of a node to the end of another. -/
def moveChildren (d : Draft) (source target : Nat) : Draft :=
  (d.children source).foldl (fun d n => d.append target n) d

end Draft

end PageQuery
