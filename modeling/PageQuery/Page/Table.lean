/-
# Pages given by tables

A page may be written down as a table of nodes and a table of instances, numbered from 0 in the order
they are listed; the order of nodes is document order. What is not in a table has no links, no name,
no text, null props and the fragment's kind.

Such a page is searched by compounds between blanks, each a tag and classes set off by points, that
stand for descendants at any depth.

Key definitions: `TableNode`, `TableInstance`, `Page.ofTables`.
-/
import PageQuery.Page.Basic
import PageQuery.Text.Blank

namespace PageQuery

structure TableNode where
  tag? : Option String
  classes : List String
  parent? : Option Nat
  /-- The node's own text. -/
  text : String
  host? : Option Nat
  rect : Rect

structure TableInstance where
  parent? : Option Nat
  next? : Option Nat
  kind : InstanceKind
  name? : Option String
  props : Json
  backing? : Option Backing

/-- A tag, if any will not do, and classes that a node must have. -/
structure TableCompound where
  tag? : Option String
  classes : List String

namespace TableCompound

/-- The pieces between separators. -/
def splitAt (separator : Char → Bool) : List Char → List (List Char)
  | [] => [[]]
  | c :: rest =>
    match splitAt separator rest with
    | [] => if separator c then [[], []] else [[c]]
    | piece :: more => if separator c then [] :: piece :: more else (c :: piece) :: more

def ofChars (cs : List Char) : TableCompound :=
  match (splitAt (· == '.') cs).map String.ofList with
  | [] => ⟨none, []⟩
  | tag :: classes => ⟨if tag = "" || tag = "*" then none else some tag, classes⟩

/-- The compounds of a selector. -/
def ofSelector (selector : String) : List TableCompound :=
  ((splitAt isBlankChar selector.toList).filter (!·.isEmpty)).map ofChars

def accepts (c : TableCompound) (n : TableNode) : Bool :=
  (match c.tag? with
    | none => true
    | some tag => n.tag? == some tag) &&
  c.classes.all n.classes.contains

/-- Whether compounds, the innermost first, fit the nodes from one upward: the first compound the
first node, and the others some of those above, in order. -/
def fitAbove : List TableCompound → List TableNode → Bool
  | [], _ => true
  | _ :: _, [] => false
  | c :: cs, n :: ns => if c.accepts n then fitAbove cs ns else fitAbove (c :: cs) ns

/-- Whether the first node of a chain upward is one that the compounds, innermost first, select. -/
def fit : List TableCompound → List TableNode → Bool
  | [], _ => true
  | _ :: _, [] => false
  | c :: cs, n :: ns => c.accepts n && fitAbove cs ns

end TableCompound

namespace Page

/-- The nodes that a selector of compounds selects below a scope; the root selects itself too. -/
def searchTable (table : Array TableNode) (parents : Links NodeId) (root : NodeId)
    (scope : NodeId) (selector : String) : Except SearchError (List NodeId) :=
  if table.size ≤ scope.index then .error (.unknownNode scope)
  else if selector.toList.contains '>' then .error (.invalidSelector selector)
  else
    let compounds := (TableCompound.ofSelector selector).reverse
    .ok (((List.range table.size).map NodeId.mk).filter fun n =>
      (parents.upward n).contains scope && (n ≠ scope || scope = root) &&
        TableCompound.fit compounds ((parents.upward n).filterMap fun m => table[m.index]?))

/-- The page of a table of nodes and a table of instances. -/
def ofTables (root : NodeId) (nodes : Array TableNode) (instances : Array TableInstance) : Page :=
  let parents := Links.ofNodeTable (nodes.map (·.parent?))
  let all := (List.range nodes.size).map NodeId.mk
  let owned := fun (i : InstanceId) => instances[i.index]?
  { root
    nodes := all
    parents
    tag? := fun n => (nodes[n.index]?).bind (·.tag?)
    text := fun n => String.join ((all.filter fun m => (parents.upward m).contains n).map
      fun m => ((nodes[m.index]?).map (·.text)).getD "")
    rect := fun n => ((nodes[n.index]?).map (·.rect)).getD Rect.zero
    search := searchTable nodes parents root
    host? := fun n => ((nodes[n.index]?).bind (·.host?)).map InstanceId.mk
    owners := Links.ofInstanceTable (instances.map (·.parent?))
    siblings := Links.ofInstanceTable (instances.map (·.next?))
    kind := fun i => ((owned i).map (·.kind)).getD .fragment
    name? := fun i => (owned i).bind (·.name?)
    props := fun i => ((owned i).map (·.props)).getD .null
    backing? := fun i => (owned i).bind (·.backing?) }

end Page

end PageQuery
