/-
# Structural selectors

A selector tests an element by what it is, what it has, where it stands among its siblings, and what
stands around it. Compounds of tests are combined by how the elements stand to each other; the last
compound tests the element itself.

Key definitions: `AttributeTest`, `Combinator`, `StyleTest`, `StyleSelector`, `StyleElement`,
`StyleDocument`.
-/
import PageQuery.Markup.Draft

namespace PageQuery

/-- What an attribute's value must be like. -/
inductive AttributeTest where
  | present
  | equal (value : String)
  /-- A word of the value. -/
  | word (value : String)
  /-- The value or its part before a hyphen. -/
  | dashed (value : String)
  | start (value : String)
  | finish (value : String)
  | part (value : String)
  deriving DecidableEq, Repr

/-- Whether letters of ASCII differ by case in an attribute's value. -/
inductive CaseRule where
  /-- As the attribute has it in HTML. -/
  | byName
  | ignored
  | kept
  deriving DecidableEq, Repr

/-- How an element stands to the one before it in a selector. -/
inductive Combinator where
  | descendant
  | child
  | nextSibling
  | laterSibling
  deriving DecidableEq, Repr

/-- Places `step · k + offset`, counted from 1, for `k` from 0 on. -/
structure Places where
  step : Int
  offset : Int
  deriving DecidableEq, Repr

mutual

/-- A test of one element. -/
inductive StyleTest where
  | tag (name : String)
  | id (id : String)
  | class (name : String)
  /-- An attribute of the name, in no namespace or in any. -/
  | attribute (name : String) (anywhere : Bool) (test : AttributeTest) (rule : CaseRule)
  | root
  | empty
  /-- The place among the siblings, or among those of its type, from the start or from the end. -/
  | place (ofType fromEnd : Bool) (places : Places)
  | noneOf (selectors : List StyleSelector)
  | oneOf (selectors : List StyleSelector)
  /-- Some element that stands so to this one is selected. -/
  | has (relatives : List StyleRelative)

/-- A selector of elements. -/
inductive StyleSelector where
  | compound (tests : List StyleTest)
  | combined (left : StyleSelector) (combinator : Combinator) (tests : List StyleTest)
  /-- Selects nothing. -/
  | nothing

/-- A selector whose first compound stands to a given element as the combinator says. -/
inductive StyleRelative where
  | relative (combinator : Combinator) (selector : StyleSelector)

end

/-- An element as selectors see it. -/
structure StyleElement where
  element : DraftElement
  parent? : Option Nat
  hasText : Bool
  deriving DecidableEq, Repr

/-- Elements in document order; a parent is known by its place in it. -/
structure StyleDocument where
  elements : Array StyleElement

end PageQuery
