/-
# Parses kept by their text

A cache keeps the parse of each text that has one. An entry's place in the cache is its identity: the
same text is answered from the same place ever after. What fails is not kept.

Key definitions: `SelectorCache`, `SelectorCache.getOrParse`.
-/
import PageQuery.Selector.Segment

namespace PageQuery

/-- Parsed selectors in the order of their first parse. -/
structure SelectorCache where
  entries : List Selector
  deriving DecidableEq, Repr

namespace SelectorCache

def empty : SelectorCache := ⟨[]⟩

def size (c : SelectorCache) : Nat := c.entries.length

def isEmpty (c : SelectorCache) : Bool := c.entries.isEmpty

/-- The place and the parse kept for a text, places counted from `place`. -/
def findFrom (text : String) (place : Nat) : List Selector → Option (Nat × Selector)
  | [] => none
  | s :: rest => if s.source = text then some (place, s) else findFrom text (place + 1) rest

def find? (c : SelectorCache) (text : String) : Option (Nat × Selector) := findFrom text 0 c.entries

/-- The place and the parse of a text, parsing and keeping it if it is new. -/
def getOrParse (c : SelectorCache) (text : String) :
    Except SelectorError (Nat × Selector) × SelectorCache :=
  match c.find? text with
  | some hit => (.ok hit, c)
  | none =>
    match Selector.parse text with
    | .error e => (.error e, c)
    | .ok s => (.ok (c.size, s), ⟨c.entries ++ [s]⟩)

end SelectorCache

end PageQuery
