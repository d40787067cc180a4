/-
# Patterns and what they match

A pattern is a regular expression over characters with assertions about a place in the text: its ends,
its line ends, its word boundaries. Matching walks the text once with the set of patterns still to be
matched from the place reached: a step replaces each by the patterns that may follow the next
character. The text matches as soon as one of the set can end where the walk stands.

Key definitions: `Pattern`, `Pattern.canEnd`, `Pattern.after`, `Pattern.search`.
-/
import PageQuery.Pattern.CharSet

namespace PageQuery

/-- What may be asked of a place in a text. -/
inductive Assertion where
  | textStart
  | textEnd
  | lineStart
  | lineEnd
  | wordBoundary
  | notWordBoundary
  | wordStart
  | wordEnd
  | wordStartHalf
  | wordEndHalf
  deriving DecidableEq, Repr

/-- A place in a text: the characters before and behind it, if there are any. -/
structure Place where
  before : Option Char
  behind : Option Char
  deriving DecidableEq, Repr

namespace Assertion

def isWord (c : Option Char) : Bool := c.any isWordChar

/-- Whether a place satisfies an assertion. -/
def holdsAt (p : Place) : Assertion → Bool
  | .textStart => p.before.isNone
  | .textEnd => p.behind.isNone
  | .lineStart => p.before.isNone || p.before == some '\n'
  | .lineEnd => p.behind.isNone || p.behind == some '\n'
  | .wordBoundary => isWord p.before != isWord p.behind
  | .notWordBoundary => isWord p.before == isWord p.behind
  | .wordStart => !isWord p.before && isWord p.behind
  | .wordEnd => isWord p.before && !isWord p.behind
  | .wordStartHalf => !isWord p.before
  | .wordEndHalf => !isWord p.behind

end Assertion

/-- A pattern; `repeated` bounds the number of repetitions from below and perhaps from above. -/
inductive Pattern where
  | nothing
  | set (s : CharSet)
  | assertion (a : Assertion)
  | sequence (first second : Pattern)
  | either (first second : Pattern)
  | repeated (body : Pattern) (least : Nat) (most : Option Nat)
  deriving DecidableEq, Repr

namespace Pattern

/-- Whether the pattern can match the empty text at a place. -/
def canEnd (p : Place) : Pattern → Bool
  | .nothing => true
  | .set _ => false
  | .assertion a => a.holdsAt p
  | .sequence a b => a.canEnd p && b.canEnd p
  | .either a b => a.canEnd p || b.canEnd p
  | .repeated a least _ => least == 0 || a.canEnd p

/-- One pattern behind another. -/
def followedBy (b : Pattern) : Pattern → Pattern
  | .nothing => b
  | a => .sequence a b

/-- What may follow a character that begins a repetition: `next` is what may follow it in the body,
`skips` says whether the body can be empty here. -/
def afterRepeated (body : Pattern) (next : List Pattern) (skips : Bool) :
    Nat → Option Nat → List Pattern
  | 0, most =>
    if most = some 0 then []
    else next.map (followedBy (.repeated body 0 (most.map (· - 1))))
  | least + 1, most =>
    next.map (followedBy (.repeated body least (most.map (· - 1)))) ++
      if skips then afterRepeated body next skips least (most.map (· - 1)) else []

/-- The patterns that may follow the character `c`, matched at a place by the beginning of a
pattern. -/
def after (p : Place) (c : Char) : Pattern → List Pattern
  | .nothing => []
  | .set s => if s.mem c then [.nothing] else []
  | .assertion _ => []
  | .sequence a b =>
    (a.after p c).map (followedBy b) ++ if a.canEnd p then b.after p c else []
  | .either a b => a.after p c ++ b.after p c
  | .repeated a least most => afterRepeated a (a.after p c) (a.canEnd p) least most

/-- Whether the pattern matches from here on or one of `pending` can end, `before` being the last
character passed. -/
def searchFrom (r : Pattern) (pending : List Pattern) (before : Option Char) : List Char → Bool
  | [] => (r :: pending).any fun q => q.canEnd ⟨before, none⟩
  | c :: rest =>
    let place : Place := ⟨before, some c⟩
    (r :: pending).any (fun q => q.canEnd place) ||
      searchFrom r ((r :: pending).flatMap fun q => q.after place c).eraseDups (some c) rest

/-- Whether the pattern matches some part of a text. -/
def search (r : Pattern) (text : List Char) : Bool := searchFrom r [] none text

end Pattern

end PageQuery
