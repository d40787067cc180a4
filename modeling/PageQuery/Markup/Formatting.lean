/-
# Formatting elements

A formatting element that something else closes is opened again before what follows. Its own end tag
closes it although other elements are open inside: those that are blocks then keep a copy of it for
their content.

Key definitions: `Build.reconstruct`, `Build.insertFormatting`, `Build.adopt`, `Build.endOther`.
-/
import PageQuery.Markup.Construction

namespace PageQuery

namespace Build

/-- The elements of a list of formatting elements up to its first marker. -/
def reachable (entries : List FormattingEntry) : List (Nat × DraftElement) :=
  (entries.takeWhile (· ≠ .marker)).filterMap fun entry =>
    match entry with
    | .marker => none
    | .element n e => some (n, e)

/-- Takes an element from the formatting elements. -/
def forget (n : Nat) : Build Unit :=
  modify fun c => { c with
    formatting := c.formatting.filter fun entry =>
      match entry with
      | .marker => true
      | .element m _ => m ≠ n }

/-- Puts another element in the place of one. -/
def replaceEntry (old new : Nat) (entries : List FormattingEntry) : List FormattingEntry :=
  entries.map fun entry =>
    match entry with
    | .marker => .marker
    | .element m e => if m = old then .element new e else .element m e

/-- The entries after the latest that is a marker or open, latest first: those to open again. -/
def closedEntries (c : Construction) : List (Nat × DraftElement) :=
  (reachable c.formatting).takeWhile fun entry => !c.stack.contains entry.1

/-- Opens copies of elements, each in the place of the one copied. -/
def reopen : List (Nat × DraftElement) → Build Unit
  | [] => pure ()
  | (old, e) :: rest => do
    let new ← insertDraft e
    modify fun c => { c with formatting := replaceEntry old new c.formatting }
    reopen rest

/-- Opens again the formatting elements that were closed. -/
def reconstruct : Build Unit := do
  let c ← get
  reopen (closedEntries c).reverse

/-- Three like elements are enough: the earliest of them is forgotten. -/
def limitLike (e : DraftElement) : Build Unit := do
  let c ← get
  let like := (reachable c.formatting).filter fun entry => entry.2 == e
  if 3 ≤ like.length then
    match like.getLast? with
    | some (n, _) => forget n
    | none => pure ()

/-- Inserts a formatting element. -/
def insertFormatting (name : String) (attributes : List (String × String)) : Build Unit := do
  let e : DraftElement := ⟨.html, name, attributes⟩
  limitLike e
  let n ← insertDraft e
  modify fun c => { c with formatting := .element n e :: c.formatting }

/-! ### End tags -/

/-- The open elements up to the one that an end tag closes; nothing if a special element that it does
not name comes first. -/
def closedBy (c : Construction) (name : String) : List Nat → Option Nat
  | [] => none
  | n :: rest =>
    if isHtml [name] c n then some n
    else if isSpecial c n then none
    else closedBy c name rest

/-- Closes elements up to and with one. -/
def popThroughNode (n : Nat) : Build Unit :=
  modify fun c => { c with stack := (c.stack.dropWhile (· ≠ n)).drop 1 }

/-- An end tag without rules of its own. -/
def endOther (name : String) : Build Unit := do
  let c ← get
  match closedBy c name c.stack with
  | none => pure ()
  | some n =>
    generateImplied name
    popThroughNode n

/-- The outermost special element that is open inside a formatting element. -/
def furthestBlock? (c : Construction) (formatting : Nat) : Option Nat :=
  ((c.stack.takeWhile (· ≠ formatting)).filter (isSpecial c)).getLast?

/-- Puts an entry right after one element's in the order of entries, which are latest first. -/
def putAfter (anchor : Nat) (entry : FormattingEntry) : List FormattingEntry → List FormattingEntry
  | [] => [entry]
  | .element n e :: rest =>
    if n = anchor then entry :: .element n e :: rest
    else .element n e :: putAfter anchor entry rest
  | .marker :: rest => .marker :: putAfter anchor entry rest

/-- Copies the formatting elements between a block and the element that ends, innermost first; each
copy takes what was inside it. After three only blocks stay open. Gives the node that is outermost
now and the entry after which the ended element's copy comes, if any. -/
def rebuildBetween (block : Nat) : Nat → Nat → Option Nat → List Nat → Build (Nat × Option Nat)
  | _, last, bookmark?, [] => pure (last, bookmark?)
  | count, last, bookmark?, n :: outer => do
    let c ← get
    let entry? := (reachable c.formatting).find? fun entry => entry.1 == n
    match entry? with
    | some (_, e) =>
      if 3 ≤ count then
        forget n
        removeOpen n
        rebuildBetween block (count + 1) last bookmark? outer
      else
        let (copy, draft) := c.draft.create (.element e)
        let bookmark? := if last = block then some copy else bookmark?
        set { c with
          draft := draft.append copy last
          stack := c.stack.map fun m => if m = n then copy else m
          formatting := replaceEntry n copy c.formatting }
        rebuildBetween block (count + 1) copy bookmark? outer
    | none =>
      removeOpen n
      rebuildBetween block (count + 1) last bookmark? outer

/-- A list with an item put right before another. -/
def insertBefore (n anchor : Nat) : List Nat → List Nat
  | [] => []
  | m :: rest => if m = anchor then n :: m :: rest else m :: insertBefore n anchor rest

/-- Splits a formatting element at the outermost block inside it. -/
def splitAtBlock (formatting block : Nat) (e : DraftElement) : Build Unit := do
  let c ← get
  let outside := (c.stack.dropWhile (· ≠ formatting)).drop 1
  let ancestor := outside.head?.getD 0
  let between := ((c.stack.dropWhile (· ≠ block)).drop 1).takeWhile (· ≠ formatting)
  let (last, bookmark?) ← rebuildBetween block 0 block none between
  modify fun c => { c with draft := (c.draft.detach last).insert (placeIn c ancestor) last }
  let c ← get
  let (copy, draft) := c.draft.create (.element e)
  let draft := (draft.moveChildren block copy).append block copy
  let formattings := match bookmark? with
    | none => replaceEntry formatting copy c.formatting
    | some anchor =>
      putAfter anchor (.element copy e) (c.formatting.filter fun entry =>
        match entry with
        | .marker => true
        | .element m _ => m ≠ formatting)
  set { c with
    draft
    formatting := formattings
    stack := insertBefore copy block (c.stack.filter (· ≠ formatting)) }

/-- One round of ending a formatting element of a name: whether there may be more. -/
def adoptOnce (name : String) : Build Bool := do
  let c ← get
  match (reachable c.formatting).find? fun entry => entry.2.name == name with
  | none =>
    endOther name
    return false
  | some (n, e) =>
    if !c.stack.contains n then
      forget n
      return false
    if !(← nodeInScope n) then return false
    match furthestBlock? c n with
    | none =>
      popThroughNode n
      forget n
      return false
    | some block =>
      splitAtBlock n block e
      return true

/-- Rounds of ending a formatting element, at most so many. -/
def adoptRounds (name : String) : Nat → Build Unit
  | 0 => pure ()
  | count + 1 => do
    if ← adoptOnce name then adoptRounds name count

/-- The end tag of a formatting element. -/
def adopt (name : String) : Build Unit := do
  let c ← get
  match c.stack.head? with
  | none => adoptRounds name 8
  | some n =>
    let listed := (reachable c.formatting).any fun entry => entry.1 == n
    if isHtml [name] c n && !listed then pop else adoptRounds name 8

/-- Ends an open link before another begins. -/
def endLink : Build Unit := do
  let c ← get
  match (reachable c.formatting).find? fun entry => entry.2.name == "a" with
  | none => pure ()
  | some (n, _) =>
    adopt "a"
    forget n
    removeOpen n

end Build

end PageQuery
