/-
# Tokens of a selector

A selector is split at blanks, except inside quotes, inside brackets and behind a backslash. The
splitter walks the text once; what it keeps is the token begun, the closing brackets it waits for,
the open quote and whether a backslash came just before.

A bracket that closes nothing, or the wrong thing, ends the walk; so does a quote or a bracket left
open at the end. The error shows the text from the beginning of the token on.

Key definitions: `TokenState`, `tokensFrom`, `tokenize`.
-/
import PageQuery.Selector.Error
import PageQuery.Text.Blank

namespace PageQuery

/-- Where a walk over a selector stands. The token is kept backwards; an empty one is not begun. -/
structure TokenState where
  token : List Char
  closers : List Char
  quote : Option Char
  escaped : Bool
  deriving DecidableEq, Repr

namespace TokenState

/-- Between two tokens. -/
def between : TokenState := ⟨[], [], none, false⟩

/-- Adds a character to the token. -/
def add (s : TokenState) (c : Char) : TokenState := { s with token := c :: s.token }

/-- What an error shows: the token begun and everything behind it. -/
def fragment (s : TokenState) (rest : List Char) : String :=
  String.ofList (s.token.reverse ++ rest)

/-- The closing bracket for an opening one. -/
@[grind]
def closerOf? (c : Char) : Option Char :=
  if c = '(' then some ')' else if c = '[' then some ']' else if c = '{' then some '}' else none

@[grind]
def isCloser (c : Char) : Bool := c = ')' || c = ']' || c = '}'

/-- Whether a character ends the token begun, if one is. -/
def separates (s : TokenState) (c : Char) : Bool :=
  s.quote.isNone && !s.escaped && s.closers.isEmpty && isBlankChar c

/-- The state behind a character that belongs to a token; nothing if it closes what is not open. -/
def step? (s : TokenState) (c : Char) : Option TokenState :=
  if s.escaped then some { s.add c with escaped := false }
  else match s.quote with
    | some q =>
      if c = '\\' then some { s.add c with escaped := true }
      else if c = q then some { s.add c with quote := none }
      else some (s.add c)
    | none =>
      if c = '"' ∨ c = '\'' then some { s.add c with quote := some c }
      else if c = '\\' then some { s.add c with escaped := true }
      else match closerOf? c with
        | some closer => some { s.add c with closers := closer :: s.closers }
        | none =>
          if isCloser c then
            match s.closers with
            | closer :: outer => if closer = c then some { s.add c with closers := outer } else none
            | [] => none
          else some (s.add c)

/-- The token begun, if there is one. -/
def pending (s : TokenState) : List (List Char) :=
  if s.token.isEmpty then [] else [s.token.reverse]

/-- What is left open at the end of the text. -/
def atEnd (s : TokenState) : Except SelectorError (List (List Char)) :=
  if s.quote.isSome then .error (.unterminatedQuote (s.fragment []))
  else if s.closers.isEmpty then .ok s.pending
  else .error (.unbalanced (s.fragment []))

end TokenState

/-- The tokens from a state on: the one begun and those behind it. -/
def tokensFrom (s : TokenState) : List Char → Except SelectorError (List (List Char))
  | [] => s.atEnd
  | c :: rest =>
    if s.separates c then (tokensFrom .between rest).map (s.pending ++ ·)
    else match s.step? c with
      | none => .error (.unbalanced (s.fragment (c :: rest)))
      | some next => tokensFrom next rest

/-- The tokens of a text. -/
def tokenizeChars (cs : List Char) : Except SelectorError (List (List Char)) :=
  tokensFrom .between cs

/-- The tokens of a selector, in order, none of them empty. -/
def tokenize (text : String) : Except SelectorError (List String) :=
  (tokenizeChars text.toList).map fun tokens => tokens.map String.ofList

end PageQuery
