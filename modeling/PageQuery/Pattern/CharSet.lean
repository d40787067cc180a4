/-
# Sets of characters

The sets that a pattern can name: ranges, the digit, word and blank classes, general categories, the
ASCII classes, and what is made of those by union, intersection, difference, complement and closing
under case.

Key definitions: `CharSet`, `CharSet.mem`, `CharSet.ofProperty?`, `CharSet.ofAsciiClass?`.
-/
import PageQuery.Json.Basic
import PageQuery.Text.Blank
import PageQuery.Text.Category
import PageQuery.Text.Folding

namespace PageQuery

inductive CharSet where
  | empty
  | range (low high : Char)
  | digit
  | word
  | blank
  /-- Characters whose general category begins with these letters. -/
  | category (name : List Char)
  | union (a b : CharSet)
  | inter (a b : CharSet)
  | complement (a : CharSet)
  /-- The characters that differ from a member in case alone, and the members. -/
  | anyCase (a : CharSet)
  deriving DecidableEq, Repr

namespace CharSet

def single (c : Char) : CharSet := .range c c

def mem : CharSet → Char → Bool
  | .empty, _ => false
  | .range low high, c => decide (low ≤ c) && decide (c ≤ high)
  | .digit, c => isDecimalDigit c
  | .word, c => isWordChar c
  | .blank, c => isBlankChar c
  | .category name, c => name.isPrefixOf (categoryOf c)
  | .union a b, c => a.mem c || b.mem c
  | .inter a b, c => a.mem c && b.mem c
  | .complement a, c => !a.mem c
  | .anyCase a, c => (caseVariants c).any a.mem

def diff (a b : CharSet) : CharSet := .inter a (.complement b)

def symmDiff (a b : CharSet) : CharSet := .union (diff a b) (diff b a)

/-- Every character but a line feed. -/
def notLineFeed : CharSet := .complement (single '\n')

def all : CharSet := .complement .empty

/-- The union of ranges. -/
def ofRanges (ranges : List (Char × Char)) : CharSet :=
  ranges.foldr (fun r s => .union (.range r.1 r.2) s) .empty

def ofCategories (names : List String) : CharSet :=
  names.foldr (fun name s => .union (.category name.toList) s) .empty

/-! ### Classes by name -/

/-- Long names of general categories, without blanks and in small letters. -/
def categoryNames : List (String × String) :=
  [("letter", "L"), ("casedletter", "LC"), ("uppercaseletter", "Lu"), ("lowercaseletter", "Ll"),
    ("titlecaseletter", "Lt"), ("modifierletter", "Lm"), ("otherletter", "Lo"), ("mark", "M"),
    ("combiningmark", "M"), ("nonspacingmark", "Mn"), ("spacingmark", "Mc"), ("enclosingmark", "Me"),
    ("number", "N"), ("decimalnumber", "Nd"), ("digit", "Nd"), ("letternumber", "Nl"),
    ("othernumber", "No"), ("punctuation", "P"), ("punct", "P"), ("connectorpunctuation", "Pc"),
    ("dashpunctuation", "Pd"), ("openpunctuation", "Ps"), ("closepunctuation", "Pe"),
    ("initialpunctuation", "Pi"), ("finalpunctuation", "Pf"), ("otherpunctuation", "Po"),
    ("symbol", "S"), ("mathsymbol", "Sm"), ("currencysymbol", "Sc"), ("modifiersymbol", "Sk"),
    ("othersymbol", "So"), ("separator", "Z"), ("spaceseparator", "Zs"), ("lineseparator", "Zl"),
    ("paragraphseparator", "Zp"), ("other", "C"), ("control", "Cc"), ("cntrl", "Cc"),
    ("format", "Cf"), ("surrogate", "Cs"), ("privateuse", "Co"), ("unassigned", "Cn")]

/-- Short names of general categories. -/
def shortNames : List String :=
  ["L", "LC", "Lu", "Ll", "Lt", "Lm", "Lo", "M", "Mn", "Mc", "Me", "N", "Nd", "Nl", "No", "P", "Pc",
    "Pd", "Ps", "Pe", "Pi", "Pf", "Po", "S", "Sm", "Sc", "Sk", "So", "Z", "Zs", "Zl", "Zp", "C", "Cc",
    "Cf", "Cs", "Co", "Cn"]

/-- A property name as it is compared: in small letters, without blanks, low lines and hyphens. -/
def looseName (name : List Char) : List Char :=
  (name.filter fun c => !(isBlankChar c || c = '_' || c = '-')).map Char.toLower

/-- The set of a general category by its short name. -/
def ofShortName (name : String) : CharSet :=
  if name = "LC" then ofCategories ["Lu", "Ll", "Lt"] else .category name.toList

/-- The set of characters with a property. -/
def ofProperty? (name : List Char) : Option CharSet :=
  let loose := looseName name
  let text := String.ofList loose
  match shortNames.find? fun s => s.toList.map Char.toLower == loose with
  | some short => some (ofShortName short)
  | none =>
    match Fields.find? text categoryNames with
    | some short => some (ofShortName short)
    | none =>
      if text = "any" then some all
      else if text = "assigned" then some (.complement (.category ['C', 'n']))
      else if text = "ascii" then some (.range '\x00' '\x7f')
      else if text = "whitespace" ∨ text = "wspace" ∨ text = "space" then some .blank
      else none

/-- The set of an ASCII class by its name. -/
def ofAsciiClass? (name : String) : Option CharSet :=
  let classes : List (String × List (Char × Char)) :=
    [("alnum", [('0', '9'), ('A', 'Z'), ('a', 'z')]), ("alpha", [('A', 'Z'), ('a', 'z')]),
      ("ascii", [('\x00', '\x7f')]), ("blank", [('\t', '\t'), (' ', ' ')]),
      ("cntrl", [('\x00', '\x1f'), ('\x7f', '\x7f')]), ("digit", [('0', '9')]),
      ("graph", [('!', '~')]), ("lower", [('a', 'z')]), ("print", [(' ', '~')]),
      ("punct", [('!', '/'), (':', '@'), ('[', '`'), ('{', '~')]),
      ("space", [('\t', '\r'), (' ', ' ')]), ("upper", [('A', 'Z')]),
      ("word", [('0', '9'), ('A', 'Z'), ('_', '_'), ('a', 'z')]),
      ("xdigit", [('0', '9'), ('A', 'F'), ('a', 'f')])]
  (Fields.find? name classes).map ofRanges

end CharSet

end PageQuery
