/-
# Reading YAML

Blocks are told by indentation, flow collections by brackets. Scalars are plain, in single quotes or
in double quotes; where a scalar goes on over lines, a line end is a blank and empty lines are line
feeds. A tab indents no block. Anchors, tags, directives, block scalars and keys that are no scalars
of one line are not covered: a text with them is refused.

A position is what is left of the text with the column and the line it begins at.

Key definitions: `YamlCursor`, `Yaml.parse?`.
-/
import PageQuery.Yaml.Basic

namespace PageQuery

/-- A position in a text. -/
structure YamlCursor where
  rest : List Char
  column : Nat
  line : Nat

namespace YamlCursor

/-- The position after one character. -/
def next (p : YamlCursor) : YamlCursor :=
  match p.rest with
  | [] => p
  | '\n' :: rest => ⟨rest, 0, p.line + 1⟩
  | _ :: rest => ⟨rest, p.column + 1, p.line⟩

/-- The position after so many characters. -/
def skip : Nat → YamlCursor → YamlCursor
  | 0, p => p
  | n + 1, p => skip n p.next

def head? (p : YamlCursor) : Option Char := p.rest.head?

def isInlineBlank (c : Char) : Bool := c = ' ' || c = '\t'

/-- Whether nothing but the end of the line is here. -/
def atLineEnd (p : YamlCursor) : Bool := p.rest.isEmpty || p.head? == some '\n'

/-- Whether a blank or the end of the line is at some distance. -/
def blankAt (p : YamlCursor) (distance : Nat) : Bool :=
  match p.rest.drop distance with
  | [] => true
  | c :: _ => isInlineBlank c || c = '\n'

/-- The position behind blanks of the line. -/
def skipInline (p : YamlCursor) : YamlCursor :=
  p.skip (p.rest.takeWhile isInlineBlank).length

/-- The position at the end of the line, if there is nothing more than a comment before it. -/
def lineEnd? (p : YamlCursor) : Option YamlCursor :=
  let p := p.skipInline
  if p.head? == some '#' then some (p.skip (p.rest.takeWhile (· ≠ '\n')).length)
  else if p.atLineEnd then some p
  else none

/-- The position of the next content, lines without any being passed over. -/
def skipLines : Nat → YamlCursor → YamlCursor
  | 0, p => p
  | fuel + 1, p =>
    match p.lineEnd? with
    | none => p.skipInline
    | some e => if e.rest.isEmpty then e else skipLines fuel e.next

/-- The position of the next content inside brackets. -/
def toContent (p : YamlCursor) : YamlCursor := p.skipLines (p.rest.length + 1)

def skipSpaces (p : YamlCursor) : YamlCursor := p.skip (p.rest.takeWhile (· = ' ')).length

/-- The position of the next content of a block, from the start of a line. -/
def skipBlockLines : Nat → YamlCursor → YamlCursor
  | 0, p => p
  | fuel + 1, p =>
    let q := p.skipSpaces
    if q.head? == some '\t' then q
    else match q.lineEnd? with
      | none => q
      | some e => if e.rest.isEmpty then e else skipBlockLines fuel e.next

/-- The position of the next content of a block, behind what ends its line. -/
def toBlockContent (p : YamlCursor) : YamlCursor :=
  match p.lineEnd? with
  | none => p.skipInline
  | some e => if e.rest.isEmpty then e else e.next.skipBlockLines (e.rest.length + 1)

def atEnd (p : YamlCursor) : Bool := p.rest.isEmpty

/-- Whether a line of three marks that sets off a document begins here. -/
def atMark (mark : Char) (p : YamlCursor) : Bool :=
  p.column == 0 && p.rest.take 3 == [mark, mark, mark] && p.blankAt 3

def atDocumentMark (p : YamlCursor) : Bool := p.atMark '-' || p.atMark '.'

/-- Whether an item of a block sequence begins here. -/
def atItem (p : YamlCursor) : Bool := p.head? == some '-' && p.blankAt 1 && !p.atDocumentMark

end YamlCursor

namespace Yaml

open YamlCursor

/-- A part of a text read, and the position behind it. -/
abbrev Reading (α : Type) := Option (α × YamlCursor)

/-! ### Scalars -/

def isFlowMark (c : Char) : Bool :=
  c = ',' || c = '[' || c = ']' || c = '\x7b' || c = '\x7d'

/-- Characters that begin no plain scalar. -/
def isIndicator (c : Char) : Bool :=
  isFlowMark c || ['#', '&', '*', '!', '|', '>', '\'', '"', '%', '@', '\x60'].contains c

/-- Whether a plain scalar begins here. -/
def beginsPlain (flow : Bool) (p : YamlCursor) : Bool :=
  match p.rest with
  | [] => false
  | c :: _ =>
    if isInlineBlank c || c = '\n' then false
    else if c = '-' then !p.blankAt 1
    else if c = '?' || c = ':' then !flow && !p.blankAt 1
    else !isIndicator c

/-- Whether a plain scalar ends before the character here. -/
def endsPlain (flow : Bool) (p : YamlCursor) : Bool :=
  match p.rest with
  | [] => true
  | c :: _ => (c = ':' && p.blankAt 1) || (flow && isFlowMark c)

/-- What a break of so many lines stands for in a scalar. -/
def folded (lines : Nat) : List Char :=
  if lines ≤ 1 then [' '] else List.replicate (lines - 1) '\n'

/-- The rest of a plain scalar. Lines that go on must be indented to a column; without one the scalar
ends with the line. `gap` holds what stood between the last character and here, and `last` is the
position behind that character. -/
def plainRest (flow : Bool) (column? : Option Nat) : Nat → List Char → YamlCursor → YamlCursor →
    List Char × YamlCursor
  | 0, _, last, _ => ([], last)
  | fuel + 1, gap, last, p =>
    match p.rest with
    | [] => ([], last)
    | c :: _ =>
      if isInlineBlank c then plainRest flow column? fuel (gap ++ [c]) last p.next
      else if c = '\n' then
        let q := (p.next.skip ((p.next.rest.takeWhile fun d => isInlineBlank d || d = '\n').length))
        let goesOn := match column? with
          | none => false
          | some column => flow || decide (column ≤ q.column)
        if !goesOn || q.atEnd || q.head? == some '#' || q.atDocumentMark then ([], last)
        else plainRest flow column? fuel (folded (q.line - p.line)) last q
      else if (c = '#' && !gap.isEmpty) || endsPlain flow p then ([], last)
      else
        let (more, last) := plainRest flow column? fuel [] p.next p.next
        (gap ++ c :: more, last)

/-- Whether a colon stands right before a mark of a flow collection, or before a question mark. -/
def hasLooseColon : List Char → Bool
  | ':' :: c :: rest => isFlowMark c || c = '?' || hasLooseColon (c :: rest)
  | _ :: rest => hasLooseColon rest
  | [] => false

/-- A plain scalar. Inside brackets no colon may stand right before a mark. -/
def plainAt (flow : Bool) (column? : Option Nat) (p : YamlCursor) : Reading String :=
  if beginsPlain flow p then
    let (text, last) := plainRest flow column? (2 * p.rest.length + 2) [] p p
    if flow && hasLooseColon (text ++ last.rest.take 1) then none
    else some (String.ofList text, last)
  else none

/-- The rest of a scalar in single quotes, in which a quote is written twice. -/
def singleRest : Nat → YamlCursor → Reading (List Char)
  | 0, _ => none
  | fuel + 1, p =>
    match p.rest with
    | [] => none
    | '\'' :: '\'' :: _ => (singleRest fuel (p.skip 2)).map fun (more, q) => ('\'' :: more, q)
    | '\'' :: _ => some ([], p.next)
    | c :: _ =>
      let blanks := p.rest.takeWhile fun d => isInlineBlank d || d = '\n'
      if blanks.isEmpty then (singleRest fuel p.next).map fun (more, q) => (c :: more, q)
      else
        let q := p.skip blanks.length
        let between := if q.line = p.line then blanks else folded (q.line - p.line)
        if q.atDocumentMark then none
        else (singleRest fuel q).map fun (more, q) => (between ++ more, q)

/-- What a letter stands for behind a backslash. -/
def escapes : List (Char × Nat) :=
  [('0', 0x0), ('a', 0x7), ('b', 0x8), ('t', 0x9), ('\t', 0x9), ('n', 0xA), ('v', 0xB), ('f', 0xC),
    ('r', 0xD), ('e', 0x1B), (' ', 0x20), ('"', 0x22), ('/', 0x2F), ('\\', 0x5C), ('N', 0x85),
    ('_', 0xA0), ('L', 0x2028), ('P', 0x2029)]

/-- How many digits follow a letter behind a backslash. -/
def escapeDigits? (c : Char) : Option Nat :=
  if c = 'x' then some 2 else if c = 'u' then some 4 else if c = 'U' then some 8 else none

/-- The character that an escape stands for, from behind the backslash. -/
def escapeAt (p : YamlCursor) : Reading Char :=
  match p.rest with
  | [] => none
  | c :: rest =>
    match escapeDigits? c with
    | some count =>
      match baseValue? 16 (rest.take count) with
      | none => none
      | some code =>
        if rest.length < count || (0xD800 ≤ code && code ≤ 0xDFFF) || 0x10FFFF < code then none
        else some (Char.ofNat code, p.skip (count + 1))
    | none => (escapes.find? fun e => e.1 == c).map fun e => (Char.ofNat e.2, p.next)

/-- The rest of a scalar in double quotes. -/
def doubleRest : Nat → YamlCursor → Reading (List Char)
  | 0, _ => none
  | fuel + 1, p =>
    match p.rest with
    | [] => none
    | '"' :: _ => some ([], p.next)
    | '\\' :: '\n' :: rest =>
      let blanks := rest.takeWhile fun d => isInlineBlank d || d = '\n'
      (doubleRest fuel (p.skip (blanks.length + 2))).map fun (more, q) =>
        (blanks.filter (· = '\n') ++ more, q)
    | '\\' :: _ =>
      match escapeAt p.next with
      | none => none
      | some (c, q) => (doubleRest fuel q).map fun (more, q) => (c :: more, q)
    | c :: _ =>
      let blanks := p.rest.takeWhile fun d => isInlineBlank d || d = '\n'
      if blanks.isEmpty then (doubleRest fuel p.next).map fun (more, q) => (c :: more, q)
      else
        let q := p.skip blanks.length
        let between := if q.line = p.line then blanks else folded (q.line - p.line)
        if q.atDocumentMark then none
        else (doubleRest fuel q).map fun (more, q) => (between ++ more, q)

/-- A scalar in quotes. -/
def quotedAt (p : YamlCursor) : Reading String :=
  let text := fun (r : Reading (List Char)) => r.map fun (cs, q) => (String.ofList cs, q)
  match p.head? with
  | some '\'' => text (singleRest (p.rest.length + 1) p.next)
  | some '"' => text (doubleRest (p.rest.length + 1) p.next)
  | _ => none

/-- A scalar. -/
def scalarAt (flow : Bool) (column? : Option Nat) (p : YamlCursor) : Reading YamlNode :=
  match p.head? with
  | some '\'' | some '"' => (quotedAt p).map fun (text, q) => (.scalar text false, q)
  | _ => (plainAt flow column? p).map fun (text, q) => (.scalar text true, q)

/-! ### Flow collections -/

/-- The position behind a mark, if it is here. -/
def markAt (mark : Char) (p : YamlCursor) : Option YamlCursor :=
  if p.head? == some mark then some p.next.toContent else none

mutual

/-- A node inside brackets; one may be left out. -/
def flowNode : Nat → YamlCursor → Reading YamlNode
  | 0, _ => none
  | fuel + 1, p =>
    match p.head? with
    | some '[' => (flowItems fuel p.next.toContent).map fun (items, q) => (.sequence items, q)
    | some '\x7b' => (flowEntries fuel p.next.toContent).map fun (es, q) => (.mapping es, q)
    | some c =>
      if c = ',' || c = ':' || c = ']' || c = '\x7d' then some (missing, p)
      else scalarAt true (some 0) p
    | none => none

/-- The items of a sequence up to its end. -/
def flowItems : Nat → YamlCursor → Reading (List YamlNode)
  | 0, _ => none
  | fuel + 1, p =>
    if p.head? == some ']' then some ([], p.next)
    else if p.head? == some ',' then none
    else match flowNode fuel p with
      | none => none
      | some (key, q) =>
        let q := q.toContent
        let item := match markAt ':' q with
          | none => some (key, q)
          | some v => (flowNode fuel v).map fun (node, q) =>
            (.mapping [(key, node)], YamlCursor.toContent q)
        match item with
        | none => none
        | some (node, q) =>
          if q.head? == some ']' then some ([node], q.next)
          else match markAt ',' q with
            | none => none
            | some q => (flowItems fuel q).map fun (more, q) => (node :: more, q)

/-- The entries of a mapping up to its end. -/
def flowEntries : Nat → YamlCursor → Reading (List (YamlNode × YamlNode))
  | 0, _ => none
  | fuel + 1, p =>
    if p.head? == some '\x7d' then some ([], p.next)
    else if p.head? == some ',' then none
    else match flowNode fuel p with
      | none => none
      | some (key, q) =>
        let q := q.toContent
        let value := match markAt ':' q with
          | none => some (missing, q)
          | some v => (flowNode fuel v).map fun (node, q) => (node, YamlCursor.toContent q)
        match value with
        | none => none
        | some (node, q) =>
          if q.head? == some '\x7d' then some ([(key, node)], q.next)
          else match markAt ',' q with
            | none => none
            | some q => (flowEntries fuel q).map fun (more, q) => ((key, node) :: more, q)

end

/-! ### Blocks -/

/-- A key of a block mapping with its colon: a scalar of one line. -/
def keyAt (p : YamlCursor) : Reading YamlNode :=
  match scalarAt false none p with
  | none => none
  | some (key, q) =>
    let q := q.skipInline
    if q.line = p.line && q.head? == some ':' && q.blankAt 1 then some (key, q.next) else none

/-- A scalar or a flow collection that ends its line. Lines that go on are indented to the column. -/
def lineNode (fuel column : Nat) (p : YamlCursor) : Reading YamlNode :=
  let found := match p.head? with
    | some '[' | some '\x7b' => flowNode fuel p
    | _ => scalarAt false (some column) p
  match found with
  | none => none
  | some (node, q) => q.lineEnd?.map fun q => (node, q)

mutual

/-- A node that begins at the position; what belongs to it is indented to the column. -/
def blockNode : Nat → Nat → YamlCursor → Reading YamlNode
  | 0, _, _ => none
  | fuel + 1, column, p =>
    if p.atItem then (blockItems fuel p.column p).map fun (items, q) => (.sequence items, q)
    else match keyAt p with
      | some _ => (blockEntries fuel p.column p).map fun (es, q) => (.mapping es, q)
      | none => lineNode fuel column p

/-- The items of a sequence at a column. -/
def blockItems : Nat → Nat → YamlCursor → Reading (List YamlNode)
  | 0, _, _ => none
  | fuel + 1, column, p =>
    let start := p.next
    let item := match start.lineEnd? with
      | none => blockNode fuel (column + 1) start.skipSpaces
      | some _ =>
        let q := start.toBlockContent
        if q.atEnd || q.column ≤ column || q.atDocumentMark then some (missing, start)
        else blockNode fuel (column + 1) q
    match item with
    | none => none
    | some (node, q) =>
      let q := q.toBlockContent
      if q.column = column && q.atItem then
        (blockItems fuel column q).map fun (more, q) => (node :: more, q)
      else if !q.atEnd && column < q.column then none
      else some ([node], q)

/-- The entries of a mapping at a column. -/
def blockEntries : Nat → Nat → YamlCursor → Reading (List (YamlNode × YamlNode))
  | 0, _, _ => none
  | fuel + 1, column, p =>
    match keyAt p with
    | none => none
    | some (key, start) =>
      let value := match start.lineEnd? with
        | none => lineNode fuel (column + 1) start.skipInline
        | some _ =>
          let q := start.toBlockContent
          if q.atEnd || q.atDocumentMark then some (missing, start)
          else if column < q.column then blockNode fuel (column + 1) q
          else if q.column = column && q.atItem then
            (blockItems fuel column q).map fun (items, q) => (.sequence items, q)
          else some (missing, start)
      match value with
      | none => none
      | some (node, q) =>
        let q := q.toBlockContent
        if q.atEnd || q.column < column || q.atDocumentMark then some ([(key, node)], q)
        else if q.column = column then
          (blockEntries fuel column q).map fun (more, q) => ((key, node) :: more, q)
        else none

end

/-! ### Documents -/

/-- Whether a text may hold the character. -/
def isAllowed (c : Char) : Bool :=
  c = '\t' || c = '\n' || c = '\r' || (' ' ≤ c && c ≤ '~') || c = '\u0085' ||
    ('\u00a0' ≤ c && c ≤ '\ufffd') || '\uffff' < c

/-- Each line end as a line feed. -/
def withLineFeeds : List Char → List Char
  | [] => []
  | '\r' :: '\n' :: rest => '\n' :: withLineFeeds rest
  | c :: rest => (if c = '\r' || c = '\u0085' then '\n' else c) :: withLineFeeds rest

/-- The text without a mark of the byte order. -/
def withoutMark : List Char → List Char
  | '\ufeff' :: rest => rest
  | cs => cs

/-- How deep collections may stand in each other. -/
def depthLimit : Nat := 128

/-- The only document of a text. One without content is a scalar left out. -/
def document? (cs : List Char) : Option YamlNode :=
  let fuel := 4 * cs.length + 8
  let p := YamlCursor.toBlockContent ⟨cs, 0, 0⟩
  let p := if p.atMark '-' then (p.skip 3).toBlockContent else p
  if p.atEnd || p.atMark '.' then some missing
  else match blockNode fuel 0 p with
    | none => none
    | some (node, q) =>
      let q := q.toBlockContent
      let q := if q.atMark '.' then (q.skip 3).toBlockContent else q
      if q.atEnd then some node else none

/-- The only document of a text. -/
def parse? (text : String) : Option YamlNode :=
  let cs := withoutMark text.toList
  if cs.all isAllowed then (document? (withLineFeeds cs)).filter (·.depth ≤ depthLimit) else none

end Yaml

end PageQuery
