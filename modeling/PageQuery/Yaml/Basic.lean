/-
# YAML documents

A node is a scalar, a sequence or a mapping. A scalar that is written plainly may stand for null, a
truth value or a number; one in quotes is a string.

Where a value of any kind may stand, a node is taken for the JSON value it denotes; where a value of
one kind must stand, a scalar is read as that kind, and a scalar left out is an empty list or record.

Key definitions: `YamlNode`, `Yaml.resolve?`, `YamlNode.toJson?`, `YamlNode.parts?`.
-/
import PageQuery.Json.Reader

namespace PageQuery

inductive YamlNode where
  | scalar (text : String) (plain : Bool)
  | sequence (items : List YamlNode)
  | mapping (entries : List (YamlNode × YamlNode))
  deriving Repr

namespace YamlNode

mutual

/-- How many collections the innermost scalar stands in. -/
def depth : YamlNode → Nat
  | .scalar _ _ => 0
  | .sequence items => depthOfItems items + 1
  | .mapping entries => depthOfEntries entries + 1

def depthOfItems : List YamlNode → Nat
  | [] => 0
  | node :: rest => max (depth node) (depthOfItems rest)

def depthOfEntries : List (YamlNode × YamlNode) → Nat
  | [] => 0
  | (key, node) :: rest => max (max (depth key) (depth node)) (depthOfEntries rest)

end

end YamlNode

namespace Yaml

/-- What was left out. -/
def missing : YamlNode := .scalar "" true

def isNull (text : String) : Bool := ["", "null", "Null", "NULL", "~"].contains text

def bool? (text : String) : Option Bool :=
  if ["true", "True", "TRUE"].contains text then some true
  else if ["false", "False", "FALSE"].contains text then some false
  else none

/-! ### Numbers -/

/-- The value of digits of a base; nothing if there are none or others. -/
def baseValue? (base : Nat) (cs : List Char) : Option Nat :=
  if cs.isEmpty then none
  else cs.foldl (fun n c =>
    match n, hexValue? c with
    | some n, some d => if d < base then some (n * base + d) else none
    | _, _ => none) (some 0)

/-- Several digits of which the first is zero are no number. -/
def hasLeadingZero (digits : List Char) : Bool :=
  match digits with
  | '0' :: c :: rest => (c :: rest).all isDigit
  | _ => false

/-- The size of a whole number without its sign: with the mark of a base, or in decimal digits. -/
def size? : List Char → Option Nat
  | '0' :: 'x' :: rest => baseValue? 16 rest
  | '0' :: 'o' :: rest => baseValue? 8 rest
  | '0' :: 'b' :: rest => baseValue? 2 rest
  | cs => if hasLeadingZero cs then none else baseValue? 10 cs

/-- A whole number. -/
def int? : List Char → Option Int
  | '+' :: rest => (size? rest).map Int.ofNat
  | '-' :: rest => (size? rest).map fun n => -(n : Int)
  | cs => (size? cs).map Int.ofNat

/-- Digits, perhaps with a point among them: their value and how many stand behind the point. -/
def mantissa? (cs : List Char) : Option (Nat × Nat) :=
  let whole := cs.takeWhile isDigit
  let fraction := match cs.dropWhile isDigit with
    | [] => some []
    | '.' :: rest => if rest.all isDigit then some rest else none
    | _ => none
  match fraction with
  | none => none
  | some fraction =>
    if whole.isEmpty && fraction.isEmpty then none
    else some (digitsValue 0 (whole ++ fraction), fraction.length)

/-- An exponent with or without a sign. -/
def exponent? : List Char → Option Int
  | '+' :: rest => (baseValue? 10 rest).map Int.ofNat
  | '-' :: rest => (baseValue? 10 rest).map fun n => -(n : Int)
  | cs => (baseValue? 10 cs).map Int.ofNat

/-- A decimal number without its sign; one beyond all doubles is none. -/
def decimal? (negative : Bool) (cs : List Char) : Option Double := do
  let isMark := fun c => c = 'e' || c = 'E'
  let (digits, places) ← mantissa? (cs.takeWhile (!isMark ·))
  let exponent ← match cs.dropWhile (!isMark ·) with
    | [] => some 0
    | _ :: rest => exponent? rest
  let d := Double.ofDecimal negative digits (exponent - places)
  if d.isFinite then return d else none

/-- A number with a point or an exponent, or one too large for a whole number. -/
def double? (cs : List Char) : Option Double :=
  let (negative, unsigned) := match cs with
    | '+' :: rest => (false, rest)
    | '-' :: rest => (true, rest)
    | cs => (false, cs)
  if hasLeadingZero unsigned then none else decimal? negative unsigned

/-- Texts for what is no finite number. -/
def isUnbounded (text : String) : Bool :=
  [".inf", ".Inf", ".INF", "+.inf", "+.Inf", "+.INF", "-.inf", "-.Inf", "-.INF", ".nan", ".NaN",
    ".NAN"].contains text

/-- The value that a plain scalar denotes. A whole number is refused that is beyond 64 bits and not
beyond 128. -/
def resolve? (text : String) : Option Json :=
  if isNull text || isUnbounded text then some .null
  else match bool? text with
    | some b => some (.bool b)
    | none =>
      match int? text.toList with
      | some n =>
        if Number.minInt ≤ n ∧ n ≤ Number.maxNat then some (.ofInt n)
        else if -Int.pow 2 127 ≤ n ∧ n < Int.pow 2 128 then none
        else (double? text.toList).map .ofDouble
      | none =>
        match double? text.toList with
        | some d => some (.ofDouble d)
        | none => some (.string text)

end Yaml

namespace YamlNode

mutual

/-- The JSON value that a node denotes; keys must be strings. -/
def toJson? : YamlNode → Option Json
  | .scalar text plain => if plain then Yaml.resolve? text else some (.string text)
  | .sequence items => (itemsToJson? items).map .array
  | .mapping entries => (entriesToJson? entries).map .object

def itemsToJson? : List YamlNode → Option (List Json)
  | [] => some []
  | node :: rest =>
    match toJson? node, itemsToJson? rest with
    | some v, some vs => some (v :: vs)
    | _, _ => none

def entriesToJson? : List (YamlNode × YamlNode) → Option (List (String × Json))
  | [] => some []
  | (key, node) :: rest =>
    match toJson? key, toJson? node, entriesToJson? rest with
    | some (.string k), some v, some fields => some ((k, v) :: fields)
    | _, _, _ => none

end

/-! ### Nodes of one kind -/

/-- Any scalar as it is written. -/
def string? : YamlNode → Option String
  | .scalar text _ => some text
  | _ => none

def bool? : YamlNode → Option Bool
  | .scalar text true => Yaml.bool? text
  | _ => none

def int? : YamlNode → Option Int
  | .scalar text true => Yaml.int? text.toList
  | _ => none

def int64? (node : YamlNode) : Option Int := node.int?.bind fun n => (Number.int n).int64?

def nat64? (node : YamlNode) : Option Nat := node.int?.bind fun n => (Number.int n).nat64?

/-- The items of a sequence; a scalar left out has none. -/
def items? : YamlNode → Option (List YamlNode)
  | .sequence items => some items
  | .scalar "" true => some []
  | _ => none

/-- The entries of a mapping whose keys are scalars; a scalar left out has none. -/
def fields? : YamlNode → Option (List (String × YamlNode))
  | .mapping entries =>
    entries.mapM fun (entry : YamlNode × YamlNode) => entry.1.string?.map fun key => (key, entry.2)
  | .scalar "" true => some []
  | _ => none

/-- The parts of a record, in the order of their names. None may stand twice; others are passed
over. -/
def parts? (names : List String) (node : YamlNode) : Option (List (Option YamlNode)) :=
  match node.fields? with
  | none => none
  | some fields =>
    if names.any (fun name => decide (1 < Fields.count name fields)) then none
    else some (names.map fun name => Fields.find? name fields)

/-- A part that stands for `value` when it is not written. -/
def withDefault {α : Type} (value : α) (read : YamlNode → Option α) : Option YamlNode → Option α
  | none => some value
  | some node => read node

/-- A part that may be left out or be null. -/
def optional {α : Type} (read : YamlNode → Option α) : Option YamlNode → Option (Option α)
  | none => some none
  | some (.scalar text true) =>
    if Yaml.isNull text then some none else (read (.scalar text true)).map some
  | some node => (read node).map some

end YamlNode

end PageQuery
