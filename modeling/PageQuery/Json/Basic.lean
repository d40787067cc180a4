/-
# JSON values

A value is null, a truth value, a number, a string, an array or an object. A number is kept as a
whole number when it was written as one in 64-bit range, and as a double otherwise. An object is its
list of fields: as read, the fields stand in written order and a key may repeat; in canonical form
they ascend by key and each key stands once, the last one written having won. Strings are ordered by
code points, which is the byte order of their UTF-8.

Key definitions: `Json`, `Fields.put`, `Json.canonical`, `Json.IsCanonical`, `Json.field?`.
-/
import PageQuery.Number.Double

namespace PageQuery

/-- A JSON number. -/
inductive Number where
  | int (value : Int)
  | double (value : Double)
  deriving DecidableEq, Repr, Inhabited

namespace Number

/-- The least whole number kept as one. -/
def minInt : Int := -Int.pow 2 63

/-- The greatest whole number of signed 64-bit range. -/
def maxInt : Int := Int.pow 2 63 - 1

/-- The greatest whole number kept as one. -/
def maxNat : Int := Int.pow 2 64 - 1

/-- The number as a double; a whole number beyond 2^53 may be rounded. -/
def toDouble : Number → Double
  | .int n => Double.ofInt n
  | .double d => d

/-- A whole number of signed 64-bit range, written as a whole number. -/
def int64? : Number → Option Int
  | .int n => if minInt ≤ n ∧ n ≤ maxInt then some n else none
  | .double _ => none

/-- A natural number of unsigned 64-bit range, written as a whole number. -/
def nat64? : Number → Option Nat
  | .int n => if 0 ≤ n ∧ n ≤ maxNat then some n.toNat else none
  | .double _ => none

end Number

/-- A JSON value. -/
inductive Json where
  | null
  | bool (value : Bool)
  | number (value : Number)
  | string (value : String)
  | array (items : List Json)
  | object (fields : List (String × Json))
  deriving Repr, Inhabited

/-! ### Fields by key -/

namespace Fields

/-- The value of the first field with the key. -/
def find? {α : Type} (key : String) : List (String × α) → Option α
  | [] => none
  | (k, v) :: rest => if k = key then some v else find? key rest

/-- Sets a field of an ascending list, in its place; an equal key gives way. -/
def put {α : Type} (key : String) (value : α) : List (String × α) → List (String × α)
  | [] => [(key, value)]
  | (k, v) :: rest =>
    if key < k then (key, value) :: (k, v) :: rest
    else if key = k then (key, value) :: rest
    else (k, v) :: put key value rest

/-- Sets the fields of `overlay` one after another, so that of equal keys the last wins. -/
def putAll {α : Type} (base overlay : List (String × α)) : List (String × α) :=
  overlay.foldl (fun fields field => put field.1 field.2 fields) base

/-- The fields in ascending order of keys, the last of equal keys kept. -/
def ofList {α : Type} (fields : List (String × α)) : List (String × α) := putAll [] fields

/-- Keys ascend, so that none repeats. -/
def Ascending {α : Type} : List (String × α) → Prop
  | [] => True
  | [_] => True
  | (k, _) :: (l, v) :: rest => k < l ∧ Ascending ((l, v) :: rest)

/-- How many fields have the key. -/
def count {α : Type} (key : String) (fields : List (String × α)) : Nat :=
  fields.countP (fun field => field.1 == key)

end Fields

namespace Json

/-- An object with the given fields, in canonical order. -/
def ofFields (fields : List (String × Json)) : Json := .object (Fields.ofList fields)

/-- A whole number. -/
def ofInt (n : Int) : Json := .number (.int n)

/-- A natural number. -/
def ofNat (n : Nat) : Json := .number (.int n)

/-- A double. -/
def ofDouble (d : Double) : Json := .number (.double d)

/-- A value or, for an absent one, null. -/
def ofOption {α : Type} (encode : α → Json) : Option α → Json
  | none => .null
  | some a => encode a

/-- The value of an object's field; nothing for a value of another kind. -/
def field? (key : String) : Json → Option Json
  | .object fields => Fields.find? key fields
  | _ => none

def string? : Json → Option String
  | .string s => some s
  | _ => none

def bool? : Json → Option Bool
  | .bool b => some b
  | _ => none

def array? : Json → Option (List Json)
  | .array items => some items
  | _ => none

def object? : Json → Option (List (String × Json))
  | .object fields => some fields
  | _ => none

def int64? : Json → Option Int
  | .number n => n.int64?
  | _ => none

def nat64? : Json → Option Nat
  | .number n => n.nat64?
  | _ => none

/-- Any number, as a double. -/
def double? : Json → Option Double
  | .number n => some n.toDouble
  | _ => none

/-! ### Canonical form -/

mutual

/-- The same value with the fields of every object in canonical order. -/
def canonical : Json → Json
  | .array items => .array (canonicalItems items)
  | .object fields => .object (Fields.ofList (canonicalFields fields))
  | v => v

def canonicalItems : List Json → List Json
  | [] => []
  | v :: rest => canonical v :: canonicalItems rest

def canonicalFields : List (String × Json) → List (String × Json)
  | [] => []
  | (k, v) :: rest => (k, canonical v) :: canonicalFields rest

end

mutual

/-- The fields of every object ascend by key. -/
def IsCanonical : Json → Prop
  | .array items => AllCanonical items
  | .object fields => Fields.Ascending fields ∧ FieldsCanonical fields
  | _ => True

def AllCanonical : List Json → Prop
  | [] => True
  | v :: rest => IsCanonical v ∧ AllCanonical rest

def FieldsCanonical : List (String × Json) → Prop
  | [] => True
  | (_, v) :: rest => IsCanonical v ∧ FieldsCanonical rest

end

@[simp] theorem canonicalItems_eq_map (items : List Json) : canonicalItems items = items.map canonical := by
  induction items with
  | nil => rfl
  | cons v rest ih => simp [canonicalItems, ih]

@[simp] theorem canonicalFields_eq_map (fields : List (String × Json)) :
    canonicalFields fields = fields.map fun field => (field.1, canonical field.2) := by
  induction fields with
  | nil => rfl
  | cons field rest ih => obtain ⟨k, v⟩ := field; simp [canonicalFields, ih]

/-! ### Equality is decidable -/

mutual

def decideEq : (a b : Json) → Decidable (a = b)
  | .null, .null => isTrue rfl
  | .bool p, .bool q => if h : p = q then isTrue (h ▸ rfl) else isFalse (fun e => h (Json.bool.inj e))
  | .number m, .number n =>
    if h : m = n then isTrue (h ▸ rfl) else isFalse (fun e => h (Json.number.inj e))
  | .string s, .string t =>
    if h : s = t then isTrue (h ▸ rfl) else isFalse (fun e => h (Json.string.inj e))
  | .array xs, .array ys =>
    match decideEqItems xs ys with
    | isTrue h => isTrue (h ▸ rfl)
    | isFalse h => isFalse (fun e => h (Json.array.inj e))
  | .object xs, .object ys =>
    match decideEqFields xs ys with
    | isTrue h => isTrue (h ▸ rfl)
    | isFalse h => isFalse (fun e => h (Json.object.inj e))
  | .null, .bool _ | .null, .number _ | .null, .string _ | .null, .array _ | .null, .object _
  | .bool _, .null | .bool _, .number _ | .bool _, .string _ | .bool _, .array _ | .bool _, .object _
  | .number _, .null | .number _, .bool _ | .number _, .string _ | .number _, .array _
  | .number _, .object _ | .string _, .null | .string _, .bool _ | .string _, .number _
  | .string _, .array _ | .string _, .object _ | .array _, .null | .array _, .bool _
  | .array _, .number _ | .array _, .string _ | .array _, .object _ | .object _, .null
  | .object _, .bool _ | .object _, .number _ | .object _, .string _ | .object _, .array _ =>
    isFalse (fun e => nomatch e)

def decideEqItems : (xs ys : List Json) → Decidable (xs = ys)
  | [], [] => isTrue rfl
  | [], _ :: _ => isFalse (fun e => nomatch e)
  | _ :: _, [] => isFalse (fun e => nomatch e)
  | x :: xs, y :: ys =>
    match decideEq x y with
    | isFalse h => isFalse (fun e => h (List.cons.inj e).1)
    | isTrue h =>
      match decideEqItems xs ys with
      | isTrue t => isTrue (h ▸ t ▸ rfl)
      | isFalse t => isFalse (fun e => t (List.cons.inj e).2)

def decideEqFields : (xs ys : List (String × Json)) → Decidable (xs = ys)
  | [], [] => isTrue rfl
  | [], _ :: _ => isFalse (fun e => nomatch e)
  | _ :: _, [] => isFalse (fun e => nomatch e)
  | (k, x) :: xs, (l, y) :: ys =>
    if hk : k = l then
      match decideEq x y with
      | isFalse h => isFalse (fun e => h (Prod.mk.inj (List.cons.inj e).1).2)
      | isTrue h =>
        match decideEqFields xs ys with
        | isTrue t => isTrue (hk ▸ h ▸ t ▸ rfl)
        | isFalse t => isFalse (fun e => t (List.cons.inj e).2)
    else isFalse (fun e => hk (Prod.mk.inj (List.cons.inj e).1).1)

end

instance : DecidableEq Json := decideEq

end Json

end PageQuery
