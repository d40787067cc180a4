/-
# Binary64 numbers in exact arithmetic

A finite double is a sign, a mantissa and an exponent. Its value is a whole number of units, one unit
being 2^-1074, the smallest positive double; so two doubles are compared, added, multiplied and
divided as whole numbers or fractions, and a result is rounded once, to the nearest double, a tie
going to the even mantissa. Nothing here depends on the machine's own floating point.

Key definitions: `Double`, `Double.units`, `Double.nearest`, `Double.ofInt`, `Double.ofDecimal`.
-/

namespace PageQuery

/-- A double: `finite` stands for ± mantissa · 2^(exponent - 1074). -/
inductive Double where
  | finite (negative : Bool) (mantissa exponent : Nat)
  | infinite (negative : Bool)
  | nan
  deriving DecidableEq, Repr, Inhabited

namespace Double

/-- Units of 2^-1074 in the number one. -/
def unitsInOne : Nat := Nat.pow 2 1074

/-- The largest exponent of a finite double. -/
def maxExponent : Nat := 2045

def zero : Double := .finite false 0 0

def isFinite : Double → Bool
  | .finite .. => true
  | _ => false

/-- The value of a finite double in units of 2^-1074; an infinity lies beyond every finite double. -/
def units : Double → Int
  | .finite negative m e =>
    if negative then -((m * Nat.pow 2 e : Nat) : Int) else ((m * Nat.pow 2 e : Nat) : Int)
  | .infinite negative =>
    if negative then -((Nat.pow 2 2099 : Nat) : Int) else ((Nat.pow 2 2099 : Nat) : Int)
  | .nan => 0

/-- The whole number nearest to `num / den`; a tie goes to the even one. -/
def roundHalfEven (num den : Nat) : Nat :=
  let quotient := num / den
  let twice := 2 * (num % den)
  if twice < den ∨ (twice = den ∧ quotient % 2 = 0) then quotient else quotient + 1

/-- The double nearest to `num / den` units, with the given sign. -/
def nearest (negative : Bool) (num den : Nat) : Double :=
  let e := Nat.log2 (num / den) - 52
  let m := roundHalfEven num (den * Nat.pow 2 e)
  if m = Nat.pow 2 53 then
    if e + 1 ≤ maxExponent then .finite negative (Nat.pow 2 52) (e + 1) else .infinite negative
  else if e ≤ maxExponent then .finite negative m e
  else .infinite negative

/-- The double nearest to a whole number. -/
def ofInt (n : Int) : Double :=
  nearest (decide (n < 0)) (n.natAbs * unitsInOne) 1

/-- How many decimal digits `n` has. -/
def decimalLength (n : Nat) : Nat := (Nat.toDigits 10 n).length

/-- The double nearest to `digits · 10^exponent`. A power of ten out of every double's reach is not
computed: the answer is an infinity or a zero. -/
def ofDecimal (negative : Bool) (digits : Nat) (exponent : Int) : Double :=
  if digits = 0 then .finite negative 0 0
  else if (decimalLength digits : Int) + exponent > 310 then .infinite negative
  else if (decimalLength digits : Int) + exponent < -330 then .finite negative 0 0
  else if 0 ≤ exponent then nearest negative (digits * Nat.pow 10 exponent.toNat * unitsInOne) 1
  else nearest negative (digits * unitsInOne) (Nat.pow 10 (-exponent).toNat)

def neg : Double → Double
  | .finite negative m e => .finite (!negative) m e
  | .infinite negative => .infinite (!negative)
  | .nan => .nan

/-- Equality of values: the two zeros are equal and a NaN equals nothing. -/
def sameValue : Double → Double → Bool
  | .nan, _ => false
  | _, .nan => false
  | a, b => a.units == b.units

/-- Order of values; a NaN is below nothing and above nothing. -/
def below : Double → Double → Bool
  | .nan, _ => false
  | _, .nan => false
  | a, b => decide (a.units < b.units)

/-- The lesser of two numbers: the first unless the second is below it. A NaN is passed over. -/
def lesser (a b : Double) : Double :=
  if a = .nan then b else if b.below a then b else a

/-- The greater of two numbers: the first unless it is below the second. A NaN is passed over. -/
def greater (a b : Double) : Double :=
  if a = .nan then b else if a.below b then b else a

def add : Double → Double → Double
  | .nan, _ => .nan
  | _, .nan => .nan
  | .infinite p, .infinite q => if p = q then .infinite p else .nan
  | .infinite p, .finite .. => .infinite p
  | .finite .., .infinite q => .infinite q
  | .finite p m e, .finite q n f =>
    let total := (Double.finite p m e).units + (Double.finite q n f).units
    if total = 0 then .finite (p && q) 0 0
    else nearest (decide (total < 0)) total.natAbs 1

def sub (a b : Double) : Double := a.add b.neg

def mul : Double → Double → Double
  | .nan, _ => .nan
  | _, .nan => .nan
  | .finite p m e, .finite q n f => nearest (p != q) (m * Nat.pow 2 e * (n * Nat.pow 2 f)) unitsInOne
  | .finite p m _, .infinite q => if m = 0 then .nan else .infinite (p != q)
  | .infinite p, .finite q n _ => if n = 0 then .nan else .infinite (p != q)
  | .infinite p, .infinite q => .infinite (p != q)

def div : Double → Double → Double
  | .nan, _ => .nan
  | _, .nan => .nan
  | .finite p m e, .finite q n f =>
    if n = 0 then if m = 0 then .nan else .infinite (p != q)
    else nearest (p != q) (m * Nat.pow 2 e * unitsInOne) (n * Nat.pow 2 f)
  | .finite p _ _, .infinite q => .finite (p != q) 0 0
  | .infinite p, .finite q _ _ => .infinite (p != q)
  | .infinite _, .infinite _ => .nan

end Double

end PageQuery
