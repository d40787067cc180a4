/-
# The fewest digits that read back

The decimal text of a double is the shortest one in the interval of reals that round to it, and of
the shortest ones the nearest. For 1, 2, … 17 digits the two neighbours of the value on that decimal
grid are tested in whole-number arithmetic; the first grid with a hit wins.

Key definitions: `Double.shortest`.
-/
import PageQuery.Number.Double

namespace PageQuery

/-- A decimal `coefficient · 10^exponent` whose coefficient does not end in zero. -/
structure Decimal where
  coefficient : Nat
  exponent : Int
  deriving DecidableEq, Repr

namespace Decimal

/-- The digits of the coefficient. -/
def digits (d : Decimal) : List Char := Nat.toDigits 10 d.coefficient

/-- The power of ten of the leading digit. -/
def leading (d : Decimal) : Int := d.exponent + d.digits.length - 1

/-- Drops zeros from the end of the coefficient, at most `fuel` of them. -/
def trimmed : Nat → Nat → Int → Decimal
  | 0, c, k => ⟨c, k⟩
  | fuel + 1, c, k => if c % 10 = 0 then trimmed fuel (c / 10) (k + 1) else ⟨c, k⟩

end Decimal

namespace Double

/-- The power of ten of the leading digit of `units` units, for `units ≥ 1`. -/
def leadingPower (units : Nat) : Int :=
  (decimalLength (units * Nat.pow 10 324 / unitsInOne) : Int) - 325

/-- The neighbour of mantissa · 2^exponent units on the grid of multiples of 10^`k` that rounds to
that double, the nearer one if both do. Four units make one step of comparison, since the interval's
lower end can lie a quarter of a mantissa step away. -/
def onGrid (mantissa exponent : Nat) (k : Int) : Option Nat :=
  let up := Nat.pow 10 (-k).toNat
  let step := 4 * unitsInOne * Nat.pow 10 k.toNat
  let half := 2 * Nat.pow 2 exponent * up
  let value := 4 * mantissa * Nat.pow 2 exponent * up
  let low := if mantissa = Nat.pow 2 52 ∧ exponent ≠ 0 then value - half / 2 else value - half
  let high := value + half
  let within (c : Nat) : Bool :=
    if mantissa % 2 = 0 then decide (low ≤ c * step ∧ c * step ≤ high)
    else decide (low < c * step ∧ c * step < high)
  let floor := value / step
  match within floor, within (floor + 1) with
  | false, false => none
  | true, false => some floor
  | false, true => some (floor + 1)
  | true, true =>
    let twice := 2 * value
    let middle := (2 * floor + 1) * step
    if twice < middle ∨ (twice = middle ∧ floor % 2 = 0) then some floor else some (floor + 1)

/-- The shortest decimal that reads back as mantissa · 2^exponent units, for a positive mantissa. -/
def shortest (mantissa exponent : Nat) : Decimal :=
  let lead := leadingPower (mantissa * Nat.pow 2 exponent)
  let hit := (List.range 17).findSome? fun (n : Nat) =>
    let k := lead - (n : Int)
    (onGrid mantissa exponent k).map fun c => Decimal.trimmed 18 c k
  hit.getD ⟨0, 0⟩

end Double

end PageQuery
