/-
# Whole numbers as doubles

A whole number of 64-bit range becomes a double by rounding it to 53 binary digits, and its value is then
that of the rounded number (`Double.units_ofInt`). So doubles of whole numbers compare as the rounded
numbers do. Rounding never turns an order round, and it changes nothing up to 2^53 on either side of zero;
beyond, different numbers may be rounded to the same one.

Key definitions: `Double.roundedNat`, `Double.rounded`.
Key theorems: `Double.roundHalfEven_mono`, `Double.rounded_mono`, `Double.rounded_of_le`,
`Double.units_ofInt`, `Double.sameValue_ofInt_iff`, `Double.below_ofInt_iff`.
-/
import Mathlib.Algebra.Order.Ring.Nat
import Mathlib.Tactic.SplitIfs
import PageQuery.Number.Double

namespace PageQuery

namespace Double

/-! ### The nearest whole number -/

section nearest

variable {a b den : Nat}

theorem roundHalfEven_mul (pos : 0 < den) (k : Nat) : roundHalfEven (k * den) den = k := by
  simp [roundHalfEven, Nat.mul_div_cancel k pos, pos]

/-- A greater number does not have a lesser one nearest to it. -/
theorem roundHalfEven_mono (le : a ≤ b) : roundHalfEven a den ≤ roundHalfEven b den := by
  have quotients : a / den ≤ b / den := Nat.div_le_div_right le
  have whole := Nat.div_add_mod a den
  have whole' := Nat.div_add_mod b den
  unfold roundHalfEven
  dsimp only
  rcases Nat.lt_or_eq_of_le quotients with lt | same
  · split_ifs <;> omega
  · -- with equal quotients the remainders decide
    rw [same] at whole ⊢
    split_ifs <;> omega

/-- Only the ratio counts. -/
theorem roundHalfEven_mul_right (c : Nat) (pos : 0 < c) :
    roundHalfEven (a * c) (den * c) = roundHalfEven a den := by
  have twice : 2 * (a % den * c) = 2 * (a % den) * c := (Nat.mul_assoc ..).symm
  simp only [roundHalfEven, Nat.mul_div_mul_right _ _ pos, Nat.mul_mod_mul_right, twice,
    Nat.mul_lt_mul_right pos, Nat.mul_left_inj pos.ne']

end nearest

/-! ### Rounding to 53 binary digits -/

/-- The unit of the last of the 53 leading binary digits. -/
def lastUnit (n : Nat) : Nat := 2 ^ (n.log2 - 52)

/-- A natural number rounded to 53 binary digits; a tie goes to the even multiple of the last unit. -/
def roundedNat (n : Nat) : Nat := roundHalfEven n (lastUnit n) * lastUnit n

/-- A whole number rounded to 53 binary digits. -/
def rounded (n : Int) : Int := if n < 0 then -(roundedNat n.natAbs : Int) else (roundedNat n.natAbs : Int)

section rounding

variable {m n : Nat}

theorem lastUnit_pos (n : Nat) : 0 < lastUnit n := Nat.two_pow_pos _

/-- Nothing is lost of a multiple of the last unit. -/
theorem roundedNat_of_dvd (h : lastUnit n ∣ n) : roundedNat n = n := by
  obtain ⟨k, same⟩ := h
  have nearest : roundHalfEven n (lastUnit n) = k := by
    rw [show roundHalfEven n (lastUnit n) = roundHalfEven (k * lastUnit n) (lastUnit n) by
      rw [Nat.mul_comm k, ← same], roundHalfEven_mul (lastUnit_pos n)]
  rw [roundedNat, nearest, Nat.mul_comm, ← same]

/-- Numbers up to 2^53 have no more than 53 digits, or are a power of two. -/
theorem roundedNat_of_le (h : n ≤ 2 ^ 53) : roundedNat n = n := by
  refine roundedNat_of_dvd ?_
  rcases Nat.lt_or_eq_of_le h with lt | rfl
  · have short : n.log2 - 52 = 0 := by
      rcases Nat.eq_zero_or_pos n with rfl | pos
      · rfl
      · have := (Nat.log2_lt pos.ne').mpr lt
        omega
    rw [lastUnit, short, Nat.pow_zero]
    exact Nat.one_dvd n
  · exact Nat.pow_dvd_pow 2 (by rw [Nat.log2_two_pow]; omega)

/-- A number is rounded within the powers of two around it. -/
theorem roundedNat_bounds (pos : 0 < n) : 2 ^ n.log2 ≤ roundedNat n ∧ roundedNat n ≤ 2 ^ (n.log2 + 1) := by
  have power : ∀ {k}, n.log2 ≤ k → roundHalfEven (2 ^ k) (lastUnit n) * lastUnit n = 2 ^ k := by
    intro k le
    obtain ⟨c, same⟩ : lastUnit n ∣ 2 ^ k := Nat.pow_dvd_pow 2 (by omega)
    rw [same, Nat.mul_comm (lastUnit n), roundHalfEven_mul (lastUnit_pos n)]
  constructor
  · rw [← power (Nat.le_refl _)]
    exact Nat.mul_le_mul_right _ (roundHalfEven_mono (Nat.log2_self_le pos.ne'))
  · rw [← power (Nat.le_succ _)]
    exact Nat.mul_le_mul_right _ (roundHalfEven_mono Nat.lt_log2_self.le)

theorem roundedNat_mono (h : m ≤ n) : roundedNat m ≤ roundedNat n := by
  rcases Nat.eq_zero_or_pos m with rfl | pos
  · rw [roundedNat_of_le (Nat.zero_le _)]
    exact Nat.zero_le _
  have lengths : m.log2 ≤ n.log2 :=
    (Nat.le_log2 (pos.trans_le h).ne').mpr ((Nat.log2_self_le pos.ne').trans h)
  rcases Nat.lt_or_eq_of_le lengths with shorter | same
  · calc roundedNat m ≤ 2 ^ (m.log2 + 1) := (roundedNat_bounds pos).2
      _ ≤ 2 ^ n.log2 := Nat.pow_le_pow_right (by decide) shorter
      _ ≤ roundedNat n := (roundedNat_bounds (pos.trans_le h)).1
  · rw [roundedNat, roundedNat, lastUnit, lastUnit, same]
    exact Nat.mul_le_mul_right _ (roundHalfEven_mono h)

/-- Zeros behind a number make it longer. -/
theorem log2_mul_two_pow (pos : 0 < n) (k : Nat) : (n * 2 ^ k).log2 = n.log2 + k := by
  refine (Nat.log2_eq_iff (Nat.mul_ne_zero pos.ne' (Nat.two_pow_pos k).ne')).mpr ⟨?_, ?_⟩
  · rw [Nat.pow_add]
    exact Nat.mul_le_mul_right _ (Nat.log2_self_le pos.ne')
  · rw [Nat.add_right_comm, Nat.pow_add]
    exact Nat.mul_lt_mul_of_pos_right Nat.lt_log2_self (Nat.two_pow_pos k)

/-- Rounding does not depend on the unit in which a number is counted. -/
theorem roundedNat_mul_two_pow (n k : Nat) : roundedNat (n * 2 ^ k) = roundedNat n * 2 ^ k := by
  rcases Nat.eq_zero_or_pos n with rfl | pos
  · rw [Nat.zero_mul, roundedNat_of_le (Nat.zero_le _), Nat.zero_mul]
  have length := log2_mul_two_pow pos k
  rcases Nat.le_total 52 n.log2 with long | short
  · have unit : lastUnit (n * 2 ^ k) = lastUnit n * 2 ^ k := by
      rw [lastUnit, length, Nat.sub_add_comm long, Nat.pow_add, lastUnit]
    rw [roundedNat, unit, roundHalfEven_mul_right _ (Nat.two_pow_pos k), roundedNat, Nat.mul_assoc]
  · have few : n ≤ 2 ^ 53 :=
      Nat.lt_log2_self.le.trans (Nat.pow_le_pow_right (by decide) (Nat.succ_le_succ short))
    have unit : lastUnit (n * 2 ^ k) ∣ n * 2 ^ k := by
      rw [lastUnit, length]
      exact (Nat.pow_dvd_pow 2 (by omega)).trans (Nat.dvd_mul_left _ _)
    rw [roundedNat_of_dvd unit, roundedNat_of_le few]

/-- **Rounding keeps the order.** -/
theorem rounded_mono {a b : Int} (h : a ≤ b) : rounded a ≤ rounded b := by
  unfold rounded
  split_ifs with low high
  · have := @roundedNat_mono b.natAbs a.natAbs (by omega)
    omega
  · omega
  · omega
  · have := @roundedNat_mono a.natAbs b.natAbs (by omega)
    omega

theorem lt_of_rounded_lt {a b : Int} (h : rounded a < rounded b) : a < b :=
  Int.not_le.mp fun le => absurd (rounded_mono le) (Int.not_le.mpr h)

/-- Up to 2^53 nothing is lost. -/
theorem rounded_of_le {a : Int} (h : a.natAbs ≤ 2 ^ 53) : rounded a = a := by
  rw [rounded, roundedNat_of_le h]
  split_ifs <;> omega

end rounding

/-! ### Doubles of whole numbers -/

theorem ofInt_ne_nan (n : Int) : ofInt n ≠ .nan := by
  unfold ofInt nearest
  dsimp only
  split_ifs <;> exact nofun

/-- The units are those of a power of two. -/
theorem exists_unitsInOne : ∃ k, k ≤ 1074 ∧ unitsInOne = 2 ^ k := by
  have power : unitsInOne = 2 ^ 1074 := by decide +kernel
  exact ⟨1074, Nat.le_refl _, power⟩

theorem unitsInOne_pos : 0 < unitsInOne := by
  obtain ⟨k, -, unit⟩ := exists_unitsInOne
  exact unit ▸ Nat.two_pow_pos k

/-- The units of the double nearest to some units, if it is finite. -/
theorem units_nearest (negative : Bool) {num : Nat} (low : num.log2 - 52 < maxExponent) :
    (nearest negative num 1).units = if negative then -(roundedNat num : Int) else (roundedNat num : Int) := by
  have carried : 2 ^ 53 * 2 ^ (num.log2 - 52) = 2 ^ 52 * 2 ^ (num.log2 - 52 + 1) := by
    rw [← Nat.pow_add, ← Nat.pow_add]
    exact congrArg _ (by omega)
  unfold nearest roundedNat lastUnit
  simp only [Nat.div_one, Nat.one_mul, Nat.pow_eq]
  generalize num.log2 - 52 = e at *
  by_cases full : roundHalfEven num (2 ^ e) = 2 ^ 53
  · rw [if_pos full, if_pos (by omega), full, carried]
    rfl
  · rw [if_neg full, if_pos (Nat.le_of_lt low)]
    rfl

/-- **A whole number of 64 bits has the value of its double once it is rounded.** -/
theorem units_ofInt {n : Int} (few : n.natAbs ≤ 2 ^ 64) :
    (ofInt n).units = rounded n * (unitsInOne : Int) := by
  obtain ⟨k, short, unit⟩ := exists_unitsInOne
  have low : (n.natAbs * 2 ^ k).log2 - 52 < maxExponent := by
    unfold maxExponent
    rcases Nat.eq_zero_or_pos n.natAbs with none | pos
    · rw [none, Nat.zero_mul]
      decide
    · have length : n.natAbs.log2 < 65 := (Nat.log2_lt pos.ne').mpr (few.trans_lt (by decide))
      rw [log2_mul_two_pow pos]
      omega
  rw [ofInt, unit, units_nearest _ low, roundedNat_mul_two_pow, rounded]
  by_cases negative : n < 0
  · simp only [negative, decide_true, if_true, Int.natCast_mul, Int.neg_mul]
  · simp only [negative, decide_false, Bool.false_eq_true, if_false, Int.natCast_mul]

/-! ### Whole numbers compared as doubles -/

theorem sameValue_of_real {a b : Double} (ha : a ≠ .nan) (hb : b ≠ .nan) :
    a.sameValue b = (a.units == b.units) := by
  cases a <;> cases b <;> first | rfl | contradiction

theorem below_of_real {a b : Double} (ha : a ≠ .nan) (hb : b ≠ .nan) :
    a.below b = decide (a.units < b.units) := by
  cases a <;> cases b <;> first | rfl | contradiction

section comparing

variable {a b : Int} (ha : a.natAbs ≤ 2 ^ 64) (hb : b.natAbs ≤ 2 ^ 64)

include ha hb

theorem sameValue_ofInt_iff : (ofInt a).sameValue (ofInt b) = true ↔ rounded a = rounded b := by
  rw [sameValue_of_real (ofInt_ne_nan a) (ofInt_ne_nan b), beq_iff_eq, units_ofInt ha, units_ofInt hb,
    Int.mul_eq_mul_right_iff (Int.natCast_ne_zero.mpr unitsInOne_pos.ne')]

theorem below_ofInt_iff : (ofInt a).below (ofInt b) = true ↔ rounded a < rounded b := by
  rw [below_of_real (ofInt_ne_nan a) (ofInt_ne_nan b), decide_eq_true_eq, units_ofInt ha, units_ofInt hb]
  exact Int.mul_lt_mul_right (Int.natCast_pos.mpr unitsInOne_pos)

end comparing

end Double

end PageQuery
