/-
# Decimal digits and the numbers that they denote

The digits of a number denote it, so they tell it apart. The other way around, digits are those of the
number that they denote, perhaps behind zeros: from the first digit that is not zero on, each further one
goes on the digits of what was denoted before it.

An index is read from digits behind a plus sign or none, so it is read from what is so written of a number
of its size, and from nothing else.

Key definition: `IsDecimal`.
Key theorems: `digitsValue_natChars`, `natChars_injective`, `exists_zeros`, `indexOf?_eq_some_iff`.
-/
import PageQuery.Json.Printer
import PageQuery.Matching.Path
import Mathlib.Algebra.Order.Ring.Nat
import Mathlib.Tactic.SplitIfs

namespace PageQuery

/-! ### The digits of a number -/

theorem isDigit_of_mem_natChars {n : Nat} {c : Char} (h : c ∈ natChars n) : isDigit c = true := by
  have digit := Nat.isDigit_of_mem_toDigits (by decide) (by decide) h
  simpa [Char.isDigit, isDigit, Char.le_def] using digit

/-- The digits of a number denote it. -/
@[simp]
theorem digitsValue_natChars (n : Nat) : digitsValue 0 (natChars n) = n := by
  have value := Nat.ofDigitChars_ten_toDigits (n := n)
  rw [Nat.ofDigitChars_eq_foldl] at value
  simpa only [digitsValue, digitValue, natChars, Nat.mul_comm] using value

/-- The digits of a number tell it apart. -/
theorem natChars_injective : Function.Injective natChars := by
  intro m n same
  rw [← digitsValue_natChars m, same, digitsValue_natChars]

/-- A number has a first digit. -/
theorem exists_natChars (n : Nat) : ∃ d ds, natChars n = d :: ds ∧ isDigit d = true := by
  obtain ⟨d, ds, split⟩ := List.exists_cons_of_ne_nil (Nat.toDigits_ne_nil (n := n) (b := 10))
  have same : natChars n = d :: ds := split
  exact ⟨d, ds, same, isDigit_of_mem_natChars (same ▸ List.mem_cons_self)⟩

/-- Only zero is written with a zero in front. -/
theorem natChars_of_zero_cons {n : Nat} {ds : List Char} (h : natChars n = '0' :: ds) : ds = [] := by
  induction n using Nat.strongRecOn generalizing ds with
  | ind n ih =>
    by_cases small : n < 10
    · rw [natChars, Nat.toDigits_of_lt_base small] at h
      exact (List.cons.inj h).2.symm
    · obtain ⟨d, front, split, -⟩ := exists_natChars (n / 10)
      rw [natChars, Nat.toDigits_of_base_le (by decide) (Nat.not_lt.mp small), ← natChars, split] at h
      obtain rfl := (List.cons.inj h).1
      obtain rfl := ih (n / 10) (by omega) split
      have zero := digitsValue_natChars (n / 10)
      rw [split] at zero
      have none : 0 = n / 10 := zero
      omega

/-! ### The number that digits denote -/

theorem isDigit_iff {d : Char} : isDigit d = true ↔ 48 ≤ d.toNat ∧ d.toNat ≤ 57 := by
  rw [isDigit, decide_eq_true_iff]
  rfl

theorem digitValue_lt {d : Char} (digit : isDigit d = true) : digitValue d < 10 := by
  have bounds := isDigit_iff.mp digit
  have zero : '0'.toNat = 48 := rfl
  unfold digitValue
  omega

theorem natChars_digitValue {d : Char} (digit : isDigit d = true) : natChars (digitValue d) = [d] := by
  have bounds := isDigit_iff.mp digit
  have zero : '0'.toNat = 48 := rfl
  have value : (Nat.digitChar (digitValue d)).toNat = d.toNat := by
    rw [Nat.toNat_digitChar_of_lt_ten (digitValue_lt digit), digitValue]
    omega
  rw [natChars, Nat.toDigits_of_lt_base (digitValue_lt digit), Char.toNat_inj.mp value]

/-- Digits behind those of a number other than zero go on them. -/
theorem natChars_append {ds : List Char} {n : Nat} (pos : 0 < n) (digits : ∀ d ∈ ds, isDigit d = true) :
    natChars n ++ ds = natChars (digitsValue n ds) := by
  induction ds generalizing n with
  | nil => exact List.append_nil _
  | cons d ds ih =>
    obtain ⟨digit, digits⟩ := List.forall_mem_cons.mp digits
    have one : natChars n ++ [d] = natChars (n * 10 + digitValue d) := by
      rw [← natChars_digitValue digit, Nat.mul_comm]
      exact Nat.toDigits_append_toDigits (by decide) pos (digitValue_lt digit)
    calc natChars n ++ d :: ds
        = (natChars n ++ [d]) ++ ds := by simp
      _ = natChars (n * 10 + digitValue d) ++ ds := by rw [one]
      _ = natChars (digitsValue (n * 10 + digitValue d) ds) := ih (by omega) digits

/-- **Digits are those of the number that they denote, perhaps behind zeros.** -/
theorem exists_zeros {ds : List Char} (some : ds ≠ []) (digits : ∀ d ∈ ds, isDigit d = true) :
    ∃ zeros, ds = List.replicate zeros '0' ++ natChars (digitsValue 0 ds) := by
  induction ds with
  | nil => exact absurd rfl some
  | cons d ds ih =>
    obtain ⟨digit, more⟩ := List.forall_mem_cons.mp digits
    have value : digitsValue 0 (d :: ds) = digitsValue (digitValue d) ds := by
      rw [digitsValue, List.foldl_cons, Nat.zero_mul, Nat.zero_add]
      rfl
    rw [value]
    by_cases zero : d = '0'
    · subst zero
      cases ds with
      | nil => exact ⟨0, rfl⟩
      | cons e ds =>
        obtain ⟨zeros, same⟩ := ih (List.cons_ne_nil _ _) more
        refine ⟨zeros + 1, ?_⟩
        rw [List.replicate_succ, List.cons_append]
        exact congrArg (List.cons '0') same
    · have pos : 0 < digitValue d := by
        have bounds := isDigit_iff.mp digit
        have other : d.toNat ≠ '0'.toNat := fun same => zero (Char.toNat_inj.mp same)
        have code : '0'.toNat = 48 := rfl
        unfold digitValue
        omega
      refine ⟨0, ?_⟩
      rw [← natChars_append pos more, natChars_digitValue digit]
      rfl

@[simp] theorem digitsValue_zeros (zeros : Nat) (ds : List Char) :
    digitsValue 0 (List.replicate zeros '0' ++ ds) = digitsValue 0 ds := by
  induction zeros with
  | zero => rfl
  | succ zeros ih => exact ih

/-! ### Indices -/

/-- The text is a number in decimal digits, perhaps behind a plus sign and zeros. -/
def IsDecimal (text : String) (n : Nat) : Prop :=
  ∃ sign zeros, (sign = [] ∨ sign = ['+']) ∧
    text.toList = sign ++ List.replicate zeros '0' ++ natChars n

/-- What stands behind the plus sign, if there is one. -/
def unsignedPart : List Char → List Char
  | '+' :: rest => rest
  | cs => cs

theorem unsignedPart_of_digit {d : Char} {ds : List Char} (digit : isDigit d = true) :
    unsignedPart (d :: ds) = d :: ds := by
  unfold unsignedPart
  split
  · next h => cases h; cases digit
  · rfl

theorem exists_sign (cs : List Char) : ∃ sign, (sign = [] ∨ sign = ['+']) ∧ cs = sign ++ unsignedPart cs := by
  unfold unsignedPart
  split
  · exact ⟨['+'], .inr rfl, rfl⟩
  · exact ⟨[], .inl rfl, rfl⟩

/-- Behind zeros there are digits still. -/
theorem isDigit_of_mem_padded {zeros n : Nat} {d : Char}
    (mem : d ∈ List.replicate zeros '0' ++ natChars n) : isDigit d = true := by
  rcases List.mem_append.mp mem with zero | digit
  · rw [List.eq_of_mem_replicate zero]
    rfl
  · exact isDigit_of_mem_natChars digit

theorem exists_padded (zeros n : Nat) : ∃ d ds, List.replicate zeros '0' ++ natChars n = d :: ds := by
  obtain ⟨d, ds, first, -⟩ := exists_natChars n
  exact List.exists_cons_of_ne_nil (by simp [first])

/-- Behind its sign a decimal has its digits, perhaps with zeros before them. -/
theorem IsDecimal.unsignedPart_eq {text : String} {n : Nat} (h : IsDecimal text n) :
    ∃ zeros, unsignedPart text.toList = List.replicate zeros '0' ++ natChars n := by
  obtain ⟨sign, zeros, known, split⟩ := h
  refine ⟨zeros, ?_⟩
  rw [split]
  rcases known with rfl | rfl
  · obtain ⟨d, ds, first⟩ := exists_padded zeros n
    rw [List.nil_append, first]
    exact unsignedPart_of_digit (isDigit_of_mem_padded (first ▸ List.mem_cons_self))
  · rfl

/-- **An index is read from a number of its size in decimal, and from nothing else.** -/
theorem indexOf?_eq_some_iff {text : String} {n : Nat} :
    indexOf? text = some n ↔ n < 2 ^ 64 ∧ IsDecimal text n := by
  have read : indexOf? text = if (unsignedPart text.toList).isEmpty ||
      !(unsignedPart text.toList).all isDigit then none
    else if digitsValue 0 (unsignedPart text.toList) < Nat.pow 2 64 then
      some (digitsValue 0 (unsignedPart text.toList)) else none := rfl
  rw [read]
  constructor
  · intro h
    split_ifs at h with bad fits
    cases h
    simp only [Bool.or_eq_true, List.isEmpty_iff, Bool.not_eq_true', not_or, Bool.not_eq_false,
      List.all_eq_true] at bad
    obtain ⟨sign, known, split⟩ := exists_sign text.toList
    obtain ⟨zeros, same⟩ := exists_zeros bad.1 bad.2
    refine ⟨fits, sign, zeros, known, ?_⟩
    rw [List.append_assoc, ← same, ← split]
  · rintro ⟨fits, decimal⟩
    obtain ⟨zeros, part⟩ := decimal.unsignedPart_eq
    obtain ⟨d, ds, first⟩ := exists_padded zeros n
    have good : ((unsignedPart text.toList).isEmpty || !(unsignedPart text.toList).all isDigit) = false := by
      rw [part, Bool.or_eq_false_iff, List.isEmpty_eq_false_iff, Bool.not_eq_false', List.all_eq_true]
      exact ⟨by simp [first], fun _ => isDigit_of_mem_padded⟩
    rw [good, part, digitsValue_zeros, digitsValue_natChars]
    exact if_pos fits

end PageQuery
