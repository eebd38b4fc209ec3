import ErSchema.Decimal.Digits
import Mathlib.Data.List.Basic

/-! # Reading digits back

The digits of a number are digits, at least one, without a zero in front, and
they have the value of the number. -/

namespace ErSchema.Decimal

theorem isDigit_of_mem_digitsOfNat {value : Nat} {digit : Char}
    (member : digit ∈ digitsOfNat value) : isDigit digit = true :=
  Nat.isDigit_of_mem_toDigits (by decide) (by decide) member

theorem digitsOfNat_ne_nil (value : Nat) : digitsOfNat value ≠ [] :=
  Nat.toDigits_ne_nil

theorem natOfDigits_digitsOfNat (value : Nat) : natOfDigits (digitsOfNat value) = value := by
  have back := Nat.ofDigitChars_ten_toDigits (n := value)
  rwa [Nat.ofDigitChars_eq_foldl] at back

theorem head?_digitsOfNat_ne_zero {value : Nat} (positive : value ≠ 0) :
    (digitsOfNat value).head? ≠ some '0' := by
  induction value using Nat.strongRecOn with
  | ind value induction =>
      unfold digitsOfNat
      by_cases small : value < 10
      · rw [Nat.toDigits_of_lt_base small]
        have digits : ∀ digit < 10, digit ≠ 0 → digit.digitChar ≠ '0' := by decide
        simpa using digits value small positive
      · have large : 10 ≤ value := Nat.le_of_not_lt small
        have front := induction (value / 10) (by omega) (by omega)
        rw [Nat.toDigits_of_base_le (by decide) large]
        rwa [List.head?_append_of_ne_nil _ Nat.toDigits_ne_nil]

theorem natBelow?_digitsOfNat {value bound : Nat} (below : value < bound) :
    natBelow? bound (digitsOfNat value) = some value := by
  have digits : (digitsOfNat value).all isDigit = true :=
    List.all_eq_true.mpr fun _ => isDigit_of_mem_digitsOfNat
  simp [natBelow?, digits, digitsOfNat_ne_nil, natOfDigits_digitsOfNat, below]

theorem countBelow?_digitsOfNat {value bound : Nat} (below : value < bound) :
    countBelow? bound (digitsOfNat value) = some value := by
  unfold countBelow?
  split
  case h_1 digits signed =>
    have plus : isDigit '+' = true :=
      isDigit_of_mem_digitsOfNat (signed ▸ List.mem_cons_self)
    exact absurd plus (by decide)
  case h_2 => exact natBelow?_digitsOfNat below

end ErSchema.Decimal
