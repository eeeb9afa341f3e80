import Mathlib

/-!
# Decimal numerals

The numeral of a number is the list of its decimal digits as ASCII bytes, most significant digit
first, without leading zeros; `numeralValue` reads such a list back. A number whose digits between
the first and the last one are put in reverse order stays below its double
(`ofDigits_inner_reverse_lt`), and it stays the same exactly when these digits do.
-/

namespace Unarddeg.Library

/-- The ASCII byte of a digit. -/
def digitByte (digit : Nat) : UInt8 := UInt8.ofNat (digit + 48)

/-- The decimal digits of a number, least significant first; zero has one digit. -/
def lowDigits (number : Nat) : List Nat := if number = 0 then [0] else Nat.digits 10 number

/-- The decimal numeral of a number. -/
def numeral (number : Nat) : List UInt8 := ((lowDigits number).map digitByte).reverse

/-- The number that a string of digits stands for. -/
def numeralValue (bytes : List UInt8) : Nat :=
  Nat.ofDigits 10 (bytes.reverse.map fun byte => byte.toNat - 48)

/-- The digits between the last and the first one, in this order. -/
def innerDigits (number : Nat) : List Nat := (lowDigits number).tail.dropLast

/-- The digits between the first and the last one read the same both ways. -/
def InnerPalindrome (number : Nat) : Prop := (innerDigits number).reverse = innerDigits number

instance decidableInnerPalindrome (number : Nat) : Decidable (InnerPalindrome number) :=
  inferInstanceAs (Decidable (_ = _))

section Digits

variable {number digit last first : Nat} {inner digits : List Nat}

/-- A digit is below ten. -/
theorem lowDigits_lt (member : digit ∈ lowDigits number) : digit < 10 := by
  unfold lowDigits at member
  split at member
  · simp at member
    omega
  · exact Nat.digits_lt_base (by decide) member

/-- The digits make up the number. -/
theorem ofDigits_lowDigits (number : Nat) : Nat.ofDigits 10 (lowDigits number) = number := by
  unfold lowDigits
  split
  · rename_i zero
    simp [zero]
  · exact Nat.ofDigits_digits 10 number

/-- A number below ten is its digit. -/
theorem lowDigits_small (small : number < 10) : lowDigits number = [number] := by
  unfold lowDigits
  split
  · rename_i zero
    rw [zero]
  · rename_i nonzero
    exact Nat.digits_of_lt 10 number nonzero small

/-- A number from ten on has a last digit and the digits of its tenth. -/
theorem lowDigits_large (large : 10 ≤ number) :
    lowDigits number = number % 10 :: lowDigits (number / 10) := by
  unfold lowDigits
  rw [if_neg (by omega), if_neg (by omega)]
  exact Nat.digits_def' (by decide) (by omega)

/-- A number has one digit, or a last digit, digits between, and a first digit that is not
zero. -/
theorem lowDigits_cases (number : Nat) : (∃ digit, lowDigits number = [digit]) ∨
    ∃ last inner first, lowDigits number = last :: (inner ++ [first]) ∧ first ≠ 0 := by
  by_cases zero : number = 0
  · exact .inl ⟨0, if_pos zero⟩
  · have digits : lowDigits number = Nat.digits 10 number := if_neg zero
    have leading := Nat.getLast_digit_ne_zero 10 zero
    rw [digits]
    rcases List.eq_nil_or_concat' (Nat.digits 10 number) with empty | ⟨front, first, split⟩
    · exact absurd empty (Nat.digits_ne_nil_iff_ne_zero.mpr zero)
    · simp only [split, List.getLast_append_singleton] at leading
      rw [split]
      cases front with
      | nil => exact .inl ⟨first, rfl⟩
      | cons last inner => exact .inr ⟨last, inner, first, rfl, leading⟩

/-- The byte of a digit as a number. -/
theorem digitByte_toNat (small : digit < 10) : (digitByte digit).toNat = digit + 48 := by
  unfold digitByte
  rw [UInt8.toNat_ofNat']
  omega

/-- A string of digits is read back. -/
theorem numeralValue_map (small : ∀ digit ∈ digits, digit < 10) :
    numeralValue (digits.map digitByte) = Nat.ofDigits 10 digits.reverse := by
  have back : digits.reverse.map ((fun byte : UInt8 => byte.toNat - 48) ∘ digitByte) =
      digits.reverse.map id := by
    apply List.map_congr_left
    intro digit member
    have value := digitByte_toNat (small digit (List.mem_reverse.mp member))
    simp [value]
  unfold numeralValue
  rw [← List.map_reverse, List.map_map, back, List.map_id]

/-- The numeral of a number is read back. -/
theorem numeralValue_numeral (number : Nat) : numeralValue (numeral number) = number := by
  unfold numeral
  rw [← List.map_reverse, numeralValue_map, List.reverse_reverse, ofDigits_lowDigits]
  intro digit member
  exact lowDigits_lt (List.mem_reverse.mp member)

/-- The weights of the last digit, the digits between and the first one. -/
theorem ofDigits_ends : Nat.ofDigits 10 (last :: (inner ++ [first])) =
    last + 10 * Nat.ofDigits 10 inner + 10 ^ (inner.length + 1) * first := by
  rw [Nat.ofDigits_cons, Nat.ofDigits_append, Nat.ofDigits_singleton]
  ring

/-- With the digits between in reverse order a number stays below its double. -/
theorem ofDigits_inner_reverse_lt (lastSmall : last < 10) (small : ∀ digit ∈ inner, digit < 10)
    (leading : first ≠ 0) : Nat.ofDigits 10 (last :: (inner.reverse ++ [first])) <
      2 * Nat.ofDigits 10 (last :: (inner ++ [first])) := by
  have weight : Nat.ofDigits 10 inner.reverse < 10 ^ inner.length := by
    have bound := @Nat.ofDigits_lt_base_pow_length 10 inner.reverse (by decide)
      fun digit member => small digit (List.mem_reverse.mp member)
    rwa [List.length_reverse] at bound
  have first_le : 10 ^ (inner.length + 1) ≤ 10 ^ (inner.length + 1) * first :=
    Nat.le_mul_of_pos_right _ (Nat.pos_of_ne_zero leading)
  rw [ofDigits_ends, ofDigits_ends, List.length_reverse]
  rw [pow_succ] at first_le ⊢
  omega

/-- With the digits between in reverse order a number is the same exactly when they are. -/
theorem ofDigits_inner_reverse_iff (small : ∀ digit ∈ inner, digit < 10) :
    Nat.ofDigits 10 (last :: (inner.reverse ++ [first])) =
        Nat.ofDigits 10 (last :: (inner ++ [first])) ↔ inner.reverse = inner := by
  constructor
  · intro same
    rw [ofDigits_ends, ofDigits_ends, List.length_reverse] at same
    have values : Nat.ofDigits 10 inner.reverse = Nat.ofDigits 10 inner := by omega
    apply Nat.ofDigits_inj_of_len_eq (by decide) List.length_reverse _ small values
    intro digit member
    exact small digit (List.mem_reverse.mp member)
  · intro same
    rw [same]

end Digits

end Unarddeg.Library
