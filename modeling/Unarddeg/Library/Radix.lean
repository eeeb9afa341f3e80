import Unarddeg.Library.Decimal

/-!
# Numerals to any base

`radixNumeral` is the numeral of a number in some digits, most significant digit first, without
leading zeros; `radixValue` reads it back. A field of enough digits whose leading zeros are left
out, but for its last digit, is the numeral (`strip_padded`). Integers have a sign in front.
-/

namespace Unarddeg.Library

/-- The digits of a number, least significant first; zero has one digit. -/
def radixDigits (base number : Nat) : List Nat := if number = 0 then [0] else Nat.digits base number

/-- The numeral of a number. -/
def radixNumeral (base : Nat) (digit : Nat → UInt8) (number : Nat) : List UInt8 :=
  ((radixDigits base number).map digit).reverse

/-- The number that a string of digits stands for. -/
def radixValue (base : Nat) (value : UInt8 → Nat) (bytes : List UInt8) : Nat :=
  Nat.ofDigits base (bytes.reverse.map value)

/-- The last digits of a number, most significant first. -/
def paddedDigits (base count number : Nat) : List Nat :=
  (List.range count).map fun place => number / base ^ (count - 1 - place) % base

/-- The decimal numeral of an integer. -/
def integerNumeral (number : Int) : List UInt8 :=
  (if number < 0 then [45] else []) ++ numeral number.natAbs

/-- The integer that a string of digits with a sign stands for. -/
def integerValue (bytes : List UInt8) : Int :=
  if bytes.head? = some 45 then -(numeralValue bytes.tail : Int) else numeralValue bytes

section Radix

variable {base count number : Nat} {digit : Nat → UInt8} {value : UInt8 → Nat}

/-- The digits make up the number. -/
theorem ofDigits_radixDigits (base number : Nat) :
    Nat.ofDigits base (radixDigits base number) = number := by
  unfold radixDigits
  by_cases zero : number = 0
  · rw [if_pos zero, zero, Nat.ofDigits_singleton]
  · rw [if_neg zero, Nat.ofDigits_digits]

/-- A digit is below the base. -/
theorem radixDigits_lt (large : 1 < base) {place : Nat} (member : place ∈ radixDigits base number) :
    place < base := by
  unfold radixDigits at member
  by_cases zero : number = 0
  · rw [if_pos zero] at member
    obtain rfl := List.mem_singleton.mp member
    exact Nat.lt_trans Nat.zero_lt_one large
  · rw [if_neg zero] at member
    exact Nat.digits_lt_base large member

/-- A numeral is read back. -/
theorem radixValue_radixNumeral (large : 1 < base)
    (back : ∀ place < base, value (digit place) = place) (number : Nat) :
    radixValue base value (radixNumeral base digit number) = number := by
  have digits : ((radixDigits base number).map digit).map value = radixDigits base number := by
    rw [List.map_map]
    refine (List.map_congr_left fun place member => ?_).trans (List.map_id _)
    exact back place (radixDigits_lt large member)
  rw [radixValue, radixNumeral, List.reverse_reverse, digits, ofDigits_radixDigits]

/-- A field that is large enough is the digits with zeros in front. -/
theorem paddedDigits_eq (large : 1 < base) (fits : number < base ^ count) :
    paddedDigits base count number = (Nat.digitsAppend base count number).reverse := by
  have length := Nat.length_digitsAppend large count fits
  apply List.ext_getElem
  · rw [paddedDigits, List.length_map, List.length_range, List.length_reverse, length]
  intro place inside _
  rw [paddedDigits, List.length_map, List.length_range] at inside
  have padding : (Nat.digitsAppend base count number).getD (count - 1 - place) 0 =
      (Nat.digits base number).getD (count - 1 - place) 0 := by
    rw [Nat.digitsAppend]
    by_cases short : count - 1 - place < (Nat.digits base number).length
    · rw [List.getD_append _ _ _ _ short]
    · rw [List.getD_append_right _ _ _ _ (Nat.le_of_not_lt short),
        List.getD_eq_default _ _ (Nat.le_of_not_lt short)]
      rw [List.getD_eq_getElem?_getD, List.getElem?_getD_replicate_default_eq]
  have digit := Nat.getD_digits number (count - 1 - place) large
  rw [← padding, List.getD_eq_getElem _ _ (by omega)] at digit
  simp only [paddedDigits, List.getElem_map, List.getElem_range, List.getElem_reverse, length]
  exact digit.symm

/-- A field without its leading zeros, but with its last digit, is the digits. -/
theorem strip_padded (large : 1 < base) (fits : number < base ^ (count + 1)) :
    ((paddedDigits base (count + 1) number).take count).dropWhile (· = 0) ++
        (paddedDigits base (count + 1) number).drop count =
      (radixDigits base number).reverse := by
  rw [paddedDigits_eq large fits, Nat.digitsAppend, List.reverse_append, List.reverse_replicate]
  by_cases zero : number = 0
  · rw [zero, radixDigits, if_pos rfl, Nat.digits_zero, List.reverse_nil, List.append_nil,
      List.length_nil, Nat.sub_zero, List.take_replicate, List.drop_replicate]
    simp
  · have least := (Nat.digits_length_le_iff large number).mpr fits
    have some : Nat.digits base number ≠ [] := Nat.digits_ne_nil_iff_ne_zero.mpr zero
    have positive := List.length_pos_of_ne_nil some
    have leading := Nat.getLast_digit_ne_zero base zero
    rw [radixDigits, if_neg zero]
    generalize digits : (Nat.digits base number).reverse = field
    have length : (Nat.digits base number).length = field.length := by
      rw [← digits, List.length_reverse]
    rw [length] at least positive ⊢
    obtain ⟨first, rest, rfl⟩ := List.exists_cons_of_length_pos positive
    have nonzero : first ≠ 0 := by
      have head := congrArg List.head? digits
      rw [List.head?_reverse, List.getLast?_eq_some_getLast some] at head
      rw [← Option.some.inj head]
      exact leading
    obtain ⟨zeros, split⟩ := Nat.exists_eq_add_of_le least
    rw [split, Nat.add_sub_cancel_left]
    have place : count = zeros + rest.length := by
      rw [List.length_cons] at split
      omega
    rw [place, List.take_append, List.drop_append, List.length_replicate, List.take_replicate,
      List.drop_replicate, Nat.add_sub_cancel_left]
    -- The zeros are left out, and the first digit ends them.
    have stops : ∀ kept : List Nat, kept <+: first :: rest → kept.dropWhile (· = 0) = kept := by
      intro kept front
      cases kept with
      | nil => rfl
      | cons digit kept =>
        obtain ⟨rfl, _⟩ := List.cons_prefix_cons.mp front
        rw [List.dropWhile_cons_of_neg (by simpa using nonzero)]
    rw [Nat.min_eq_right (Nat.le_add_right _ _), List.dropWhile_append_of_pos (by simp),
      stops _ (List.take_prefix _ _)]
    simp

/-- What is dropped only depends on the test of the members. -/
theorem dropWhile_congr {α : Type} {first second : α → Bool} {items : List α}
    (same : ∀ item ∈ items, first item = second item) :
    items.dropWhile first = items.dropWhile second := by
  induction items with
  | nil => rfl
  | cons item items ih =>
    rw [List.dropWhile_cons, List.dropWhile_cons, same item List.mem_cons_self,
      ih fun later member => same later (List.mem_cons_of_mem _ member)]

/-- A field of written digits without its leading zeros is the numeral. -/
theorem strip_field (large : 1 < base) (zeros : ∀ place < base, digit place = digit 0 ↔ place = 0)
    (fits : number < base ^ (count + 1)) :
    let field := (paddedDigits base (count + 1) number).map digit
    (field.take count).dropWhile (· = digit 0) ++ field.drop count =
      radixNumeral base digit number := by
  intro field
  have blank : ∀ place ∈ (paddedDigits base (count + 1) number).take count,
      ((fun byte => decide (byte = digit 0)) ∘ digit) place = decide (place = 0) := by
    intro place member
    obtain ⟨_, _, rfl⟩ := List.mem_map.mp (List.mem_of_mem_take member)
    exact decide_eq_decide.mpr (zeros _ (Nat.mod_lt _ (Nat.lt_trans Nat.zero_lt_one large)))
  rw [← List.map_take, ← List.map_drop, List.dropWhile_map, dropWhile_congr blank,
    ← List.map_append, strip_padded large fits, List.map_reverse, radixNumeral]

/-- The bytes of a decimal numeral are digits. -/
theorem numeral_digits {byte : UInt8} (member : byte ∈ numeral number) : 48 ≤ byte.toNat := by
  obtain ⟨digit, inside, rfl⟩ := List.mem_map.mp (List.mem_reverse.mp member)
  rw [digitByte_toNat (lowDigits_lt inside)]
  exact Nat.le_add_left _ _

/-- The numeral of an integer is read back. -/
theorem integerValue_integerNumeral (number : Int) :
    integerValue (integerNumeral number) = number := by
  unfold integerValue integerNumeral
  by_cases negative : number < 0
  · rw [if_pos negative, List.singleton_append, List.head?_cons, if_pos rfl, List.tail_cons,
      numeralValue_numeral]
    omega
  · have plain : (numeral number.natAbs).head? ≠ some 45 := by
      intro sign
      have digit := numeral_digits (List.mem_of_mem_head? sign)
      exact absurd digit (by decide)
    rw [if_neg negative, List.nil_append, if_neg plain, numeralValue_numeral]
    omega

end Radix

end Unarddeg.Library
