import Unarddeg.Kernel.Panic
import Unarddeg.Library.Bytes

/-!
# Kernel strings

`kernel/string.c`. A C string is the list of its bytes before the terminating zero; a read at or
behind the end of the list returns the zero. A block of memory is the function of its bytes.
-/

namespace Unarddeg

open Library

/-- A C string constant. -/
def cString (characters : List Char) : List UInt8 := characters.map Char.toUInt8

/-- `strncmp`. The bytes are compared as unsigned; only whether the result is zero is ever
used. -/
def strncmp (lhs rhs : List UInt8) : Nat → Int
  | 0 => 0
  | len + 1 =>
    let left := lhs.headD 0
    let right := rhs.headD 0
    if left ≠ right ∨ left = 0 then (left.toNat : Int) - right.toNat
    else strncmp lhs.tail rhs.tail len

/-- `strnlen`. -/
def strnlen (bytes : List UInt8) : Nat → Nat
  | 0 => 0
  | len + 1 => if bytes.headD 0 = 0 then 0 else strnlen bytes.tail len + 1

/-- The digit loop of `UlToString`: least significant digit first, at most `remaining` of
them. -/
def ulDigits : (remaining number : Nat) → List UInt8
  | 0, _ => []
  | remaining + 1, number =>
    UInt8.ofNat (number % 10 + 48) ::
      (if number / 10 = 0 then [] else ulDigits remaining (number / 10))

/-- Exchange two bytes. -/
def swapBytes (bytes : List UInt8) (left right : Nat) : List UInt8 :=
  (bytes.set left (bytes.getD right 0)).set right (bytes.getD left 0)

/-- `UlToString` on a target whose `unsigned long` has `size` bytes. The second loop of the source
exchanges the bytes `j` and `i - j` for every `j` below `i`. -/
def ulToString (size number : Nat) : List UInt8 :=
  let digits := ulDigits (size * 3) number
  let last := digits.length - 1
  (List.range last).foldl (fun bytes j => swapBytes bytes j (last - j)) digits

/-- `memset`. Its counter is an `int`, which must not overflow. -/
def memset (block : Nat → BitVec 8) (value : BitVec 8) (length : Int) :
    Except Stop (Nat → BitVec 8) :=
  if length ≤ 0x7FFFFFFF then .ok (overwrite block 0 length.toNat fun _ => value)
  else .error .outOfBounds

/-- Two strings that agree on their first bytes compare equal there. -/
theorem strncmp_self (bytes : List UInt8) (len : Nat) : strncmp bytes bytes len = 0 := by
  induction len generalizing bytes with
  | zero => rfl
  | succ len ih =>
    simp only [strncmp, ne_eq, not_true_eq_false, false_or, Int.sub_self, ih, ite_self]

/-- One round of the comparison. -/
theorem strncmp_cons (left right : UInt8) (lhs rhs : List UInt8) (len : Nat) :
    strncmp (left :: lhs) (right :: rhs) (len + 1) =
      if left ≠ right ∨ left = 0 then (left.toNat : Int) - right.toNat
      else strncmp lhs rhs len := rfl

/-- Strings of one length without a zero byte compare equal exactly when they are equal. -/
theorem strncmp_eq_zero {lhs rhs : List UInt8} (length : lhs.length = rhs.length)
    (plain : ∀ byte ∈ rhs, byte ≠ 0) : strncmp lhs rhs rhs.length = 0 ↔ lhs = rhs := by
  induction rhs generalizing lhs with
  | nil => simp [strncmp, List.length_eq_zero_iff.mp length]
  | cons right rhs ih =>
    cases lhs with
    | nil => simp at length
    | cons left lhs =>
      have nonzero : right ≠ 0 := plain right List.mem_cons_self
      have tails := @ih lhs (by simpa using length)
        fun later member => plain later (List.mem_cons_of_mem _ member)
      rw [List.length_cons, strncmp_cons]
      by_cases stop : left ≠ right ∨ left = 0
      · rw [if_pos stop]
        have differ : left ≠ right := by
          rcases stop with differ | zero
          · exact differ
          · exact fun same => nonzero (same ▸ zero)
        have apart : left.toNat ≠ right.toNat := fun same => differ (UInt8.toNat_inj.mp same)
        simp only [List.cons.injEq, differ, false_and, iff_false]
        intro equal
        have same := Int.sub_eq_zero.mp equal
        exact apart (by exact_mod_cast same)
      · have same : left = right := by
          by_contra differ
          exact stop (.inl differ)
        rw [if_neg stop, tails]
        simp [same]

end Unarddeg
