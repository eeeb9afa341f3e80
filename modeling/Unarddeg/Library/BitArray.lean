import Mathlib

/-!
# Bit arrays packed in words

A bit array is a sequence of words of one width; index `i` is bit `i % width` of word
`i / width`. `test`, `mark` and `clear` are the usual mask operations, and the two update rules
say that each changes exactly its own index. `Finset` counts of the clear indices follow.
-/

namespace Unarddeg.Library

/-- Words of one width, addressed by their number. -/
abbrev BitArray (width : Nat) := Nat → BitVec width

namespace BitArray

variable {width : Nat}

/-- The word whose only set bit is that of an index. -/
def mask (width index : Nat) : BitVec width := (BitVec.ofNat width 1) <<< (index % width)

/-- Whether an index is set: its word and its mask have a common bit. -/
def test (bits : BitArray width) (index : Nat) : Bool :=
  bits (index / width) &&& mask width index != 0

/-- Set one index. -/
def mark (bits : BitArray width) (index : Nat) : BitArray width :=
  Function.update bits (index / width) (bits (index / width) ||| mask width index)

/-- Clear one index. -/
def clear (bits : BitArray width) (index : Nat) : BitArray width :=
  Function.update bits (index / width) (bits (index / width) &&& ~~~ mask width index)

/-- The bits of a mask: only that of its index. -/
theorem mask_getLsbD (index position : Nat) (bound : position < width) :
    (mask width index).getLsbD position = decide (position = index % width) := by
  simp only [mask, BitVec.getLsbD_shiftLeft, BitVec.getLsbD_one, bound, decide_true,
    Bool.true_and]
  rw [Bool.eq_iff_iff]
  simp
  omega

/-- A word shares a bit with a mask exactly when it has the mask's bit. -/
theorem and_mask_ne_zero (positive : 0 < width) (word : BitVec width) (index : Nat) :
    (word &&& mask width index != 0) = word.getLsbD (index % width) := by
  have inside : index % width < width := Nat.mod_lt _ positive
  rw [Bool.eq_iff_iff, bne_iff_ne]
  constructor
  · intro shared
    by_contra absent
    apply shared
    apply BitVec.eq_of_getLsbD_eq
    intro position bound
    by_cases same : position = index % width
    · subst same
      simp [absent]
    · simp [BitVec.getLsbD_and, mask_getLsbD index position bound, same]
  · intro present zero
    have bit := congrArg (fun value : BitVec width => value.getLsbD (index % width)) zero
    simp only [BitVec.getLsbD_and, mask_getLsbD index _ inside, present] at bit
    simp at bit

/-- An index is set exactly when its bit of its word is. -/
theorem test_eq (positive : 0 < width) (bits : BitArray width) (index : Nat) :
    bits.test index = (bits (index / width)).getLsbD (index % width) :=
  and_mask_ne_zero positive _ _

/-- Two indices agree exactly when their words and their bits in the word do. -/
theorem index_eq_iff (width left right : Nat) :
    left = right ↔ left / width = right / width ∧ left % width = right % width := by
  constructor
  · rintro rfl
    exact ⟨rfl, rfl⟩
  · rintro ⟨words, places⟩
    rw [← Nat.div_add_mod left width, ← Nat.div_add_mod right width, words, places]

/-- Marking sets its own index and no other. -/
theorem test_mark (positive : 0 < width) (bits : BitArray width) (index other : Nat) :
    (bits.mark index).test other = (decide (other = index) || bits.test other) := by
  have inside : other % width < width := Nat.mod_lt _ positive
  rw [test_eq positive, test_eq positive, mark]
  by_cases word : other / width = index / width
  · rw [word, Function.update_self, BitVec.getLsbD_or, mask_getLsbD index _ inside,
      Bool.or_comm]
    congr 1
    simp [index_eq_iff width other index, word]
  · rw [Function.update_of_ne word]
    have different : other ≠ index := fun same => word (by rw [same])
    simp [different]

/-- Clearing resets its own index and no other. -/
theorem test_clear (positive : 0 < width) (bits : BitArray width) (index other : Nat) :
    (bits.clear index).test other = (!decide (other = index) && bits.test other) := by
  have inside : other % width < width := Nat.mod_lt _ positive
  rw [test_eq positive, test_eq positive, clear]
  by_cases word : other / width = index / width
  · rw [word, Function.update_self, BitVec.getLsbD_and, BitVec.getLsbD_not,
      mask_getLsbD index _ inside, Bool.and_comm]
    simp [index_eq_iff width other index, word, inside]
  · rw [Function.update_of_ne word]
    have different : other ≠ index := fun same => word (by rw [same])
    simp [different]

/-- The indices below a bound that are clear. -/
def clearBelow (bits : BitArray width) (bound : Nat) : Finset Nat :=
  (Finset.range bound).filter fun index => bits.test index = false

/-- A clear index is an index below the bound that does not test. -/
theorem mem_clearBelow (bits : BitArray width) (bound index : Nat) :
    index ∈ bits.clearBelow bound ↔ index < bound ∧ bits.test index = false := by
  simp [clearBelow]

/-- Marking removes its index from the clear ones. -/
theorem clearBelow_mark (positive : 0 < width) (bits : BitArray width) (bound index : Nat) :
    (bits.mark index).clearBelow bound = (bits.clearBelow bound).erase index := by
  ext other
  simp only [mem_clearBelow, Finset.mem_erase, test_mark positive, Bool.or_eq_false_iff,
    decide_eq_false_iff_not]
  tauto

/-- Clearing an index below the bound adds it to the clear ones. -/
theorem clearBelow_clear (positive : 0 < width) (bits : BitArray width) (bound index : Nat)
    (below : index < bound) :
    (bits.clear index).clearBelow bound = insert index (bits.clearBelow bound) := by
  ext other
  simp only [mem_clearBelow, Finset.mem_insert, test_clear positive]
  by_cases same : other = index
  · simp [same, below]
  · simp [same]

end BitArray

end Unarddeg.Library
