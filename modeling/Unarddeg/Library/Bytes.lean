import Mathlib

/-!
# Words and their bytes

A store of bytes is a function from positions. `little` reads a word from the bytes in front of it,
lowest byte first, and `byteAt` takes a word apart again; `overwrite` replaces a range of a store.
-/

namespace Unarddeg.Library

/-- The number whose bytes, lowest first, are the first ones of a store. -/
def littleNat (bytes : Nat → BitVec 8) : (count : Nat) → Nat
  | 0 => 0
  | count + 1 => 256 * littleNat (fun index => bytes (index + 1)) count + (bytes 0).toNat

/-- The word of the given width whose bytes, lowest first, are the first ones of a store. -/
def little (width : Nat) (bytes : Nat → BitVec 8) : BitVec width :=
  .ofNat width (littleNat bytes ((width + 7) / 8))

/-- A byte of a word. -/
def byteAt {width : Nat} (word : BitVec width) (index : Nat) : BitVec 8 :=
  word.extractLsb' (8 * index) 8

section Words

variable {width : Nat} {bytes other : Nat → BitVec 8} {word : BitVec width} {index : Nat}

/-- A bit of a number lies in one of its bytes. -/
theorem testBit_littleNat {count : Nat} (small : index < 8 * count) :
    (littleNat bytes count).testBit index = (bytes (index / 8)).getLsbD (index % 8) := by
  induction count generalizing bytes index with
  | zero => omega
  | succ count ih =>
    rw [littleNat, Nat.testBit_two_pow_mul_add (i := 8) _ (bytes 0).isLt]
    by_cases first : index < 8
    · rw [if_pos first, Nat.div_eq_of_lt first, Nat.mod_eq_of_lt first]
      rfl
    · obtain ⟨later, rfl⟩ := Nat.exists_eq_add_of_le (Nat.le_of_not_lt first)
      rw [if_neg first, Nat.add_sub_cancel_left, ih (by omega), Nat.add_mod_left,
        Nat.add_div_left later (by decide)]

/-- A bit of a word lies in one of its bytes. -/
theorem getLsbD_little (small : index < width) :
    (little width bytes).getLsbD index = (bytes (index / 8)).getLsbD (index % 8) := by
  rw [little, BitVec.getLsbD_ofNat, testBit_littleNat (by omega)]
  simp [small]

/-- A word is read back from its bytes. -/
theorem little_byteAt : little width (byteAt word) = word := by
  refine BitVec.eq_of_getLsbD_eq fun place small => ?_
  rw [getLsbD_little small, byteAt, BitVec.getLsbD_extractLsb', Nat.div_add_mod]
  simp [Nat.mod_lt]

/-- The bytes of a word that was read are those of the store. -/
theorem byteAt_little (inside : 8 * index + 8 ≤ width) :
    byteAt (little width bytes) index = bytes index := by
  refine BitVec.eq_of_getLsbD_eq fun place small => ?_
  rw [byteAt, BitVec.getLsbD_extractLsb', getLsbD_little (by omega), Nat.mul_add_div (by decide),
    Nat.mul_add_mod, Nat.mod_eq_of_lt small, Nat.div_eq_of_lt small]
  simp [small]

/-- A word only depends on its bytes. -/
theorem little_congr (same : ∀ index, 8 * index < width → bytes index = other index) :
    little width bytes = little width other := by
  refine BitVec.eq_of_getLsbD_eq fun place small => ?_
  rw [getLsbD_little small, getLsbD_little small, same _ (by omega)]

/-- The low part of a word has the first bytes. -/
theorem little_setWidth {part : Nat} (small : part ≤ width) :
    (little width bytes).setWidth part = little part bytes := by
  refine BitVec.eq_of_getLsbD_eq fun place inside => ?_
  rw [BitVec.getLsbD_setWidth, getLsbD_little (by omega), getLsbD_little inside]
  simp [inside]

/-- The word of zero bytes is zero. -/
theorem little_zero : little width (fun _ => 0) = 0 := by
  refine BitVec.eq_of_getLsbD_eq fun place small => ?_
  simp [getLsbD_little small]

end Words

/-- A store from a position on. -/
def slice (bytes : Nat → BitVec 8) (start : Nat) : Nat → BitVec 8 := fun index =>
  bytes (start + index)

/-- A store from a position on, from another one on. -/
theorem slice_slice (bytes : Nat → BitVec 8) (start further : Nat) :
    slice (slice bytes start) further = slice bytes (start + further) :=
  funext fun index => congrArg bytes (Nat.add_assoc start further index).symm

/-- A word is joined from its high and its low part. -/
theorem little_join {bytes : Nat → BitVec 8} {count high : Nat} :
    (little high (slice bytes count)).setWidth (8 * count + high) <<< (8 * count) |||
        (little (8 * count) bytes).setWidth (8 * count + high) =
      little (8 * count + high) bytes := by
  refine BitVec.eq_of_getLsbD_eq fun place small => ?_
  rw [BitVec.getLsbD_or, BitVec.getLsbD_shiftLeft, BitVec.getLsbD_setWidth, BitVec.getLsbD_setWidth,
    getLsbD_little small]
  by_cases low : place < 8 * count
  · rw [getLsbD_little low]
    simp [small, low]
  · obtain ⟨later, rfl⟩ := Nat.exists_eq_add_of_le (Nat.le_of_not_lt low)
    have inside : later < high := by omega
    have beyond : (little (8 * count) bytes).getLsbD (8 * count + later) = false :=
      BitVec.getLsbD_of_ge _ _ (by omega)
    rw [beyond, Nat.add_sub_cancel_left, getLsbD_little inside, slice,
      Nat.mul_add_div (by decide), Nat.mul_add_mod]
    simp [small]
    omega

/-- A store from its start on. -/
theorem slice_zero (bytes : Nat → BitVec 8) : slice bytes 0 = bytes :=
  funext fun index => congrArg bytes (Nat.zero_add index)

/-- A store with other bytes in a range. -/
def overwrite (bytes : Nat → BitVec 8) (start length : Nat) (source : Nat → BitVec 8) :
    Nat → BitVec 8 := fun position =>
  if start ≤ position ∧ position < start + length then source (position - start)
  else bytes position

section Overwrite

variable {bytes source : Nat → BitVec 8} {start length position index : Nat}

/-- The range holds the new bytes. -/
theorem overwrite_inside (inside : index < length) :
    overwrite bytes start length source (start + index) = source index := by
  rw [overwrite, if_pos (by omega), Nat.add_sub_cancel_left]

/-- Outside the range nothing changes. -/
theorem overwrite_outside (outside : position < start ∨ start + length ≤ position) :
    overwrite bytes start length source position = bytes position :=
  if_neg (by omega)

/-- A range that lies apart reads as before. -/
theorem slice_overwrite_apart {other : Nat} (inside : other + index < start ∨
    start + length ≤ other + index) :
    slice (overwrite bytes start length source) other index = slice bytes other index :=
  overwrite_outside inside

/-- Only the new bytes of the range matter. -/
theorem overwrite_congr {other : Nat → BitVec 8}
    (same : ∀ index < length, source index = other index) :
    overwrite bytes start length source = overwrite bytes start length other := by
  funext position
  unfold overwrite
  by_cases inside : start ≤ position ∧ position < start + length
  · rw [if_pos inside, if_pos inside, same _ (by omega)]
  · rw [if_neg inside, if_neg inside]

/-- Two ranges one behind the other are one range. -/
theorem overwrite_append {further : Nat} :
    overwrite (overwrite bytes start length source) (start + length) further
        (slice source length) = overwrite bytes start (length + further) source := by
  funext position
  unfold overwrite slice
  by_cases first : start ≤ position ∧ position < start + length
  · rw [if_neg (by omega), if_pos first, if_pos (by omega)]
  · by_cases second : start + length ≤ position ∧ position < start + length + further
    · rw [if_pos second, if_pos (by omega), show length + (position - (start + length)) =
        position - start by omega]
    · rw [if_neg second, if_neg first, if_neg (by omega)]

/-- Writing back a part of a store with some of its bytes replaced replaces these bytes. -/
theorem overwrite_slice_overwrite {place count : Nat} (inside : place + count ≤ length) :
    overwrite bytes start length (overwrite (slice bytes start) place count source) =
      overwrite bytes (start + place) count source := by
  funext position
  unfold overwrite slice
  by_cases part : start + place ≤ position ∧ position < start + place + count
  · rw [if_pos (by omega), if_pos (by omega), if_pos part, Nat.sub_sub]
  · rw [if_neg part]
    by_cases whole : start ≤ position ∧ position < start + length
    · rw [if_pos whole, if_neg (by omega), Nat.add_sub_of_le whole.1]
    · rw [if_neg whole]

/-- An empty range changes nothing. -/
theorem overwrite_empty : overwrite bytes start 0 source = bytes := by
  funext position
  exact if_neg (by omega)

end Overwrite

end Unarddeg.Library
