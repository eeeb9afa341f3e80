import Unarddeg.Kernel.Vfs.Devices

/-!
# The bytes of the generator

`RandomReadFunction` takes a word from the generator in every fourth round of a loop over bytes and
stores it whole. So it fills the buffer up to the next multiple of four, which is the end of the
request exactly when this is one (`random_fills_iff`).
-/

namespace Unarddeg

open Library

/-- A byte of the words that the generator gives from a state on. -/
def streamByte (seed : BitVec 32) (index : Nat) : BitVec 8 :=
  byteAt (xorshift32^[index / 4 + 1] seed) (index % 4)

section Random

variable {width : Nat} {dest : Nat → BitVec 8} {seed : BitVec 32}

/-- The words that are taken for some bytes. -/
def wordsFor (count : Nat) : Nat := (count + 3) / 4

/-- Four bytes of the stream are those of the next word. -/
theorem overwrite_nextWord (words : Nat) :
    overwrite (overwrite dest 0 (4 * words) (streamByte seed)) (4 * words) 4
        (byteAt (xorshift32 (xorshift32^[words] seed))) =
      overwrite dest 0 (4 * (words + 1)) (streamByte seed) := by
  have word : ∀ index < 4, byteAt (xorshift32 (xorshift32^[words] seed)) index =
      slice (streamByte seed) (4 * words) index := by
    intro index small
    rw [slice, streamByte, Nat.mul_add_div (by decide), Nat.div_eq_of_lt small, Nat.add_zero,
      Nat.mul_add_mod, Nat.mod_eq_of_lt small, Function.iterate_succ_apply']
  have behind := @overwrite_append dest (streamByte seed) 0 (4 * words) 4
  rw [Nat.zero_add] at behind
  rw [overwrite_congr word, behind, Nat.mul_succ]

/-- The loop stores the words that it takes, one behind the other. -/
theorem foldl_randomRound (count : Nat) :
    (List.range count).foldl randomRound (dest, seed) =
      (overwrite dest 0 (4 * wordsFor count) (streamByte seed),
        xorshift32^[wordsFor count] seed) := by
  induction count with
  | zero =>
    show (dest, seed) = (overwrite dest 0 0 (streamByte seed), seed)
    rw [overwrite_empty]
  | succ count ih =>
    rw [List.range_succ, List.foldl_append, ih, List.foldl_cons, List.foldl_nil, randomRound]
    by_cases first : count % 4 = 0
    · have here : 4 * wordsFor count = count := by
        unfold wordsFor
        omega
      have next : wordsFor (count + 1) = wordsFor count + 1 := by
        unfold wordsFor
        omega
      rw [if_pos first, next, Function.iterate_succ_apply', ← overwrite_nextWord, here]
    · have same : wordsFor (count + 1) = wordsFor count := by
        unfold wordsFor
        omega
      rw [if_neg first, same]

/-- `RandomReadFunction` fills the buffer up to the end of its last word. -/
theorem randomReadFunction_eq (ticks : BitVec 64) (entropy : Entropy)
    (size elements : BitVec width) :
    ∃ transfer after, randomReadFunction ticks entropy (some dest) size elements =
      .ok (transfer, overwrite dest 0 (4 * wordsFor (size * elements).toNat)
        (streamByte (mixEntropy ticks entropy).rngState), after) := by
  unfold randomReadFunction
  simp only [checked, bind, Except.bind, foldl_randomRound]
  exact ⟨_, _, rfl⟩

/-- A store of foreign bytes tells how many of them are replaced. -/
theorem overwrite_length {source : Nat → BitVec 8} {length other : Nat}
    (foreign : ∀ index, dest index ≠ source index)
    (same : overwrite dest 0 length source = overwrite dest 0 other source) : length = other := by
  have apart : ∀ {less more : Nat}, less < more →
      overwrite dest 0 less source ≠ overwrite dest 0 more source := by
    intro less more ordered equal
    have byte := congrFun equal less
    rw [overwrite_outside (.inr (by omega)), overwrite, if_pos ⟨Nat.zero_le _, by omega⟩] at byte
    exact foreign less byte
  rcases Nat.lt_trichotomy length other with less | equal | more
  · exact absurd same (apart less)
  · exact equal
  · exact absurd same.symm (apart more)

/-- The product of two words that no word holds is more than three bytes from what is left of it. -/
theorem product_far (size elements : BitVec width)
    (wraps : 2 ^ width ≤ size.toNat * elements.toNat) :
    (size * elements).toNat + 3 < size.toNat * elements.toNat := by
  have left := size.isLt
  have right := elements.isLt
  have large : 4 ≤ 2 ^ width := by
    by_contra narrow
    -- Then one of the words is a bit, and the product is no larger than the other one.
    have bits : ¬ 2 ≤ width := fun wide =>
      narrow (Nat.pow_le_pow_right (show 0 < 2 by decide) wide)
    have two : 2 ^ width ≤ 2 ^ 1 := Nat.pow_le_pow_right (by decide) (by omega)
    have product : size.toNat * elements.toNat ≤ 1 * elements.toNat :=
      Nat.mul_le_mul_right _ (by omega)
    omega
  have split := Nat.mod_add_div (size.toNat * elements.toNat) (2 ^ width)
  have rounds : 1 ≤ size.toNat * elements.toNat / 2 ^ width :=
    (Nat.one_le_div_iff (Nat.two_pow_pos width)).mpr wraps
  have whole : 2 ^ width ≤ 2 ^ width * (size.toNat * elements.toNat / 2 ^ width) :=
    Nat.le_mul_of_pos_right _ rounds
  rw [BitVec.toNat_mul]
  omega

/-- **The coverage.** Whatever a buffer holds, `RandomReadFunction` replaces exactly the bytes of
the request by those of the successive words of the generator if and only if their number fits an
`unsigned long` and is a multiple of four. -/
theorem random_fills_iff (ticks : BitVec 64) (entropy : Entropy) (size elements : BitVec width) :
    (∀ dest : Nat → BitVec 8, ∃ transfer after,
      randomReadFunction ticks entropy (some dest) size elements =
        .ok (transfer, overwrite dest 0 (size.toNat * elements.toNat)
          (streamByte (mixEntropy ticks entropy).rngState), after)) ↔
      size.toNat * elements.toNat < 2 ^ width ∧ 4 ∣ size.toNat * elements.toNat := by
  constructor
  · intro fills
    -- A buffer that differs from the stream everywhere shows every byte that is stored.
    obtain ⟨transfer, after, filled⟩ := fills fun index =>
      streamByte (mixEntropy ticks entropy).rngState index + 1
    obtain ⟨_, _, stored⟩ := @randomReadFunction_eq width
      (fun index => streamByte (mixEntropy ticks entropy).rngState index + 1) ticks entropy size
      elements
    rw [stored] at filled
    have bytes := congrArg (fun result => result.2.1) (Except.ok.inj filled)
    have foreign : ∀ byte : BitVec 8, byte + 1 ≠ byte := by
      intro byte same
      have value := congrArg BitVec.toNat same
      rw [BitVec.toNat_add] at value
      have bound := byte.isLt
      have one : (1 : BitVec 8).toNat = 1 := rfl
      omega
    have length := overwrite_length (fun index => foreign _) bytes
    unfold wordsFor at length
    have fits : size.toNat * elements.toNat < 2 ^ width := by
      by_contra wraps
      have far := product_far size elements (Nat.le_of_not_lt wraps)
      omega
    exact ⟨fits, ⟨_, length.symm⟩⟩
  · rintro ⟨fits, words, product⟩ dest
    obtain ⟨transfer, after, stored⟩ :=
      @randomReadFunction_eq width dest ticks entropy size elements
    have bytes : 4 * wordsFor (size * elements).toNat = size.toNat * elements.toNat := by
      rw [BitVec.toNat_mul, Nat.mod_eq_of_lt fits, product]
      unfold wordsFor
      omega
    rw [bytes] at stored
    exact ⟨transfer, after, stored⟩

end Random

/-- A read of one byte stores four. -/
theorem random_overruns : ¬ ∀ (ticks : BitVec 64) (entropy : Entropy) (size elements : BitVec 64)
    (dest : Nat → BitVec 8), ∃ transfer after,
      randomReadFunction ticks entropy (some dest) size elements =
        .ok (transfer, overwrite dest 0 (size.toNat * elements.toNat)
          (streamByte (mixEntropy ticks entropy).rngState), after) := by
  intro claim
  obtain ⟨transfer, after, filled⟩ := claim 0 ⟨0xDEADBEEF, 0⟩ 1 1 fun _ => 0
  have stored : overwrite (fun _ => 0) 0 (1 * 1)
      (streamByte (mixEntropy 0 ⟨0xDEADBEEF, 0⟩).rngState) 3 =
        ((List.range 1).foldl randomRound
          (fun _ => 0, (mixEntropy 0 ⟨0xDEADBEEF, 0⟩).rngState)).1 3 :=
    congrArg (fun result => result.2.1 3) (Except.ok.inj filled).symm
  exact absurd stored (by decide +kernel)

end Unarddeg
