import Unarddeg.Kernel.String

/-!
# The counter of `memset`

`memset` of `kernel/string.c` as a loop. Its counter is an `int`, and the length that it is compared
with is a `long`. From 2^31 on the counter would have to leave its range, so the loop is what
`memset` stands for elsewhere (`memset_loop`) and fills a block of every smaller length
(`memset_fills_iff`).
-/

namespace Unarddeg

open Library

/-- The largest `int`. -/
def intMax : Int := 0x7FFFFFFF

/-- The loop of `memset`, of at most some rounds, from the value `i` of its counter on. `++i` must
not overflow. -/
def memsetLoop (value : BitVec 8) (length : Int) :
    (rounds : Nat) → (i : Int) → (base : Nat → BitVec 8) → Except Stop (Nat → BitVec 8)
  | 0, _, _ => .error .hang
  | rounds + 1, i, base =>
    if i < length then
      let base := Function.update base i.toNat value
      if i < intMax then memsetLoop value length rounds (i + 1) base else .error .outOfBounds
    else .ok base

/-- `memset(p, v, l)`. -/
def memsetCall (rounds : Nat) (p : Option (Nat → BitVec 8)) (v : BitVec 32) (l : Int) :
    Except Stop (Nat → BitVec 8) :=
  match p with
  | none => .error (.panic .nullPointerDereference)
  | some base => memsetLoop (v.setWidth 8) l rounds 0 base

section Loop

variable {value : BitVec 8} {length i : Int} {base : Nat → BitVec 8} {rounds : Nat}

/-- A byte in front of a range that is filled belongs to the filled range. -/
theorem overwrite_update {start count : Nat} :
    overwrite (Function.update base start value) (start + 1) count (fun _ => value) =
      overwrite base start (count + 1) fun _ => value := by
  funext place
  unfold overwrite
  by_cases first : place = start
  · rw [first, if_neg (by omega), if_pos (by omega), Function.update_self]
  · rw [Function.update_of_ne first]
    by_cases inside : start + 1 ≤ place ∧ place < start + 1 + count
    · rw [if_pos inside, if_pos (by omega)]
    · rw [if_neg inside, if_neg (by omega)]

/-- With enough rounds the loop fills the rest of the block, or its counter overflows. -/
theorem memsetLoop_eq (first : 0 ≤ i) (inRange : i ≤ intMax)
    (enough : (length - i).toNat < rounds) :
    memsetLoop value length rounds i base =
      if length ≤ intMax then .ok (overwrite base i.toNat (length - i).toNat fun _ => value)
      else .error .outOfBounds := by
  induction rounds generalizing i base with
  | zero => omega
  | succ rounds ih =>
    rw [memsetLoop]
    by_cases more : i < length
    · rw [if_pos more]
      by_cases next : i < intMax
      · have rest : (length - i).toNat = (length - (i + 1)).toNat + 1 := by omega
        have place : (i + 1).toNat = i.toNat + 1 := by omega
        rw [if_pos next, ih (by omega) (by omega) (by omega), place, overwrite_update, rest]
      · rw [if_neg next, if_neg (by omega)]
    · have none : (length - i).toNat = 0 := by omega
      rw [if_neg more, if_pos (by omega), none, overwrite_empty]

/-- Only a counter that stays in its range gets to the end. -/
theorem memsetLoop_ok {after : Nat → BitVec 8} (first : 0 ≤ i) (inRange : i ≤ intMax)
    (returned : memsetLoop value length rounds i base = .ok after) : length ≤ intMax := by
  induction rounds generalizing i base with
  | zero => cases returned
  | succ rounds ih =>
    rw [memsetLoop] at returned
    by_cases more : i < length
    · rw [if_pos more] at returned
      by_cases next : i < intMax
      · rw [if_pos next] at returned
        exact ih (by omega) (by omega) returned
      · rw [if_neg next] at returned
        cases returned
    · omega

end Loop

/-- `memset` is its loop. -/
theorem memset_loop (block : Nat → BitVec 8) (value : BitVec 8) (length : Int) :
    memset block value length = memsetLoop value length (length.toNat + 1) 0 block := by
  rw [memsetLoop_eq (Int.le_refl 0) (by decide) (by rw [Int.sub_zero]; omega), Int.sub_zero]
  rfl

/-- **The counter.** `memset` returns, with its counter in the range of an `int` all the time, and
has stored the low byte of its argument at exactly the indices below the length, if and only if the
length is an `int`. -/
theorem memset_fills_iff (base : Nat → BitVec 8) (v : BitVec 32) (length : Nat) :
    (∃ rounds, memsetCall rounds (some base) v length =
      .ok (overwrite base 0 length fun _ => v.setWidth 8)) ↔ (length : Int) ≤ intMax := by
  constructor
  · rintro ⟨rounds, returned⟩
    exact memsetLoop_ok (Int.le_refl 0) (by decide) returned
  · intro small
    refine ⟨length + 1, ?_⟩
    rw [memsetCall, memsetLoop_eq (Int.le_refl 0) (by decide) (by omega), if_pos small,
      Int.sub_zero]
    rfl

/-- The first length for which the counter overflows. -/
theorem memset_overflows : ¬ ∀ (base : Nat → BitVec 8) (v : BitVec 32) (length : Nat),
    length < 2 ^ 63 → ∃ rounds, memsetCall rounds (some base) v length =
      .ok (overwrite base 0 length fun _ => v.setWidth 8) := by
  intro claim
  obtain ⟨rounds, returned⟩ := claim (fun _ => 0) 0 (2 ^ 31) (by decide)
  have small := @memsetLoop_ok _ _ _ _ rounds _ (Int.le_refl 0) (by decide) returned
  exact absurd small (by decide)

end Unarddeg
