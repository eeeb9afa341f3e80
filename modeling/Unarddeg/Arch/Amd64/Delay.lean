import Unarddeg.Kernel.Panic
import Mathlib

/-!
# Waiting for ticks

`Delay` of `amd64/arch.c`. `Ticks` has 64 bits and `start`, the copy that `Delay` makes of it, only
32. Of a later count the loop subtracts what is left of the earlier one, so from 2^32 ticks on it
returns too early (`delay_waits_iff`).
-/

namespace Unarddeg.Amd64

/-- The loop of `Delay`, on the values that it reads from `Ticks`: the one with which it returns, or
nothing while it waits. -/
def delayLoop (start : BitVec 32) (ticks : BitVec 64) : List (BitVec 64) → Option (BitVec 64)
  | [] => none
  | now :: later =>
    if now - start.setWidth 64 < ticks then delayLoop start ticks later else some now

/-- `Delay`, with `Ticks` at its entry and after it. -/
def delay (entry ticks : BitVec 64) (later : List (BitVec 64)) : Option (BitVec 64) :=
  delayLoop (entry.setWidth 32) ticks later

section Delay

variable {entry ticks now last : BitVec 64} {start : BitVec 32} {later : List (BitVec 64)}

/-- The loop returns with a value that it reads, and not before the difference is reached. -/
theorem delayLoop_some (returned : delayLoop start ticks later = some last) :
    last ∈ later ∧ ¬ last - start.setWidth 64 < ticks := by
  induction later with
  | nil => cases returned
  | cons now later ih =>
    rw [delayLoop] at returned
    by_cases waits : now - start.setWidth 64 < ticks
    · rw [if_pos waits] at returned
      obtain ⟨member, reached⟩ := ih returned
      exact ⟨List.mem_cons_of_mem _ member, reached⟩
    · rw [if_neg waits] at returned
      obtain rfl := Option.some.inj returned
      exact ⟨List.mem_cons_self, waits⟩

/-- The part of the entry that `start` keeps. -/
theorem start_toNat : ((entry.setWidth 32).setWidth 64).toNat = entry.toNat % 2 ^ 32 := by
  rw [BitVec.toNat_setWidth, BitVec.toNat_setWidth]
  omega

/-- From the entry on, the loop waits for the ticks behind the part that `start` keeps. -/
theorem waits_iff (after : entry ≤ now) : now - (entry.setWidth 32).setWidth 64 < ticks ↔
    now.toNat < entry.toNat % 2 ^ 32 + ticks.toNat := by
  have below : (entry.setWidth 32).setWidth 64 ≤ now := by
    rw [BitVec.le_def, start_toNat]
    exact Nat.le_trans (Nat.mod_le _ _) (BitVec.le_def.mp after)
  have kept : entry.toNat % 2 ^ 32 ≤ now.toNat := start_toNat ▸ BitVec.le_def.mp below
  rw [BitVec.lt_def, BitVec.toNat_sub_of_le below, start_toNat]
  omega

/-- The first count behind the part that `start` keeps ends the loop. -/
theorem delay_ends (after : entry ≤ now)
    (reached : entry.toNat % 2 ^ 32 + ticks.toNat ≤ now.toNat) :
    delay entry ticks [now] = some now := by
  rw [delay, delayLoop, if_neg ((waits_iff after).not.mpr (Nat.not_lt.mpr reached))]

end Delay

/-- **The wait.** However `Ticks` goes on, `Delay` only returns after its `ticks`, if and only if
the count at its entry fits `start`, or it is asked for no ticks, or `Ticks` has no room for the
part that `start` keeps and the ticks. -/
theorem delay_waits_iff (entry ticks : BitVec 64) :
    (∀ later : List (BitVec 64), (entry :: later).Pairwise (· ≤ ·) →
      ∀ last, delay entry ticks later = some last → entry.toNat + ticks.toNat ≤ last.toNat) ↔
      entry.toNat < 2 ^ 32 ∨ ticks = 0 ∨ 2 ^ 64 ≤ entry.toNat % 2 ^ 32 + ticks.toNat := by
  constructor
  · intro waits
    by_contra early
    obtain ⟨late, some, room⟩ := not_or.mp early |>.imp id not_or.mp
    have positive : 0 < ticks.toNat :=
      Nat.pos_of_ne_zero fun zero => some (BitVec.eq_of_toNat_eq zero)
    -- The count is at the later one of the entry and the ticks behind the part that is kept.
    obtain ⟨now, after, reached, before⟩ : ∃ now : BitVec 64, entry ≤ now ∧
        entry.toNat % 2 ^ 32 + ticks.toNat ≤ now.toNat ∧
          now.toNat < entry.toNat + ticks.toNat := by
      by_cases passed : entry.toNat % 2 ^ 32 + ticks.toNat ≤ entry.toNat
      · exact ⟨entry, BitVec.le_refl entry, passed, by omega⟩
      · have value : (BitVec.ofNat 64 (entry.toNat % 2 ^ 32 + ticks.toNat)).toNat =
            entry.toNat % 2 ^ 32 + ticks.toNat := by
          rw [BitVec.toNat_ofNat]
          exact Nat.mod_eq_of_lt (by omega)
        refine ⟨.ofNat 64 (entry.toNat % 2 ^ 32 + ticks.toNat), ?_, ?_, ?_⟩
        · rw [BitVec.le_def, value]
          omega
        · rw [value]
        · rw [value]
          omega
    have ordered : (entry :: [now]).Pairwise (· ≤ ·) := by
      rw [List.pairwise_cons]
      exact ⟨by simpa using after, List.pairwise_singleton _ _⟩
    have enough := waits [now] ordered now (delay_ends after reached)
    omega
  · intro exact_ later ordered last returned
    obtain ⟨member, reached⟩ := delayLoop_some returned
    have after : entry ≤ last := (List.pairwise_cons.mp ordered).1 last member
    have bound := last.isLt
    have count := Nat.le_of_not_lt ((waits_iff after).not.mp reached)
    rw [BitVec.le_def] at after
    rcases exact_ with small | rfl | vast
    · rwa [Nat.mod_eq_of_lt small] at count
    · exact after
    · omega

/-- After 2^32 ticks a wait for one tick returns at once. -/
theorem delay_returns_early : ¬ ∀ (entry ticks : BitVec 64) (later : List (BitVec 64)),
    (entry :: later).Pairwise (· ≤ ·) → ∀ last, delay entry ticks later = some last →
      entry.toNat + ticks.toNat ≤ last.toNat := by
  intro claim
  have waited := claim (2 ^ 32) 1 [2 ^ 32] (by decide) (2 ^ 32) (by decide)
  exact absurd waited (by decide)

end Unarddeg.Amd64
