import Unarddeg.Kernel.Vfs.Vfd

/-!
# Positions as words

`FileOffset` is a `long`, and the drivers walk it as an `unsigned long`. `VNodeSeek` checks neither
its sign nor its sum; `seekTo` is what it does to the word, as `lseek_seekTo` says of the kernel.
-/

namespace Unarddeg

open Library

variable {width : Nat}

/-- `VNodeSeek` on the word in `FileOffset`. -/
def seekTo (fileOffset offset : BitVec width) (type : Int) : Except Stop (BitVec width) :=
  if type = seekSet then .ok offset
  else if type = seekCur then .ok (fileOffset + offset)
  else if type = seekEnd then .error (.panic .todo)
  else .ok fileOffset

/-- A seek neither wraps nor ends in front of the file. -/
def SeekInside (fileOffset offset : BitVec width) (type : Int) : Prop :=
  if type = seekSet then 0 ≤ offset.toInt
  else if type = seekCur then
    0 ≤ fileOffset.toInt + offset.toInt ∧ fileOffset.toInt + offset.toInt < 2 ^ (width - 1)
  else True

instance (fileOffset offset : BitVec width) (type : Int) :
    Decidable (SeekInside fileOffset offset type) :=
  inferInstanceAs (Decidable (if type = seekSet then _ else if type = seekCur then _ ∧ _ else True))

section Seek

variable {Registers : Type} {fuel : Nat} {fd : BitVec width} {offset type result : Int}
  {before after : KernelState width Registers}

/-- The word in `FileOffset` of a node. -/
def KernelState.position (state : KernelState width Registers) (node : Address) : BitVec width :=
  BitVec.ofInt width (state.node node).fileOffset

/-- An assignment to `FileOffset`. -/
def KernelState.moved (state : KernelState width Registers) (node : Address) (fileOffset : Int) :
    KernelState width Registers :=
  state.setNode node { state.node node with fileOffset }

/-- `VNodeSeek` assigns to `FileOffset` what `seekTo` says. -/
theorem vNodeSeek_seekTo {node : Address} {value : Unit}
    (returned : vNodeSeek (some node) offset type before = .ok value after) :
    ∃ fileOffset, after = before.moved node fileOffset ∧
      seekTo (before.position node) (BitVec.ofInt width offset) type =
        .ok (BitVec.ofInt width fileOffset) := by
  unfold vNodeSeek at returned
  unfold seekTo
  split
  · next set =>
    rw [if_pos set] at returned
    obtain ⟨_, same, rfl⟩ := writeNode_ok.mp returned
    cases same
    exact ⟨offset, rfl, rfl⟩
  · next set =>
    rw [if_neg set] at returned
    split
    · next current =>
      rw [if_pos current] at returned
      obtain ⟨_, same, rfl⟩ := writeNode_ok.mp returned
      cases same
      exact ⟨_, rfl, congrArg _ (BitVec.ofInt_add _ _).symm⟩
    · next current =>
      rw [if_neg current] at returned
      split
      · next last =>
        rw [if_pos last] at returned
        exact absurd returned panicWith_ok.mp
      · next last =>
        rw [if_neg last] at returned
        obtain ⟨_, rfl⟩ := pure_ok.mp returned
        refine ⟨(before.node node).fileOffset, ?_, rfl⟩
        unfold KernelState.moved KernelState.setNode
        rw [Function.update_eq_self]

/-- `VNodeSeek` on no node changes nothing when it returns. -/
theorem vNodeSeek_none {value : Unit}
    (returned : vNodeSeek none offset type before = .ok value after) : after = before := by
  unfold vNodeSeek at returned
  simp only [ite_ok, writeNode_ok, panicWith_ok, pure_ok, reduceCtorEq, false_and, exists_false,
    and_false, false_or] at returned
  exact returned.2.2.2.2.symm

/-- The search for an entry changes nothing. -/
theorem findFrom_same {place found : EntryPlace}
    (returned : findFrom fd fuel place before = .ok found after) : before = after := by
  induction fuel generalizing place with
  | zero => cases returned
  | succ fuel ih =>
    rw [findFrom_succ] at returned
    split at returned
    · cases returned
      rfl
    · split at returned
      · cases returned
      · exact ih returned

/-- `lseek` moves the word of one node, changes nothing else and returns `FileOffset`. -/
theorem lseek_seekTo (returned : lseek fuel fd offset type before = .ok result after) :
    ∃ node, after = before.moved node result ∧
      seekTo (before.position node) (BitVec.ofInt width offset) type =
        .ok (BitVec.ofInt width result) := by
  unfold lseek find at returned
  obtain ⟨file, _, search, rest⟩ := bind_ok.mp returned
  obtain ⟨task, _, current, search⟩ := bind_ok.mp search
  obtain ⟨rfl, -⟩ := currentTask_ok current
  obtain rfl := findFrom_same search
  rw [bind_of_ok (get_ok.mpr ⟨rfl, rfl⟩)] at rest
  obtain ⟨_, middle, moved, rest⟩ := bind_ok.mp rest
  rw [bind_of_ok (get_ok.mpr ⟨rfl, rfl⟩)] at rest
  obtain ⟨_, _, read, same⟩ := bind_ok.mp rest
  obtain ⟨rfl, rfl⟩ := pure_ok.mp same
  obtain ⟨node, here, rfl, rfl⟩ := readNode_ok.mp read
  cases reference : (before.entryAt file).reference with
  | none =>
    rw [reference] at moved
    rw [vNodeSeek_none moved, reference] at here
    cases here
  | some target =>
    rw [reference] at moved
    obtain ⟨fileOffset, rfl, sought⟩ := vNodeSeek_seekTo moved
    have same : ((before.moved target fileOffset).entryAt file).reference = some target := by
      rw [← reference]
      cases file <;> rfl
    rw [same] at here
    cases here
    have now : ((before.moved node fileOffset).node node).fileOffset = fileOffset := by
      simp [KernelState.moved]
    rw [now]
    exact ⟨node, rfl, sought⟩

end Seek

/-- A sum of words that is not negative and does not wrap. -/
theorem toInt_add_inside {left right : BitVec width} (low : 0 ≤ left.toInt + right.toInt)
    (high : left.toInt + right.toInt < 2 ^ (width - 1)) :
    (left + right).toInt = left.toInt + right.toInt := by
  have double : (left.toInt + right.toInt) * 2 < (2 ^ width : Nat) := by
    cases width with
    | zero =>
      rw [BitVec.toInt_of_zero_length rfl, BitVec.toInt_of_zero_length rfl]
      decide
    | succ width =>
      rw [Nat.add_sub_cancel] at high
      push_cast [Nat.pow_succ]
      omega
  rw [BitVec.toInt_add, Int.bmod_eq_of_le_mul_two (by omega) double]

/-- A seek that stays inside ends at a position that is not negative. -/
theorem SeekInside.nonneg {fileOffset offset moved : BitVec width} {type : Int}
    (inside : SeekInside fileOffset offset type) (start : 0 ≤ fileOffset.toInt)
    (returned : seekTo fileOffset offset type = .ok moved) : 0 ≤ moved.toInt := by
  unfold SeekInside at inside
  unfold seekTo at returned
  split at returned
  · next set =>
    rw [if_pos set] at inside
    cases returned
    exact inside
  · next set =>
    rw [if_neg set] at inside
    split at returned
    · next current =>
      rw [if_pos current] at inside
      cases returned
      rw [toInt_add_inside inside.1 inside.2]
      exact inside.1
    · split at returned
      · cases returned
      · cases returned
        exact start

end Unarddeg
