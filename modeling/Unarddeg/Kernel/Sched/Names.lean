import Unarddeg.Kernel.Sched.ProcList
import Unarddeg.Kernel.Vfs.Folded
import Unarddeg.Library.Decimal

/-!
# The names of the processes

`UlToString` of `kernel/string.c` and the names that `SchedulerCreateProc` gives with it. The second
loop of `UlToString` runs over the whole string and exchanges every two inner bytes twice, so only
the first and the last digit change places (`ulToString_cases`). Up to three digits that is the
numeral, and beyond them exactly when the inner digits read the same both ways
(`process_named_iff`).
-/

namespace Unarddeg

open Library

/-! ## The digit loop -/

/-- The first loop stores the digits, least significant first. -/
theorem ulDigits_eq {remaining number : Nat} (positive : 0 < remaining)
    (fits : number < 10 ^ remaining) :
    ulDigits remaining number = (lowDigits number).map digitByte := by
  induction remaining generalizing number with
  | zero => omega
  | succ remaining ih =>
    rw [ulDigits]
    by_cases small : number < 10
    · rw [if_pos (by omega), lowDigits_small small, Nat.mod_eq_of_lt small]
      rfl
    · have less : number / 10 < 10 ^ remaining := by
        rw [pow_succ] at fits
        omega
      have more : 0 < remaining := by
        by_contra none
        obtain rfl : remaining = 0 := by omega
        rw [pow_zero] at less
        omega
      rw [if_neg (by omega), lowDigits_large (by omega), ih more less]
      rfl

/-- A number of some bytes has at most three digits for each of them. -/
theorem fits_digits {size number : Nat} (fits : number < 2 ^ (8 * size)) :
    number < 10 ^ (size * 3) := by
  have larger : (2 ^ 8) ^ size ≤ (10 ^ 3) ^ size := Nat.pow_le_pow_left (by decide) size
  rw [← pow_mul, ← pow_mul, Nat.mul_comm 3 size] at larger
  omega

/-! ## The swap loop -/

section Swap

variable {bytes : List UInt8} {last rounds index : Nat}

/-- Exchanging two bytes keeps the length. -/
@[simp] theorem swapBytes_length (bytes : List UInt8) (left right : Nat) :
    (swapBytes bytes left right).length = bytes.length := by
  simp [swapBytes]

/-- The bytes after an exchange. -/
theorem swapBytes_getElem? {left right : Nat} (leftInside : left < bytes.length)
    (rightInside : right < bytes.length) (index : Nat) : (swapBytes bytes left right)[index]? =
      if index = right then bytes[left]? else if index = left then bytes[right]?
      else bytes[index]? := by
  unfold swapBytes
  rw [List.getElem?_set, List.getElem?_set, List.length_set,
    List.getD_eq_getElem _ _ leftInside, List.getD_eq_getElem _ _ rightInside,
    List.getElem?_eq_getElem leftInside, List.getElem?_eq_getElem rightInside]
  by_cases first : index = right
  · simp [first, rightInside]
  · by_cases second : index = left
    · subst second
      grind
    · simp [first, second, Ne.symm first, Ne.symm second]

/-- The first rounds of the loop. -/
def swapRounds (bytes : List UInt8) (last rounds : Nat) : List UInt8 :=
  (List.range rounds).foldl (fun bytes j => swapBytes bytes j (last - j)) bytes

/-- One more round. -/
theorem swapRounds_succ : swapRounds bytes last (rounds + 1) =
    swapBytes (swapRounds bytes last rounds) rounds (last - rounds) := by
  unfold swapRounds
  rw [List.range_succ, List.foldl_append]
  rfl

/-- The loop keeps the length. -/
theorem swapRounds_length : (swapRounds bytes last rounds).length = bytes.length := by
  induction rounds with
  | zero => rfl
  | succ rounds ih => rw [swapRounds_succ, swapBytes_length, ih]

/-- A byte and its mirror image are exchanged in the rounds of both, so after both they stand where
they stood. -/
theorem swapRounds_getElem? (whole : bytes.length = last + 1) (inside : rounds ≤ last)
    (index_le : index ≤ last) : (swapRounds bytes last rounds)[index]? =
      if index < rounds ↔ last - index < rounds then bytes[index]? else bytes[last - index]? := by
  induction rounds generalizing index with
  | zero => simp [swapRounds]
  | succ rounds ih =>
    have length := @swapRounds_length bytes last rounds
    have here := ih (by omega) (show rounds ≤ last by omega)
    have there := ih (by omega) (show last - rounds ≤ last by omega)
    have kept := ih (by omega) index_le
    have back : last - (last - rounds) = rounds := by omega
    rw [back] at there
    rw [swapRounds_succ, swapBytes_getElem? (by omega) (by omega), here, there, kept]
    by_cases right : index = last - rounds
    · subst right
      rw [back]
      by_cases middle : last - rounds = rounds
      · simp [middle]
      · have same : last - rounds < rounds + 1 ↔ last - rounds < rounds := by omega
        by_cases before : last - rounds < rounds <;> simp [same, before]
    · have mirror : last - index < rounds + 1 ↔ last - index < rounds := by omega
      simp only [if_neg right, mirror]
      by_cases left : index = rounds
      · subst left
        by_cases before : last - index < index <;> simp [before]
      · have same : index < rounds + 1 ↔ index < rounds := by omega
        simp only [if_neg left, same]

/-- The loop exchanges the first and the last byte only. -/
theorem swapRounds_ends (first final : UInt8) (inner : List UInt8) :
    swapRounds (first :: (inner ++ [final])) (inner.length + 1) (inner.length + 1) =
      final :: (inner ++ [first]) := by
  have whole : (first :: (inner ++ [final])).length = inner.length + 1 + 1 := by simp
  apply List.ext_getElem?
  intro index
  by_cases inside : index ≤ inner.length + 1
  · rw [swapRounds_getElem? whole (Nat.le_refl _) inside]
    grind
  · have outside := @swapRounds_length (first :: (inner ++ [final])) (inner.length + 1)
      (inner.length + 1)
    rw [List.getElem?_eq_none (by omega), List.getElem?_eq_none (by simp; omega)]

end Swap

/-! ## Numerals -/

section Numerals

variable {size number : Nat}

/-- `UlToString` of a number with one digit is that digit; of any other number it is the numeral
with the inner digits in reverse order. -/
theorem ulToString_cases (positive : 0 < size) (fits : number < 2 ^ (8 * size)) :
    (∃ digit, lowDigits number = [digit] ∧ ulToString size number = [digitByte digit]) ∨
      ∃ last inner first, lowDigits number = last :: (inner ++ [first]) ∧ first ≠ 0 ∧
        ulToString size number = (first :: (inner ++ [last])).map digitByte := by
  have digits := ulDigits_eq (show 0 < size * 3 by omega) (fits_digits fits)
  have rounds : ulToString size number = swapRounds (ulDigits (size * 3) number)
      ((ulDigits (size * 3) number).length - 1) ((ulDigits (size * 3) number).length - 1) := rfl
  rw [rounds, digits]
  rcases lowDigits_cases number with ⟨digit, one⟩ | ⟨last, inner, first, more, leading⟩
  · left
    rw [one]
    exact ⟨digit, rfl, rfl⟩
  · right
    refine ⟨last, inner, first, more, leading, ?_⟩
    have swapped := swapRounds_ends (digitByte last) (digitByte first) (inner.map digitByte)
    rw [more]
    simpa using swapped

/-- A number with one digit has no inner digits. -/
theorem innerPalindrome_one {digit : Nat} (one : lowDigits number = [digit]) :
    InnerPalindrome number := by
  unfold InnerPalindrome innerDigits
  rw [one]
  rfl

/-- The inner digits of any other number. -/
theorem innerPalindrome_more {last first : Nat} {inner : List Nat}
    (more : lowDigits number = last :: (inner ++ [first])) :
    InnerPalindrome number ↔ inner.reverse = inner := by
  unfold InnerPalindrome innerDigits
  rw [more, List.tail_cons, List.dropLast_concat]

/-- The last and the inner digits of a number are digits. -/
theorem parts_lt {last first : Nat} {inner : List Nat}
    (more : lowDigits number = last :: (inner ++ [first])) :
    last < 10 ∧ ∀ digit ∈ inner, digit < 10 := by
  have small := @lowDigits_lt number
  rw [more] at small
  refine ⟨small List.mem_cons_self, fun digit member => ?_⟩
  exact small (List.mem_cons_of_mem _ (List.mem_append_left _ member))

/-- What `UlToString` prints of a number are digits. -/
theorem printed_lt {last first : Nat} {inner : List Nat}
    (more : lowDigits number = last :: (inner ++ [first])) :
    ∀ digit ∈ first :: (inner ++ [last]), digit < 10 := by
  intro digit member
  apply @lowDigits_lt number
  rw [more]
  simp only [List.mem_cons, List.mem_append, List.not_mem_nil, or_false] at member ⊢
  tauto

/-- `UlToString` is read back as the number with the inner digits in reverse order. -/
theorem numeralValue_ulToString {last first : Nat} {inner : List Nat}
    (more : lowDigits number = last :: (inner ++ [first]))
    (result : ulToString size number = (first :: (inner ++ [last])).map digitByte) :
    numeralValue (ulToString size number) =
      Nat.ofDigits 10 (last :: (inner.reverse ++ [first])) := by
  rw [result, numeralValue_map (printed_lt more)]
  simp

/-- `UlToString` is read back as less than twice the number, or as the number. -/
theorem numeralValue_lt (positive : 0 < size) (fits : number < 2 ^ (8 * size)) :
    numeralValue (ulToString size number) = number ∨
      numeralValue (ulToString size number) < 2 * number := by
  rcases ulToString_cases positive fits with ⟨digit, one, result⟩ |
    ⟨last, inner, first, more, leading, result⟩
  · left
    have back := numeralValue_numeral number
    unfold numeral at back
    rw [one] at back
    rw [result]
    exact back
  · right
    obtain ⟨lastSmall, innerSmall⟩ := parts_lt more
    have bound := ofDigits_inner_reverse_lt lastSmall innerSmall leading
    rw [← more, ofDigits_lowDigits] at bound
    rwa [numeralValue_ulToString more result]

/-- `UlToString` is read back as the number exactly when the inner digits are a palindrome. -/
theorem numeralValue_ulToString_iff (positive : 0 < size) (fits : number < 2 ^ (8 * size)) :
    numeralValue (ulToString size number) = number ↔ InnerPalindrome number := by
  rcases ulToString_cases positive fits with ⟨digit, one, result⟩ |
    ⟨last, inner, first, more, _, result⟩
  · have back := numeralValue_numeral number
    unfold numeral at back
    rw [one] at back
    rw [result]
    exact iff_of_true back (innerPalindrome_one one)
  · obtain ⟨_, innerSmall⟩ := parts_lt more
    have same := @ofDigits_inner_reverse_iff last first inner innerSmall
    rw [← more, ofDigits_lowDigits] at same
    rw [numeralValue_ulToString more result, same, innerPalindrome_more more]

/-- `UlToString` is the numeral exactly when the inner digits are a palindrome. -/
theorem ulToString_iff (positive : 0 < size) (fits : number < 2 ^ (8 * size)) :
    ulToString size number = numeral number ↔ InnerPalindrome number := by
  constructor
  · intro same
    rw [← numeralValue_ulToString_iff positive fits, same]
    exact numeralValue_numeral number
  · intro palindrome
    unfold numeral
    rcases ulToString_cases positive fits with ⟨digit, one, result⟩ |
      ⟨last, inner, first, more, _, result⟩
    · rw [result, one]
      rfl
    · rw [result, more, ← List.map_reverse]
      rw [innerPalindrome_more more] at palindrome
      simp [palindrome]

/-- The bytes of `UlToString` are digits. -/
theorem ulToString_plain_bytes (positive : 0 < size) (fits : number < 2 ^ (8 * size)) :
    ∀ byte ∈ ulToString size number, byte ≠ 0 := by
  have nonzero : ∀ digits : List Nat, (∀ digit ∈ digits, digit < 10) →
      ∀ byte ∈ digits.map digitByte, byte ≠ 0 := by
    intro digits small byte member zero
    obtain ⟨digit, inside, rfl⟩ := List.mem_map.mp member
    have value := digitByte_toNat (small digit inside)
    rw [zero] at value
    exact absurd value (by simp)
  rcases ulToString_cases positive fits with ⟨digit, one, result⟩ |
    ⟨last, inner, first, more, _, result⟩
  · rw [result]
    apply nonzero [digit]
    intro other member
    apply @lowDigits_lt number
    rwa [one]
  · rw [result]
    exact nonzero _ (printed_lt more)

/-- The string of `UlToString` has as many bytes as the number has digits, at most three for each of
its bytes. -/
theorem ulToString_length : (ulToString size number).length ≤ size * 3 := by
  have bound : ∀ remaining number, (ulDigits remaining number).length ≤ remaining := by
    intro remaining
    induction remaining with
    | zero =>
      intro number
      simp [ulDigits]
    | succ remaining ih =>
      intro number
      rw [ulDigits]
      split
      · simp
      · simpa using ih (number / 10)
  have rounds : ulToString size number = swapRounds (ulDigits (size * 3) number)
      ((ulDigits (size * 3) number).length - 1) ((ulDigits (size * 3) number).length - 1) := rfl
  rw [rounds, swapRounds_length]
  exact bound (size * 3) number

end Numerals

/-! ## Processes -/

/-- A string without zero bytes that is not longer than the limit is measured to its end. -/
theorem strnlen_plain {bytes : List UInt8} {limit : Nat} (plain : ∀ byte ∈ bytes, byte ≠ 0)
    (short : bytes.length ≤ limit) : strnlen bytes limit = bytes.length := by
  induction bytes generalizing limit with
  | nil => cases limit <;> rfl
  | cons byte bytes ih =>
    obtain ⟨less, rfl⟩ : ∃ less, limit = less + 1 := ⟨limit - 1, by simp at short; omega⟩
    have rest := @ih less (fun later member => plain later (List.mem_cons_of_mem _ member))
      (by simpa using short)
    rw [strnlen, List.headD_cons, if_neg (plain byte List.mem_cons_self), List.tail_cons, rest,
      List.length_cons]

/-- A name that is as long as its string is that string. -/
theorem fullName_eq {node : VNode} (whole : node.name.length = node.name.name.length) :
    node.fullName = node.name.name := by
  unfold VNode.fullName
  rw [whole]
  apply List.ext_getElem
  · simp
  · intro index _ inside
    simp [inside]

section Processes

variable {width : Nat} {Registers : Type} {allocator : Allocator} {fuel : Nat}
  {initialState : Registers} {before after : KernelState width Registers} {new : Address}

/-- `SchedulerCreateProc` registers a node under `/proc` that has the name of the process
identifier in its task. -/
theorem schedulerCreateProc_named
    (returned : schedulerCreateProc allocator fuel initialState before = .ok new after) :
    ∃ proc task, relativeFind before.node fuel (some rootVNode) procDir = .ok (some proc) ∧
      (after.node proc).firstChild = some new ∧ (after.node new).driverData = some task ∧
      (after.node new).name = processName width (after.task task).programIdentifier := by
  simp only [schedulerCreateProc, bind_ok, get_ok, set_ok, ofExcept_ok, pure_ok] at returned
  obtain ⟨_, _, ⟨rfl, rfl⟩, found, _, ⟨resolved, rfl⟩, _, _, rfl, node, _, made, _, _, registered,
    rfl, rfl⟩ := returned
  obtain ⟨data, block, fresh, rfl⟩ := makeProcess_ok made
  cases found with
  | none => simp [registerChildVNode, bind_ok] at registered
  | some proc =>
    obtain rfl := registerChildVNode_ok registered
    refine ⟨proc, data, resolved, ?_, ?_, ?_⟩
    · simp [attach]
    · simp [attach, KernelState.making, KernelState.creatingNodes, processNode]
    · simp [attach, KernelState.making, KernelState.creatingNodes, processNode]

/-- The full name of a process, on a target with 32 or 64 bits. -/
theorem processName_full (target : width = 32 ∨ width = 64) {node : VNode}
    {programIdentifier : UInt64} (named : node.name = processName width programIdentifier) :
    node.fullName = ulToString (width / 8) (programIdentifier.toNat % 2 ^ width) := by
  have bytes : 0 < width / 8 ∧ 8 * (width / 8) = width ∧ width / 8 * 3 ≤ 32 := by
    rcases target with rfl | rfl <;> decide
  have fits : programIdentifier.toNat % 2 ^ width < 2 ^ (8 * (width / 8)) := by
    rw [bytes.2.1]
    exact Nat.mod_lt _ (Nat.two_pow_pos width)
  have plain := ulToString_plain_bytes bytes.1 fits
  have short : (ulToString (width / 8) (programIdentifier.toNat % 2 ^ width)).length ≤ 32 :=
    Nat.le_trans ulToString_length bytes.2.2
  have whole : node.name.length = node.name.name.length := by
    rw [named]
    exact strnlen_plain plain short
  rw [fullName_eq whole, named]
  rfl

/-- A name is the numeral of the process identifier exactly when the identifier fits the argument
of `UlToString` and its inner digits are a palindrome. -/
theorem named_iff (target : width = 32 ∨ width = 64) (programIdentifier : Nat) :
    (numeralValue (ulToString (width / 8) (programIdentifier % 2 ^ width)) = programIdentifier ↔
      programIdentifier < 2 ^ width ∧ InnerPalindrome programIdentifier) ∧
    (ulToString (width / 8) (programIdentifier % 2 ^ width) = numeral programIdentifier ↔
      programIdentifier < 2 ^ width ∧ InnerPalindrome programIdentifier) := by
  have bytes : 0 < width / 8 ∧ 8 * (width / 8) = width := by
    rcases target with rfl | rfl <;> decide
  have fits : programIdentifier % 2 ^ width < 2 ^ (8 * (width / 8)) := by
    rw [bytes.2]
    exact Nat.mod_lt _ (Nat.two_pow_pos width)
  -- A number read back that is larger would be at least `2 ^ width` larger.
  have small : numeralValue (ulToString (width / 8) (programIdentifier % 2 ^ width)) =
      programIdentifier → programIdentifier < 2 ^ width := by
    intro same
    have near := numeralValue_lt bytes.1 fits
    by_contra large
    have split := Nat.mod_add_div programIdentifier (2 ^ width)
    have once : 2 ^ width * 1 ≤ 2 ^ width * (programIdentifier / 2 ^ width) :=
      Nat.mul_le_mul_left _ ((Nat.one_le_div_iff (Nat.two_pow_pos width)).mpr (by omega))
    rw [bytes.2] at fits
    omega
  have value : numeralValue (ulToString (width / 8) (programIdentifier % 2 ^ width)) =
      programIdentifier ↔ programIdentifier < 2 ^ width ∧ InnerPalindrome programIdentifier := by
    constructor
    · intro same
      have less := small same
      rw [Nat.mod_eq_of_lt less] at same fits
      exact ⟨less, (numeralValue_ulToString_iff bytes.1 fits).mp same⟩
    · rintro ⟨less, palindrome⟩
      rw [Nat.mod_eq_of_lt less] at fits ⊢
      exact (numeralValue_ulToString_iff bytes.1 fits).mpr palindrome
  refine ⟨value, ?_⟩
  constructor
  · intro same
    apply value.mp
    rw [same, numeralValue_numeral]
  · rintro ⟨less, palindrome⟩
    rw [Nat.mod_eq_of_lt less] at fits ⊢
    exact (ulToString_iff bytes.1 fits).mpr palindrome

/-- **Names.** `UlToString` prints the numeral of a number exactly when its inner digits read the
same both ways. The node that `SchedulerCreateProc` registers under `/proc` is named by the numeral
of its process identifier, and the identifier can be read back from the name, exactly when besides
the identifier fits an `unsigned long`. -/
theorem process_named_iff (target : width = 32 ∨ width = 64) :
    (∀ number < 2 ^ width,
      ulToString (width / 8) number = numeral number ↔ InnerPalindrome number) ∧
    ∀ (allocator : Allocator) (fuel : Nat) (initialState : Registers)
      (before after : KernelState width Registers) (new : Address),
      schedulerCreateProc allocator fuel initialState before = .ok new after →
      ∃ proc task, relativeFind before.node fuel (some rootVNode) procDir = .ok (some proc) ∧
        (after.node proc).firstChild = some new ∧ (after.node new).driverData = some task ∧
        ((after.node new).fullName = numeral (after.task task).programIdentifier.toNat ↔
          (after.task task).programIdentifier.toNat < 2 ^ width ∧
            InnerPalindrome (after.task task).programIdentifier.toNat) ∧
        (numeralValue (after.node new).fullName = (after.task task).programIdentifier.toNat ↔
          (after.task task).programIdentifier.toNat < 2 ^ width ∧
            InnerPalindrome (after.task task).programIdentifier.toNat) := by
  constructor
  · intro number less
    have bytes : 0 < width / 8 ∧ 8 * (width / 8) = width := by
      rcases target with rfl | rfl <;> decide
    exact ulToString_iff bytes.1 (bytes.2.symm ▸ less)
  · intro allocator fuel initialState before after new returned
    obtain ⟨proc, task, found, first, data, named⟩ := schedulerCreateProc_named returned
    rw [processName_full target named]
    obtain ⟨value, name⟩ := named_iff target (after.task task).programIdentifier.toNat
    exact ⟨proc, task, found, first, data, name, value⟩

end Processes

/-- The scheduler after its start. -/
def namedStart : KernelState 32 Unit :=
  stateAfter (schedulerInitialise .next 4 ()) (.bareRoot 32 ())

/-- The kernel with a second process. -/
def namedSecond : KernelState 32 Unit := stateAfter (schedulerCreateProc .next 4 ()) namedStart

/-- The second process is named `1`, and a number of three digits is printed as its numeral. -/
theorem process_named_iff_second :
    (ulToString 4 123 = numeral 123 ↔ InnerPalindrome 123) ∧
      ∃ task, (namedSecond.node 6).driverData = some task ∧
        (namedSecond.node 6).fullName =
          numeral (namedSecond.task task).programIdentifier.toNat := by
  have results := @process_named_iff 32 Unit (.inl rfl)
  refine ⟨results.1 123 (by decide), ?_⟩
  have created : schedulerCreateProc .next 4 () namedStart = .ok 6 namedSecond :=
    ok_of_resultOf (by decide +kernel)
  obtain ⟨proc, task, _, _, data, name, _⟩ := results.2 .next 4 () namedStart namedSecond 6 created
  refine ⟨task, data, name.mpr ?_⟩
  have known : (namedSecond.node 6).driverData = some 7 := by decide +kernel
  obtain rfl := Option.some.inj (data.symm.trans known)
  decide +kernel

/-- The number 1234 is printed as 1324. -/
theorem four_digits_misprinted : ¬ ∀ number < 2 ^ 32, ulToString 4 number = numeral number := by
  intro claim
  exact absurd (claim 1234 (by decide)) (by decide +kernel)

end Unarddeg
