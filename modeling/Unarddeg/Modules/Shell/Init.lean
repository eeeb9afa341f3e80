import Unarddeg.Kernel.String
import Unarddeg.Modules.Shell.Parse
import Unarddeg.Modules.Terminals

/-!
# The loop of the shell

`Init` and `SystemCommand` of `modules/shell/main.c`. In each round a line is read from `/dev/tty0`
into the 256 bytes of `Buffer`, which `memset` has cleared, and `SystemCommand` gets `Buffer` as a
string. What the commands do to the file system is left open, and so is what they read from the
terminal themselves.
-/

namespace Unarddeg.Shell

open Library

/-- What `SystemCommand` does for a string. -/
inductive Command
  | goober
  | cd (path : List UInt8)
  | ls (path : List UInt8)
  | type (path : List UInt8)
  | exit
  | other

/-- The string at `cmd[k]`. -/
def Cmd.string (cmd : Cmd) (k : Nat) : List UInt8 := (cmd.argument k).map UInt8.ofBitVec

/-- The command that is chosen for some arguments. -/
def commandOf (argc : Nat) (cmd : Cmd) : Command :=
  let name := cmd.string 0
  if strncmp name (cString ['g', 'o', 'o', 'b', 'e', 'r']) 6 = 0 then .goober
  else if strncmp name (cString ['c', 'd']) 3 = 0 ∧ argc = 2 then .cd (cmd.string 1)
  else if strncmp name (cString ['l', 's']) 3 = 0 ∧ argc = 2 then .ls (cmd.string 1)
  else if strncmp name (cString ['t', 'y', 'p', 'e']) 5 = 0 ∧ argc = 2 then .type (cmd.string 1)
  else if strncmp name (cString ['e', 'x', 'i', 't']) 4 = 0 then .exit
  else .other

/-- `SystemCommand`, given the memory from `sys` on, the characters that are still to arrive, and
which of them a command leaves, if it returns: the result, and those that are left. -/
def systemCommand (act : Command → List (BitVec 8) → Except Stop (List (BitVec 8)))
    (sys input : List (BitVec 8)) : Except Stop (Bool × List (BitVec 8)) := do
  let (argc, cmd) ← parse sys fun _ _ => 0
  match commandOf argc cmd with
  | .exit => pure (false, input)
  | .goober | .other => pure (true, input)
  | chosen =>
    let input ← act chosen input
    pure (true, input)

/-- `sizeof(Buffer)`. -/
def sizeofBuffer : Nat := 256

section Shell

variable {width : Nat}

/-- What `CreateSerialDevice` stores at the `DriverData` of `/dev/tty0`. -/
def ttyFlags : BitVec width := ttyCooked ||| ttyEcho ||| ttyNlcr ||| ttyCrnl

/-- What `memset` and `read` leave in `Buffer` in a round, given what it held. -/
def readBuffer (width : Nat) (stale : Nat → BitVec 8) (input : List (BitVec 8)) :
    Except Stop (Nat → BitVec 8) := do
  let buffer ← memset stale 0 256
  let (_, line) ← serialReadFunction (ttyFlags : BitVec width) input (some buffer)
    (.ofNat width sizeofBuffer) 1
  pure line.buf

/-- A round of the loop of `Init`. -/
structure Round where
  /-- The characters that `read` takes. -/
  arrived : List (BitVec 8)
  /-- The bytes of `Buffer` after it. -/
  buffer : Nat → BitVec 8

/-- What may be read of the string that is passed to `SystemCommand`. -/
def Round.string (round : Round) : List (BitVec 8) := (List.range sizeofBuffer).map round.buffer

/-- In a round `read` returns. -/
structure Round.Reads (width : Nat) (stale : Nat → BitVec 8) (round : Round) : Prop where
  /-- It takes these characters. -/
  takes : Consumes (readBuffer width stale) round.arrived round.arrived.length
  /-- It leaves these bytes. -/
  leaves : readBuffer width stale round.arrived = .ok round.buffer

/-- The rounds of the loop of `Init` up to a call of `SystemCommand`, given what `Buffer` holds and
the characters that are to arrive. -/
inductive Runs (width : Nat)
    (act : Command → List (BitVec 8) → Except Stop (List (BitVec 8))) :
    (Nat → BitVec 8) → List (BitVec 8) → List Round → Prop
  /-- The last round. -/
  | last {stale : Nat → BitVec 8} {round : Round} {input : List (BitVec 8)} :
      round.Reads width stale → Runs width act stale (round.arrived ++ input) [round]
  /-- A round in which `SystemCommand` returns `true`. -/
  | next {stale : Nat → BitVec 8} {round : Round} {input left : List (BitVec 8)}
      {rounds : List Round} :
      round.Reads width stale → systemCommand act round.string input = .ok (true, left) →
        Runs width act round.buffer left rounds →
          Runs width act stale (round.arrived ++ input) (round :: rounds)

/-- A line leaves a NUL in `Buffer`: it has fewer than 256 characters, or it has a NUL, or a
character behind which one was taken back. -/
def LeavesNul (width : Nat) (arrived : List (BitVec 8)) : Prop :=
  ∃ keys, keysOf (ttyFlags : BitVec width) sizeofBuffer arrived [] = some keys ∧
    (keys.length < sizeofBuffer ∨ ∃ key ∈ keys, key.chr = 0 ∨ key.bared)

variable {stale : Nat → BitVec 8} {round : Round} {arrived : List (BitVec 8)}

/-- The size of `Buffer` as an `unsigned long`. -/
theorem toNat_sizeofBuffer (long : 32 ≤ width) :
    (BitVec.ofNat width sizeofBuffer * 1).toNat = sizeofBuffer := by
  have fits : 2 ^ 32 ≤ 2 ^ width := Nat.pow_le_pow_right (by decide) long
  rw [show BitVec.ofNat width sizeofBuffer * 1 = .ofNat width sizeofBuffer by simp,
    BitVec.toNat_ofNat]
  exact Nat.mod_eq_of_lt (Nat.lt_of_lt_of_le (by decide) fits)

/-- A round reads a line into the cleared bytes. -/
theorem readBuffer_eq (width : Nat) (stale : Nat → BitVec 8) (input : List (BitVec 8)) :
    readBuffer width stale input =
      (serialReadFunction (ttyFlags : BitVec width) input
        (some (overwrite stale 0 256 fun _ => 0)) (.ofNat width sizeofBuffer) 1).map
          fun read => read.2.buf := by
  unfold readBuffer
  rw [show memset stale 0 256 = .ok (overwrite stale 0 256 fun _ => 0) from rfl]
  simp only [bind, Except.bind]
  cases serialReadFunction (ttyFlags : BitVec width) input
    (some (overwrite stale 0 256 fun _ => 0)) (.ofNat width sizeofBuffer) 1 <;> rfl

/-- The bytes that a round reads are those of the characters of its line, and behind a line that
has fewer characters than `Buffer` the last byte is clear. -/
theorem readBuffer_ok {buffer : Nat → BitVec 8} (long : 32 ≤ width)
    (returned : readBuffer width stale arrived = .ok buffer) :
    ∃ keys, keysOf (ttyFlags : BitVec width) sizeofBuffer arrived [] = some keys ∧
      keys.length ≤ sizeofBuffer ∧ Holds buffer keys ∧
      (keys.length < sizeofBuffer → buffer (sizeofBuffer - 1) = 0) := by
  rw [readBuffer_eq] at returned
  cases read : serialReadFunction (ttyFlags : BitVec width) arrived
      (some (overwrite stale 0 256 fun _ => 0)) (.ofNat width sizeofBuffer) 1 with
  | error reason =>
    rw [read] at returned
    cases returned
  | ok result =>
    rw [read] at returned
    cases returned
    have size := toNat_sizeofBuffer long
    have reads := readsChars (readLine_ok read).1
    obtain ⟨keys, line, length, held⟩ := @ReadsChars.pending _ [] _ _ _ _ _ reads trivial (by simp)
    rw [size] at line
    have most := readTill_length_le (press_length_le _) line (Nat.zero_le _)
    refine ⟨keys, line, most, held, fun fewer => ?_⟩
    have last := reads.last_clear rfl (fun _ => ?_) ?_
    · rwa [size] at last
    · rw [size]
      rfl
    · rw [BitVec.lt_def, length, size]
      exact fewer

/-- A byte of `Buffer` is a NUL exactly when the line leaves one. -/
theorem nul_mem_iff (long : 32 ≤ width) (reads : round.Reads width stale) :
    0 ∈ round.string ↔ LeavesNul width round.arrived := by
  obtain ⟨keys, line, most, held, clear⟩ := readBuffer_ok long reads.leaves
  have bare : ∀ key : Key, key.held = 0 ↔ key.chr = 0 ∨ key.bared := by
    intro key
    unfold Key.held
    cases key.bared <;> simp
  constructor
  · intro nul
    refine ⟨keys, line, ?_⟩
    by_cases fewer : keys.length < sizeofBuffer
    · exact .inl fewer
    · have bytes := held.bytes
      rw [Nat.le_antisymm most (Nat.le_of_not_lt fewer)] at bytes
      rw [Round.string, bytes, List.mem_reverse, List.mem_map] at nul
      obtain ⟨key, member, zero⟩ := nul
      exact .inr ⟨key, member, (bare key).mp zero⟩
  · rintro ⟨others, same, fewer⟩
    rw [line] at same
    cases same
    by_cases short : keys.length < sizeofBuffer
    · exact List.mem_map.mpr ⟨sizeofBuffer - 1, by decide, clear short⟩
    · obtain ⟨key, member, zero⟩ := fewer.resolve_left short
      have bytes := held.bytes
      rw [Nat.le_antisymm most (Nat.le_of_not_lt short)] at bytes
      rw [Round.string, bytes, List.mem_reverse, List.mem_map]
      exact ⟨key, member, (bare key).mpr zero⟩

/-- Every round of a run reads a line into what the one before it left. -/
theorem Runs.reads {act : Command → List (BitVec 8) → Except Stop (List (BitVec 8))}
    {input : List (BitVec 8)} {rounds : List Round} (run : Runs width act stale input rounds) :
    ∀ round ∈ rounds, ∃ stale, round.Reads width stale := by
  induction run with
  | last reads => simpa using ⟨_, reads⟩
  | next reads _ _ ih => exact List.forall_mem_cons.mpr ⟨⟨_, reads⟩, ih⟩

/-- **The terminator.** In every run of the shell, whatever the commands do, a string that is passed
to `SystemCommand` has a NUL in `Buffer`, and `Parse` stays there, exactly when its line leaves
one. -/
theorem terminated_iff (long : 32 ≤ width)
    (act : Command → List (BitVec 8) → Except Stop (List (BitVec 8)))
    (stale : Nat → BitVec 8) (input : List (BitVec 8)) (rounds : List Round)
    (run : Runs width act stale input rounds) :
    ∀ round ∈ rounds,
      0 ∈ round.string ∧ (∃ parsed, parse round.string (fun _ _ => 0) = .ok parsed) ↔
        LeavesNul width round.arrived := by
  intro round member
  obtain ⟨before, reads⟩ := run.reads round member
  rw [← nul_mem_iff long reads]
  exact ⟨fun both => both.1, fun nul => ⟨nul, _, parse_ok nul⟩⟩

/-- `read` returns when a line has arrived, with the first characters that make one. -/
theorem exists_round {input line : List (BitVec 8)} (long : 32 ≤ width)
    (stale : Nat → BitVec 8)
    (read : lineOf (ttyFlags : BitVec width) sizeofBuffer input [] = some line) :
    ∃ round : Round, ∃ later, input = round.arrived ++ later ∧ round.Reads width stale := by
  have size := toNat_sizeofBuffer long
  have nonzero : BitVec.ofNat width sizeofBuffer ≠ 0 := by
    intro zero
    have empty : (0 * 1 : BitVec width).toNat = 0 := by simp
    rw [zero, empty] at size
    exact absurd size (by decide)
  rw [← size] at read
  obtain ⟨count, ⟨most, ⟨result, returns⟩, waits⟩, _⟩ := @both_consume width ttyFlags
    (serialPuts (ttyFlags : BitVec width)) (serialPuts (ttyFlags : BitVec width)) input _ 1 nonzero
    line read (overwrite stale 0 256 fun _ => 0)
  have leaves : readBuffer width stale (input.take count) = .ok result.2.buf := by
    rw [readBuffer_eq]
    exact congrArg (Except.map fun read => read.2.buf) returns
  have length := List.length_take_of_le most
  have whole : readBuffer width stale ((input.take count).take (input.take count).length) =
      .ok result.2.buf := by
    rw [List.take_length]
    exact leaves
  have before : ∀ fewer < (input.take count).length,
      readBuffer width stale ((input.take count).take fewer) = .error .hang := by
    intro fewer less
    have less : fewer < count := length ▸ less
    rw [List.take_take, Nat.min_eq_left (Nat.le_of_lt less), readBuffer_eq]
    exact congrArg (Except.map fun read => read.2.buf) (waits fewer less)
  exact ⟨⟨input.take count, result.2.buf⟩, input.drop count,
    (List.take_append_drop count input).symm, ⟨Nat.le_refl _, ⟨_, whole⟩, before⟩, leaves⟩

/-- The command `exit`. -/
theorem terminated_iff_sample :
    ∃ round : Round, Runs 64 (fun _ input => .ok input) (fun _ => 0) [101, 120, 105, 116, 10]
        [round] ∧
      ∀ other ∈ [round],
        0 ∈ other.string ∧ (∃ parsed, parse other.string (fun _ _ => 0) = .ok parsed) ↔
          LeavesNul 64 other.arrived := by
  obtain ⟨round, later, input, reads⟩ := @exists_round 64 [101, 120, 105, 116, 10]
    [101, 120, 105, 116] (by decide) (fun _ => 0) (by decide +kernel)
  have run : Runs 64 (fun _ input => .ok input) (fun _ => 0) [101, 120, 105, 116, 10] [round] := by
    rw [input]
    exact .last reads
  exact ⟨round, run, terminated_iff (by decide) _ _ _ _ run⟩

/-- `read` does not return before `Buffer` is full when no line feed arrives. -/
theorem arrived_all {later : List (BitVec 8)} (long : 32 ≤ width) (reads : round.Reads width stale)
    (goesOn : ∀ chr ∈ round.arrived ++ later,
      ¬ endsLine (ttyFlags : BitVec width) (translated (ttyFlags : BitVec width) chr))
    (length : (round.arrived ++ later).length = sizeofBuffer) : later = [] := by
  obtain ⟨keys, line, _⟩ := readBuffer_ok long reads.leaves
  by_contra more
  have positive := List.length_pos_of_ne_nil more
  rw [List.length_append] at length
  have fewer : ([] : List Key).length + round.arrived.length < sizeofBuffer := by
    rw [List.length_nil]
    omega
  rw [keysOf, readTill_fewer (press_length_le (ttyFlags : BitVec width))
    (fun chr member => goesOn chr (List.mem_append_left _ member)) fewer] at line
  cases line

/-- After 256 letters `Buffer` has no NUL. -/
theorem full_buffer_unterminated :
    ¬ ∀ (act : Command → List (BitVec 8) → Except Stop (List (BitVec 8)))
      (stale : Nat → BitVec 8) (input : List (BitVec 8)) (rounds : List Round),
      Runs 64 act stale input rounds → ∀ round ∈ rounds,
        0 ∈ round.string ∧ ∃ parsed, parse round.string (fun _ _ => 0) = .ok parsed := by
  intro claim
  have letters : ∀ chr ∈ List.replicate sizeofBuffer (97 : BitVec 8),
      ¬ endsLine (ttyFlags : BitVec 64) (translated (ttyFlags : BitVec 64) chr) := by
    intro chr member
    rw [(List.mem_replicate.mp member).2]
    decide
  obtain ⟨line, read⟩ : ∃ line, lineOf (ttyFlags : BitVec 64) sizeofBuffer
      (List.replicate sizeofBuffer 97) [] = some line :=
    Option.isSome_iff_exists.mp (by decide +kernel)
  obtain ⟨round, later, input, reads⟩ := exists_round (by decide) (fun _ => 0) read
  have run : Runs 64 (fun _ input => .ok input) (fun _ => 0) (List.replicate sizeofBuffer 97)
      [round] := by
    rw [input]
    exact .last reads
  have nul := (claim _ _ _ _ run round List.mem_cons_self).1
  obtain ⟨keys, arrived, leaves⟩ := (nul_mem_iff (by decide) reads).mp nul
  have all : later = [] :=
    arrived_all (by decide) reads (input ▸ letters) (by rw [← input, List.length_replicate])
  have full : (keysOf (ttyFlags : BitVec 64) sizeofBuffer (List.replicate sizeofBuffer 97) []).any
      (fun keys => keys.length == sizeofBuffer && keys.all fun key =>
        key.chr != 0 && !key.bared) = true := by
    decide +kernel
  rw [input, all, List.append_nil, arrived, Option.any_some, Bool.and_eq_true, List.all_eq_true]
    at full
  rcases leaves with fewer | ⟨key, member, bare⟩
  · exact absurd (beq_iff_eq.mp full.1) (Nat.ne_of_lt fewer)
  · have letter := full.2 key member
    rcases bare with zero | bared
    · simp [zero] at letter
    · simp [bared] at letter

end Shell

end Unarddeg.Shell
