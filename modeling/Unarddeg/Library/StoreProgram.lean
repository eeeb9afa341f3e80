import Unarddeg.Library.Bytes
import Unarddeg.Library.Fuel

/-!
# Programs over a store of bytes

A program that only reaches a store by reading and writing ranges of bytes. It can be run on the
bytes themselves (`onBytes`), and over a device that serves its calls (`onDevice`). If the device
serves calls as the bytes do (`Serves`), and the calls of the program are for ranges for which it
does (`Within`), then both runs end with the same value, and the device holds the bytes
(`Serves.settles`). The rules for `Within` follow the parts of a program; bytes outside its ranges
stay as they are (`Within.unchanged`).
-/

namespace Unarddeg.Library

/-- A program that reads and writes ranges of a store: their offsets and their numbers of bytes. -/
inductive StoreProgram (ε α : Type) : Type
  /-- The program is done. -/
  | done (value : α)
  /-- It stops. -/
  | stop (reason : ε)
  /-- It reads a range and goes on with the bytes. -/
  | read (offset count : Nat) (next : (Nat → BitVec 8) → StoreProgram ε α)
  /-- It writes bytes to a range and goes on. -/
  | write (offset count : Nat) (source : Nat → BitVec 8) (next : StoreProgram ε α)

/-- The first bytes of a buffer. -/
def clip (count : Nat) (buffer : Nat → BitVec 8) : Nat → BitVec 8 :=
  overwrite (fun _ => 0) 0 count buffer

/-- The bytes of a clipped buffer are those of the buffer. -/
theorem clip_inside {count index : Nat} {buffer : Nat → BitVec 8} (inside : index < count) :
    clip count buffer index = buffer index := by
  have here := @overwrite_inside (fun _ => 0) buffer 0 count index inside
  rwa [Nat.zero_add] at here

/-- Buffers with the same first bytes are the same when clipped. -/
theorem clip_congr {count : Nat} {buffer other : Nat → BitVec 8}
    (same : ∀ index < count, buffer index = other index) : clip count buffer = clip count other :=
  overwrite_congr same

/-- Bytes from a clipped buffer are bytes from the buffer. -/
theorem overwrite_clip {start length count : Nat} {bytes buffer : Nat → BitVec 8}
    (short : length ≤ count) :
    overwrite bytes start length (clip count buffer) = overwrite bytes start length buffer :=
  overwrite_congr fun _ small => clip_inside (Nat.lt_of_lt_of_le small short)

namespace StoreProgram

variable {ε α β σ : Type}

/-- One program after another. -/
def bind : StoreProgram ε α → (α → StoreProgram ε β) → StoreProgram ε β
  | done value, next => next value
  | stop reason, _ => stop reason
  | read offset count rest, next => read offset count fun buffer => (rest buffer).bind next
  | write offset count source rest, next => write offset count source (rest.bind next)

instance : Monad (StoreProgram ε) where
  pure := done
  bind := bind

/-- A range of the store. -/
def readFrom (offset count : Nat) : StoreProgram ε (Nat → BitVec 8) := read offset count done

/-- Bytes are written to a range of the store. -/
def writeTo (offset count : Nat) (source : Nat → BitVec 8) : StoreProgram ε Unit :=
  write offset count source (done ())

/-- A value, or the reason of a stop. -/
def ofExcept : Except ε α → StoreProgram ε α
  | .ok value => done value
  | .error reason => stop reason

/-- A program run on the bytes of the store. -/
def onBytes : StoreProgram ε α → EStateM ε (Nat → BitVec 8) α
  | done value => fun bytes => .ok value bytes
  | stop reason => fun bytes => .error reason bytes
  | read offset count next => fun bytes => (next (clip count (slice bytes offset))).onBytes bytes
  | write offset count source next => fun bytes =>
    next.onBytes (overwrite bytes offset count source)

/-- The calls of a program on the bytes are for ranges of a kind. -/
def Within (allowed : (offset count : Nat) → Prop) : StoreProgram ε α → (Nat → BitVec 8) → Prop
  | done _, _ => True
  | stop _, _ => True
  | read offset count next, bytes =>
    allowed offset count ∧ (next (clip count (slice bytes offset))).Within allowed bytes
  | write offset count source next, bytes =>
    allowed offset count ∧ next.Within allowed (overwrite bytes offset count source)

/-! ## Runs on the bytes -/

section Rules

variable {program : StoreProgram ε α} {next : α → StoreProgram ε β} {bytes after : Nat → BitVec 8}
  {value : α} {allowed : Nat → Nat → Prop} {offset count position : Nat}

/-- The parts of a program run one after the other. -/
theorem onBytes_bind : (program >>= next).onBytes = program.onBytes >>= fun value =>
    (next value).onBytes := by
  induction program with
  | done value => rfl
  | stop reason => rfl
  | read offset count rest ih =>
    funext bytes
    exact congrFun (ih (clip count (slice bytes offset))) bytes
  | write offset count source rest ih =>
    funext bytes
    exact congrFun ih (overwrite bytes offset count source)

/-- A program whose first part returns goes on with the second. -/
theorem onBytes_bind_of_ok {middle : Nat → BitVec 8}
    (first : program.onBytes bytes = .ok value middle) :
    (program >>= next).onBytes bytes = (next value).onBytes middle := by
  rw [onBytes_bind]
  exact bind_of_ok first

/-- The calls of two programs are those of the first and, if it returns, of the second. -/
theorem Within.bind (first : program.Within allowed bytes)
    (second : ∀ value after, program.onBytes bytes = .ok value after →
      (next value).Within allowed after) : (program >>= next).Within allowed bytes := by
  induction program generalizing bytes with
  | done value => exact second value bytes rfl
  | stop reason => trivial
  | read offset count rest ih => exact ⟨first.1, ih _ first.2 second⟩
  | write offset count source rest ih => exact ⟨first.1, ih first.2 second⟩

/-- A value needs no calls. -/
theorem Within.ofExcept {result : Except ε α} :
    (ofExcept result).Within allowed bytes := by
  cases result <;> trivial

/-- A read of an allowed range. -/
theorem Within.readFrom (inside : allowed offset count) :
    (readFrom offset count : StoreProgram ε _).Within allowed bytes := ⟨inside, trivial⟩

/-- A write to an allowed range. -/
theorem Within.writeTo {source : Nat → BitVec 8} (inside : allowed offset count) :
    (writeTo offset count source : StoreProgram ε _).Within allowed bytes := ⟨inside, trivial⟩

/-- A byte outside all allowed ranges is as before. -/
theorem Within.unchanged (apart : ∀ offset count, allowed offset count →
      position < offset ∨ offset + count ≤ position)
    (within : program.Within allowed bytes) (returned : program.onBytes bytes = .ok value after) :
    after position = bytes position := by
  induction program generalizing bytes with
  | done result =>
    cases returned
    rfl
  | stop reason => cases returned
  | read offset count rest ih => exact ih _ within.2 returned
  | write offset count source rest ih =>
    exact (ih within.2 returned).trans (overwrite_outside (apart offset count within.1))

/-- The program runs on the bytes as a value or a stop, and changes nothing. -/
theorem onBytes_ofExcept {result : Except ε α} :
    (ofExcept result).onBytes bytes = match result with
      | .ok value => .ok value bytes
      | .error reason => .error reason bytes := by
  cases result <;> rfl

end Rules

/-! ## Runs over a device -/

/-- A device that reads and writes ranges; what it does may depend on the number of the call. -/
structure Device (ε σ : Type) where
  /-- A range is read. -/
  read : (call offset count : Nat) → EStateM ε σ (Nat → BitVec 8)
  /-- Bytes are written to a range. -/
  write : (call offset count : Nat) → (Nat → BitVec 8) → EStateM ε σ Unit

/-- A program run over a device, with the number of its next call. -/
def onDevice (device : Device ε σ) : StoreProgram ε α → (call : Nat) → EStateM ε σ α
  | done value, _ => pure value
  | stop reason, _ => throw reason
  | read offset count next, call => do
    let buffer ← device.read call offset count
    (next (clip count buffer)).onDevice device (call + 1)
  | write offset count source next, call => do
    device.write call offset count source
    next.onDevice device (call + 1)

/-- A device with fuel serves calls for ranges of a kind as the bytes that it holds. -/
structure Serves (device : Nat → Device ε σ) (allowed : (offset count : Nat) → Prop)
    (holds : σ → (Nat → BitVec 8) → Prop) : Prop where
  /-- A read returns the bytes of its range. -/
  read : ∀ {state bytes offset count}, holds state bytes → allowed offset count → ∀ call,
    ∃ buffer after, Settles (fun fuel => (device fuel).read call offset count) state buffer after ∧
      holds after bytes ∧ ∀ index < count, buffer index = bytes (offset + index)
  /-- A write replaces the bytes of its range. -/
  write : ∀ {state bytes offset count}, holds state bytes → allowed offset count →
    ∀ call source, ∃ after,
      Settles (fun fuel => (device fuel).write call offset count source) state () after ∧
      holds after (overwrite bytes offset count source)

/-- **Programs over devices.** A program that returns on the bytes that a device holds, with calls
for ranges that the device serves, returns the same over the device, which then holds the bytes
behind it. -/
theorem Serves.settles {device : Nat → Device ε σ} {allowed : Nat → Nat → Prop}
    {holds : σ → (Nat → BitVec 8) → Prop} (serves : Serves device allowed holds)
    {program : StoreProgram ε α} {state : σ} {bytes last : Nat → BitVec 8} {value : α}
    (start : holds state bytes) (within : program.Within allowed bytes)
    (returned : program.onBytes bytes = .ok value last) (call : Nat) :
    ∃ after, Settles (fun fuel => program.onDevice (device fuel) call) state value after ∧
      holds after last := by
  -- By induction on the program: the device answers each call as the bytes do.
  induction program generalizing state bytes call with
  | done result =>
    cases returned
    exact ⟨state, .returns, start⟩
  | stop reason => cases returned
  | read offset count next ih =>
    obtain ⟨buffer, middle, settles, now, same⟩ := serves.read start within.1 call
    have clipped : clip count buffer = clip count (slice bytes offset) :=
      clip_congr fun index inside => same index inside
    obtain ⟨after, rest, ends⟩ := ih _ now within.2 returned (call + 1)
    rw [← clipped] at rest
    exact ⟨after, .bind settles rest, ends⟩
  | write offset count source next ih =>
    obtain ⟨middle, settles, now⟩ := serves.write start within.1 call source
    obtain ⟨after, rest, ends⟩ := ih now within.2 returned (call + 1)
    exact ⟨after, .bind settles rest, ends⟩

end StoreProgram

end Unarddeg.Library
