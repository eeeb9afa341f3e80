import Unarddeg.Kernel.String

/-!
# The read and write functions of the kernel's devices

`kernel/vfs/dev/null.c`, `random.c` and `serial.c`, and `TaskReadFunction` and `TaskWriteFunction`
of `kernel/sched/core.c` at any `Size` and `Elements`. Every function is a `VNodeRWFunction`: it
returns an `int`, and besides it the model keeps the number of bytes of the request that were
transferred. A buffer is the memory from `Buf` on; its offset `2 ^ width - 1` is the byte in front
of `Buf`. All characters that ever arrive for a terminal are given in advance, so a read that needs
more of them polls for ever.
-/

namespace Unarddeg

open Library

/-- What a call of a `VNodeRWFunction` comes to. -/
structure Transfer where
  /-- The `int` that is returned. -/
  result : BitVec 32
  /-- The number of bytes of the request that were transferred. -/
  moved : Nat

section Functions

variable {width : Nat}

/-- `return` of an `unsigned long` from a function of type `int`. -/
def asInt (value : BitVec width) : BitVec 32 := value.setWidth 32

/-- `PanicIfNull` of a buffer. -/
def checked (buf : Option (Nat → BitVec 8)) : Except Stop (Nat → BitVec 8) :=
  match buf with
  | none => .error (.panic .nullPointerDereference)
  | some bytes => .ok bytes

/-- `NullReadFunction`: the buffer after it too. A length from `2 ^ (width - 1)` on is a negative
`long` for `memset`, which then sets nothing. -/
def nullReadFunction (buf : Option (Nat → BitVec 8)) (size elements : BitVec width) :
    Except Stop (Transfer × (Nat → BitVec 8)) := do
  let dest ← checked buf
  let bytes := size * elements
  let zeros ← memset dest 0 bytes.toInt
  pure (⟨asInt elements, bytes.toInt.toNat⟩, zeros)

/-- `NullWriteFunction`. -/
def nullWriteFunction (buf : Option (Nat → BitVec 8)) (size elements : BitVec width) :
    Except Stop Transfer := do
  let _ ← checked buf
  pure ⟨asInt elements, (size * elements).toNat⟩

/-- The variables of the generator. -/
structure Entropy where
  /-- `rng_state`. -/
  rngState : BitVec 32
  /-- `counter`. -/
  counter : BitVec 32

/-- `xorshift32`: the next `rng_state`, which is also the result. -/
def xorshift32 (rngState : BitVec 32) : BitVec 32 :=
  let x := rngState ^^^ (rngState <<< 13)
  let x := x ^^^ (x >>> 17)
  x ^^^ (x <<< 5)

/-- `mix_entropy`. -/
def mixEntropy (ticks : BitVec 64) (entropy : Entropy) : Entropy :=
  { rngState := entropy.rngState ^^^ (entropy.counter.setWidth 64 ^^^ ticks).setWidth 32
    counter := entropy.counter + 1 }

/-- A round of the loop of `RandomReadFunction`. Every fourth round stores four bytes. -/
def randomRound (state : (Nat → BitVec 8) × BitVec 32) (i : Nat) : (Nat → BitVec 8) × BitVec 32 :=
  if i % 4 = 0 then
    let r := xorshift32 state.2
    (overwrite state.1 i 4 fun index => byteAt r index, r)
  else state

/-- `RandomReadFunction`: the buffer and the generator after it too. -/
def randomReadFunction (ticks : BitVec 64) (entropy : Entropy) (buf : Option (Nat → BitVec 8))
    (size elements : BitVec width) :
    Except Stop (Transfer × (Nat → BitVec 8) × Entropy) := do
  let dest ← checked buf
  let bytes := size * elements
  let mixed := mixEntropy ticks entropy
  let (dest, rngState) := (List.range bytes.toNat).foldl randomRound (dest, mixed.rngState)
  pure (⟨asInt elements, bytes.toNat⟩, dest, { mixed with rngState })

/-- `byte << shift` of `RandomWriteFunction`; C leaves the value of a shift by 32 or more open. -/
def shifted (overlong : BitVec 8 → Nat → BitVec 32) (byte : BitVec 8) (shift : Nat) : BitVec 32 :=
  if shift < 32 then byte.setWidth 32 <<< shift else overlong byte shift

/-- `RandomWriteFunction`: the generator after it too. -/
def randomWriteFunction (overlong : BitVec 8 → Nat → BitVec 32) (entropy : Entropy)
    (buf : Option (Nat → BitVec 8)) (size elements : BitVec width) :
    Except Stop (Transfer × Entropy) := do
  let src ← checked buf
  let bytes := size * elements
  let rngState := (List.range bytes.toNat).foldl
    (fun rngState i => rngState ^^^ shifted overlong (src i) (i % 32 * 8)) entropy.rngState
  pure (⟨asInt elements, bytes.toNat⟩, { entropy with rngState })

/-- `TaskWriteFunction` for a task of `taskSize` bytes: the task after it too. -/
def taskWriteBytes (taskSize : Nat) (driverData : Nat → BitVec 8) (buf : Option (Nat → BitVec 8))
    (size elements : BitVec width) : Except Stop (Transfer × (Nat → BitVec 8)) := do
  let bytes := size * elements
  if bytes.toNat > taskSize then
    .error (.panic .segmentationFault)
  else
    let src ← checked buf
    pure (⟨asInt bytes, bytes.toNat⟩, overwrite driverData 0 bytes.toNat src)

/-- `TaskReadFunction`: the buffer after it too. -/
def taskReadBytes (taskSize : Nat) (driverData : Nat → BitVec 8) (buf : Option (Nat → BitVec 8))
    (size elements : BitVec width) : Except Stop (Transfer × (Nat → BitVec 8)) := do
  let bytes := size * elements
  if bytes.toNat > taskSize then
    .error (.panic .segmentationFault)
  else
    let dest ← checked buf
    pure (⟨asInt bytes, bytes.toNat⟩, overwrite dest 0 bytes.toNat driverData)

/-- `TTY_RAW`. -/
def ttyRaw : BitVec width := 1

/-- `TTY_COOKED`. -/
def ttyCooked : BitVec width := 2

/-- `TTY_ECHO`. -/
def ttyEcho : BitVec width := 4

/-- `TTY_CRNL`. -/
def ttyCrnl : BitVec width := 8

/-- `TTY_NLCR`. -/
def ttyNlcr : BitVec width := 16

/-- A flag is set. -/
def isSet (flags flag : BitVec width) : Prop := flags &&& flag ≠ 0

instance decidableIsSet (flags flag : BitVec width) : Decidable (isSet flags flag) :=
  inferInstanceAs (Decidable (_ ≠ _))

/-- The bytes that `SerialPut` is given for a character. -/
def serialPuts (flags : BitVec width) (chr : BitVec 8) : List (BitVec 8) :=
  if chr = 10 ∧ isSet flags ttyNlcr then [13, chr] else [chr]

/-- `SerialWriteFunction`: the bytes that were put too. -/
def serialWriteFunction (flags : BitVec width) (buf : Option (Nat → BitVec 8))
    (size elements : BitVec width) : Except Stop (Transfer × List (BitVec 8)) := do
  let src ← checked buf
  let bytes := size * elements
  pure (⟨asInt bytes, bytes.toNat⟩,
    (List.range bytes.toNat).flatMap fun i => serialPuts flags (src i))

/-- What tells the two functions that read a line apart. -/
structure Terminal (width : Nat) where
  /-- `*(TTYFlags *)Node->DriverData`. -/
  flags : BitVec width
  /-- `Node->WriteFunction(&chr, 1, 1, Node)`: the bytes that are put. -/
  echo : BitVec 8 → Except Stop (List (BitVec 8))
  /-- Whether the line feed that ends a line is stored. -/
  storesNewline : Bool

/-- The variables of a function that reads a line. -/
structure Line (width : Nat) where
  /-- `i`. -/
  i : BitVec width
  /-- The memory from `Buf` on. -/
  buf : Nat → BitVec 8
  /-- The bytes that were put. -/
  echoed : List (BitVec 8)

/-- A carriage return becomes a line feed. -/
def translated (flags : BitVec width) (chr : BitVec 8) : BitVec 8 :=
  if chr = 13 ∧ isSet flags ttyCrnl then 10 else chr

/-- The bytes that are put for a character: none unless `TTY_ECHO` is set. -/
def Terminal.puts (terminal : Terminal width) (chr : BitVec 8) : Except Stop (List (BitVec 8)) :=
  if isSet terminal.flags ttyEcho then terminal.echo chr else .ok []

/-- The loop of `SerialReadFunction` and `ps2_keyboard_read` over the characters that arrive. -/
def readChars (terminal : Terminal width) (bytes : BitVec width) :
    List (BitVec 8) → Line width → Except Stop (Line width)
  | [], line => if line.i < bytes then .error .hang else .ok line
  | arrived :: input, line =>
    if line.i < bytes then do
      let chr := translated terminal.flags arrived
      let puts ← terminal.puts chr
      let line := { line with echoed := line.echoed ++ puts }
      if ¬ isSet terminal.flags ttyRaw ∧ chr = 8 ∧ line.i > 0 then
        -- `continue` still runs the `++i` of the loop.
        let i := line.i - 2
        readChars terminal bytes input
          { line with i := i + 1, buf := Function.update line.buf i.toNat 0 }
      else
        let stored := { line with buf := Function.update line.buf line.i.toNat chr }
        if chr = 10 ∧ isSet terminal.flags ttyCooked then
          .ok (if terminal.storesNewline then stored else line)
        else readChars terminal bytes input { stored with i := line.i + 1 }
    else .ok line

/-- `return i / Size`. -/
def perSize (i size : BitVec width) : Except Stop Transfer :=
  if size = 0 then .error .divideByZero else .ok ⟨asInt (i / size), i.toNat⟩

/-- A function that reads a line, on the characters that arrive. -/
def readLine (terminal : Terminal width) (input : List (BitVec 8))
    (buf : Option (Nat → BitVec 8)) (size elements : BitVec width) :
    Except Stop (Transfer × Line width) := do
  let dest ← checked buf
  let line ← readChars terminal (size * elements) input ⟨0, dest, []⟩
  let transfer ← perSize line.i size
  pure (transfer, line)

/-- The serial terminal echoes through `SerialWriteFunction`. -/
def serialTerminal (flags : BitVec width) : Terminal width where
  flags
  echo chr := .ok (serialPuts flags chr)
  storesNewline := false

/-- `SerialReadFunction`. -/
def serialReadFunction (flags : BitVec width) (input : List (BitVec 8))
    (buf : Option (Nat → BitVec 8)) (size elements : BitVec width) :
    Except Stop (Transfer × Line width) :=
  readLine (serialTerminal flags) input buf size elements

end Functions

end Unarddeg
