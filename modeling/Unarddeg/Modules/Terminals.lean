import Unarddeg.Kernel.Vfs.VNode
import Unarddeg.Modules.Lines

/-!
# The two terminals

`SerialReadFunction` and `ps2_keyboard_read` side by side, each with an echo function that returns:
they take the same characters and count the same line. Only `ps2_keyboard_read` stores the line feed
that ends it. Then the node `ps2_kbd` as `Init` of `modules/ps2/main.c` builds it, whose echo does
not return.
-/

namespace Unarddeg

open Library

section Agreement

variable {width : Nat}

/-- `SerialReadFunction` with another echo. -/
def serialWith (flags : BitVec width) (echo : BitVec 8 → List (BitVec 8)) : Terminal width where
  flags
  echo chr := .ok (echo chr)
  storesNewline := false

/-- `ps2_keyboard_read` with another echo. -/
def keyboardWith (flags : BitVec width) (echo : BitVec 8 → List (BitVec 8)) : Terminal width where
  flags
  echo chr := .ok (echo chr)
  storesNewline := true

/-- A read takes some of the characters that arrive: with those it returns, and with fewer it waits
for another one. -/
structure Consumes {α : Type} (read : List (BitVec 8) → Except Stop α) (input : List (BitVec 8))
    (count : Nat) : Prop where
  /-- There are so many. -/
  arrived : count ≤ input.length
  /-- They are enough. -/
  returns : ∃ result, read (input.take count) = .ok result
  /-- None of them is left out. -/
  waits : ∀ fewer < count, read (input.take fewer) = .error .hang

/-- A line feed ends the line that is read. -/
def EndedByFeed (flags : BitVec width) (limit : Nat) (input line : List (BitVec 8)) : Prop :=
  ∃ before arrived after, input = before ++ arrived :: after ∧
    lineOf flags limit before line = none ∧ endsLine flags (translated flags arrived)

variable {flags bytes : BitVec width} {limit : Nat} {echo other : BitVec 8 → List (BitVec 8)}
  {input pending : List (BitVec 8)} {arrived : BitVec 8} {stored typed : Line width}

/-- An echo that returns. -/
theorem serialWith_echoes : (serialWith flags echo).Echoes := by
  intro chr
  unfold Terminal.puts serialWith
  split
  · exact ⟨_, rfl⟩
  · exact ⟨_, rfl⟩

/-- An echo that returns. -/
theorem keyboardWith_echoes : (keyboardWith flags echo).Echoes := by
  intro chr
  unfold Terminal.puts keyboardWith
  split
  · exact ⟨_, rfl⟩
  · exact ⟨_, rfl⟩

/-- A line feed ends the line at once. -/
theorem endedByFeed_now (more : pending.length < limit)
    (ends : endsLine flags (translated flags arrived)) :
    EndedByFeed flags limit (arrived :: input) pending :=
  ⟨[], arrived, input, rfl, if_pos more, ends⟩

/-- A line feed ends the line later. -/
theorem endedByFeed_later (more : pending.length < limit)
    (goesOn : ¬ endsLine flags (translated flags arrived))
    (ended : EndedByFeed flags limit input (edit flags pending (translated flags arrived))) :
    EndedByFeed flags limit (arrived :: input) pending := by
  obtain ⟨before, feed, after, rfl, reading, ends⟩ := ended
  refine ⟨arrived :: before, feed, after, rfl, ?_, ends⟩
  rw [lineOf, readTill_other more goesOn]
  exact reading

/-- What two reads of a line come to: both wait for more, or both end with the index behind the line
and buffers that agree, except where one stores the line feed. -/
def ReadAlike (flags : BitVec width) (limit : Nat) (input pending : List (BitVec 8))
    (serial keyboard : Except Stop (Line width)) : Prop :=
  match lineOf flags limit input pending with
  | none => serial = .error .hang ∧ keyboard = .error .hang
  | some line => ∃ stored typed, serial = .ok stored ∧ keyboard = .ok typed ∧
      stored.i.toNat = line.length ∧ typed.i = stored.i ∧
      ∀ index, (EndedByFeed flags limit input pending → index ≠ line.length) →
        typed.buf index = stored.buf index

/-- Reads that go on alike after a character read alike. -/
theorem ReadAlike.cons {serial keyboard : Except Stop (Line width)} (more : pending.length < limit)
    (goesOn : ¬ endsLine flags (translated flags arrived))
    (alike : ReadAlike flags limit input (edit flags pending (translated flags arrived)) serial
      keyboard) : ReadAlike flags limit (arrived :: input) pending serial keyboard := by
  unfold ReadAlike at alike ⊢
  rw [lineOf, readTill_other more goesOn]
  cases read : lineOf flags limit input (edit flags pending (translated flags arrived)) with
  | none =>
    rw [read] at alike
    rw [lineOf] at read
    rw [read]
    exact alike
  | some line =>
    rw [read] at alike
    rw [lineOf] at read
    rw [read]
    obtain ⟨stored, typed, serial, keyboard, length, index, same⟩ := alike
    refine ⟨stored, typed, serial, keyboard, length, index, fun place apart => ?_⟩
    exact same place fun later => apart (endedByFeed_later more goesOn later)

/-- The loops of the two functions read alike. -/
theorem readChars_alike (index : typed.i = stored.i) (buf : typed.buf = stored.buf)
    (length : pending.length = stored.i.toNat) :
    ReadAlike flags bytes.toNat input pending
      (readChars (serialWith flags echo) bytes input stored)
      (readChars (keyboardWith flags other) bytes input typed) := by
  induction input generalizing stored typed pending with
  | nil =>
    unfold ReadAlike
    by_cases more : stored.i < bytes
    · have below : pending.length < bytes.toNat := length ▸ (more : stored.i.toNat < bytes.toNat)
      have waits : lineOf flags bytes.toNat [] pending = none := if_pos below
      rw [waits]
      exact ⟨if_pos more, if_pos (index ▸ more)⟩
    · have full : ¬ pending.length < bytes.toNat := fun less =>
        more (BitVec.lt_def.mpr (length ▸ less))
      rw [lineOf, readTill_full full]
      exact ⟨stored, typed, if_neg more, if_neg (index ▸ more), length.symm, index,
        fun place _ => congrFun buf place⟩
  | cons arrived input ih =>
    by_cases more : stored.i < bytes
    · have below : pending.length < bytes.toNat := length ▸ (more : stored.i.toNat < bytes.toNat)
      have more' : typed.i < bytes := index ▸ more
      obtain ⟨puts, echoed⟩ := @serialWith_echoes _ flags echo (translated flags arrived)
      obtain ⟨puts', echoed'⟩ := @keyboardWith_echoes _ flags other (translated flags arrived)
      by_cases back : ¬ isSet flags ttyRaw ∧ translated flags arrived = 8 ∧ stored.i > 0
      · have positive : 0 < pending.length := length ▸ back.2.2
        have edited : edit flags pending (translated flags arrived) = pending.dropLast :=
          if_pos ⟨back.1, back.2.1, List.ne_nil_of_length_pos positive⟩
        have one := toNat_backwards back.2.2 more
        have back' : ¬ isSet flags ttyRaw ∧ translated flags arrived = 8 ∧ typed.i > 0 :=
          index ▸ back
        refine .cons below (not_endsLine_back back.2.1) ?_
        rw [readChars_back more echoed back, readChars_back more' echoed' back']
        refine ih (by rw [index]) (by rw [index, buf]) ?_
        rw [edited, List.length_dropLast]
        show pending.length - 1 = (stored.i - 2 + 1).toNat
        omega
      · have back' : ¬ (¬ isSet flags ttyRaw ∧ translated flags arrived = 8 ∧ typed.i > 0) :=
          index ▸ back
        by_cases ends : endsLine flags (translated flags arrived)
        · rw [readChars_ends more echoed back ends, readChars_ends more' echoed' back' ends]
          unfold ReadAlike
          rw [lineOf, readTill_ends below ends]
          refine ⟨_, _, rfl, rfl, length.symm, index, fun place apart => ?_⟩
          -- Only the keyboard stores the line feed, behind the line.
          have behind : place ≠ typed.i.toNat := by
            rw [index, ← length]
            exact apart (endedByFeed_now below ends)
          exact (Function.update_of_ne behind _ _).trans (congrFun buf place)
        · have edited : edit flags pending (translated flags arrived) =
              pending ++ [translated flags arrived] :=
            if_neg fun taken => back ⟨taken.1, taken.2.1,
              (length ▸ List.length_pos_of_ne_nil taken.2.2 : 0 < stored.i.toNat)⟩
          refine .cons below ends ?_
          rw [readChars_other more echoed back ends, readChars_other more' echoed' back' ends]
          refine ih (by rw [index]) (by rw [index, buf]; rfl) ?_
          rw [edited, List.length_append, List.length_singleton, toNat_forwards more, length]
    · have full : ¬ pending.length < bytes.toNat := fun less =>
        more (BitVec.lt_def.mpr (length ▸ less))
      unfold ReadAlike
      rw [lineOf, readTill_full full, readChars_full more, readChars_full (index ▸ more)]
      exact ⟨stored, typed, rfl, rfl, length.symm, index, fun place _ => congrFun buf place⟩

/-- Whole reads of the two functions. -/
theorem readLine_alike {size elements : BitVec width} (nonzero : size ≠ 0)
    (input : List (BitVec 8)) (dest : Nat → BitVec 8) :
    match lineOf flags (size * elements).toNat input [] with
    | none =>
      readLine (serialWith flags echo) input (some dest) size elements = .error .hang ∧
        readLine (keyboardWith flags other) input (some dest) size elements = .error .hang
    | some line => ∃ transfer stored typed,
        readLine (serialWith flags echo) input (some dest) size elements = .ok (transfer, stored) ∧
        readLine (keyboardWith flags other) input (some dest) size elements =
          .ok (transfer, typed) ∧
        transfer.result = asInt (stored.i / size) ∧ stored.i.toNat = line.length ∧
        ∀ index, (EndedByFeed flags (size * elements).toNat input [] → index ≠ line.length) →
          typed.buf index = stored.buf index := by
  have alike := @readChars_alike _ flags (size * elements) echo other input [] ⟨0, dest, []⟩
    ⟨0, dest, []⟩ rfl rfl (by simp)
  unfold ReadAlike at alike
  cases read : lineOf flags (size * elements).toNat input [] with
  | none =>
    rw [read] at alike
    simp only [readLine, checked, bind, Except.bind, alike.1, alike.2]
    exact ⟨trivial, trivial⟩
  | some line =>
    rw [read] at alike
    obtain ⟨stored, typed, serial, keyboard, length, index, same⟩ := alike
    refine ⟨⟨asInt (stored.i / size), stored.i.toNat⟩, stored, typed, ?_, ?_, rfl, length, same⟩
    · simp only [readLine, checked, bind, Except.bind, serial, perSize, if_neg nonzero]
      rfl
    · simp only [readLine, checked, bind, Except.bind, keyboard, perSize, if_neg nonzero, index]
      rfl

/-- With the characters of a line both functions take the same number of them. -/
theorem both_consume {size elements : BitVec width} (nonzero : size ≠ 0)
    {line : List (BitVec 8)} (read : lineOf flags (size * elements).toNat input [] = some line)
    (dest : Nat → BitVec 8) : ∃ count,
      Consumes (readLine (serialWith flags echo) · (some dest) size elements) input count ∧
        Consumes (readLine (keyboardWith flags other) · (some dest) size elements) input count := by
  have enough : ∃ count, lineOf flags (size * elements).toNat (input.take count) [] ≠ none :=
    ⟨input.length, by rw [List.take_length, read]; exact Option.some_ne_none _⟩
  have fewest := Nat.find_min' enough (m := input.length) (by
    rw [List.take_length, read]
    exact Option.some_ne_none _)
  have last := Nat.find_spec enough
  have returns := @readLine_alike _ flags echo other _ elements nonzero
    (input.take (Nat.find enough)) dest
  have waits : ∀ fewer < Nat.find enough, _ ∧ _ := fun fewer less => by
    have alike := @readLine_alike _ flags echo other _ elements nonzero (input.take fewer) dest
    rwa [not_not.mp (Nat.find_min enough less)] at alike
  cases found : lineOf flags (size * elements).toNat (input.take (Nat.find enough)) [] with
  | none => exact absurd found last
  | some line =>
    rw [found] at returns
    obtain ⟨transfer, stored, typed, serial, keyboard, _⟩ := returns
    exact ⟨Nat.find enough, ⟨fewest, ⟨_, serial⟩, fun fewer less => (waits fewer less).1⟩,
      ⟨fewest, ⟨_, keyboard⟩, fun fewer less => (waits fewer less).2⟩⟩

/-- The two functions, whatever arrives: they wait for more characters together, or they take the
same number of characters and return the same number, that of the whole elements in their line if an
`int` counts them, and their buffers agree, but for the place of a line feed that ends the line. -/
theorem terminals_agree (flags size elements : BitVec width)
    (echo other : BitVec 8 → List (BitVec 8)) (nonzero : size ≠ 0) (input : List (BitVec 8))
    (dest : Nat → BitVec 8) :
    match lineOf flags (size * elements).toNat input [] with
    | none =>
      readLine (serialWith flags echo) input (some dest) size elements = .error .hang ∧
        readLine (keyboardWith flags other) input (some dest) size elements = .error .hang
    | some line => ∃ transfer stored typed count,
        readLine (serialWith flags echo) input (some dest) size elements =
          .ok (transfer, stored) ∧
        readLine (keyboardWith flags other) input (some dest) size elements =
          .ok (transfer, typed) ∧
        Consumes (readLine (serialWith flags echo) · (some dest) size elements) input count ∧
        Consumes (readLine (keyboardWith flags other) · (some dest) size elements) input count ∧
        (∀ index, (EndedByFeed flags (size * elements).toNat input [] → index ≠ line.length) →
          typed.buf index = stored.buf index) ∧
        (line.length / size.toNat < 2 ^ 31 →
          transfer.result.toInt = (line.length / size.toNat : Nat)) := by
  have alike := @readLine_alike _ flags echo other _ elements nonzero input dest
  cases read : lineOf flags (size * elements).toNat input [] with
  | none => rwa [read] at alike
  | some line =>
    rw [read] at alike
    obtain ⟨transfer, stored, typed, serial, keyboard, result, length, same⟩ := alike
    obtain ⟨count, first, second⟩ :=
      @both_consume _ flags echo other _ _ elements nonzero _ read dest
    refine ⟨transfer, stored, typed, count, serial, keyboard, first, second, same, ?_⟩
    intro counted
    rw [result, asInt_eq_iff, BitVec.toNat_udiv, length]
    exact ⟨counted, Nat.mod_eq_of_lt (by omega)⟩

/-- A letter and a line feed. -/
theorem terminals_agree_sample :
    match lineOf (ttyCooked : BitVec 64) ((1 : BitVec 64) * 4).toNat [97, 10] [] with
    | none =>
      readLine (serialWith (ttyCooked : BitVec 64) fun _ => []) [97, 10] (some fun _ => 0) 1 4 =
          .error .hang ∧
        readLine (keyboardWith (ttyCooked : BitVec 64) fun _ => []) [97, 10] (some fun _ => 0) 1 4 =
          .error .hang
    | some line => ∃ transfer stored typed count,
        readLine (serialWith (ttyCooked : BitVec 64) fun _ => []) [97, 10] (some fun _ => 0) 1 4 =
          .ok (transfer, stored) ∧
        readLine (keyboardWith (ttyCooked : BitVec 64) fun _ => []) [97, 10] (some fun _ => 0) 1 4 =
          .ok (transfer, typed) ∧
        Consumes (readLine (serialWith (ttyCooked : BitVec 64) fun _ => []) · (some fun _ => 0) 1 4)
          [97, 10] count ∧
        Consumes
          (readLine (keyboardWith (ttyCooked : BitVec 64) fun _ => []) · (some fun _ => 0) 1 4)
          [97, 10] count ∧
        (∀ index, (EndedByFeed (ttyCooked : BitVec 64) ((1 : BitVec 64) * 4).toNat [97, 10] [] →
          index ≠ line.length) → typed.buf index = stored.buf index) ∧
        (line.length / (1 : BitVec 64).toNat < 2 ^ 31 →
          transfer.result.toInt = (line.length / (1 : BitVec 64).toNat : Nat)) :=
  terminals_agree (ttyCooked : BitVec 64) 1 4 _ _ (by decide) [97, 10] _

/-- One character counts for nothing in elements of two bytes. -/
theorem part_not_counted :
    ¬ ∀ (flags size elements : BitVec 64) (echo other : BitVec 8 → List (BitVec 8))
      (input : List (BitVec 8)) (dest : Nat → BitVec 8) (transfer transfer' : Transfer)
      (stored typed : Line 64), size ≠ 0 →
      readLine (serialWith flags echo) input (some dest) size elements = .ok (transfer, stored) →
      readLine (keyboardWith flags other) input (some dest) size elements =
        .ok (transfer', typed) →
      typed.buf = stored.buf ∧ transfer'.result = transfer.result ∧
        transfer.result.toInt * size.toNat = stored.i.toNat := by
  intro claim
  have counted := claim ttyCooked 2 2 (fun _ => []) (fun _ => []) [97, 10] (fun _ => 0) _ _ _ _
    (by decide) rfl rfl
  exact absurd counted.2.2 (by decide +kernel)

end Agreement

/-! ## The node of the keyboard -/

/-- A port that has the PS/2 driver. -/
inductive X86
  | amd64
  | ia32
  deriving DecidableEq

/-- The width of a port. -/
def X86.width : X86 → Nat
  | amd64 => 64
  | ia32 => 32

/-- What ends in a kernel panic. The exception of a division by zero enters `IdtDefault`, which
calls `PanicImpl` on amd64 and goes on with the next process on ia32. -/
def X86.Panics {α : Type} (port : X86) : Except Stop α → Prop
  | .error (.panic _) => True
  | .error .divideByZero => port = amd64
  | _ => False

section Node

variable {width : Nat} {Registers : Type}

/-- The part of `Init` that builds the node of the keyboard, given `/dev`: the node, and what is
stored at its `DriverData`. -/
def installKeyboard (allocator : Allocator) (dev : Pointer) :
    Kernel (KernelState width Registers) (Address × BitVec width) := do
  let keyboard ← newVNode allocator vfsRead
  writeNode (some keyboard) fun node =>
    { node with
      name := ⟨cString ['p', 's', '2', '_', 'k', 'b', 'd'], 7⟩
      readFunction := .driver }
  let driverData ← kalloc allocator
  writeNode (some keyboard) fun node => { node with driverData := some driverData }
  registerChildVNode dev (some keyboard)
  pure (keyboard, ttyCooked ||| ttyEcho ||| ttyNlcr ||| ttyCrnl)

/-- `Node->WriteFunction(&chr, 1, 1, Node)`; only the defaults of `NewVNode` are followed. -/
def echoThrough (function : RWFunction) (_ : BitVec 8) : Except Stop (List (BitVec 8)) :=
  match function with
  | .default => .error (.panic .unintendedCall)
  | .task | .driver => .error .driver

/-- `ps2_keyboard_read` on a node, with its flags. -/
def readKeyboard (node : VNode) (flags : BitVec width) (keyboard : Keyboard) (polls : List Poll)
    (buf : Option (Nat → BitVec 8)) (size elements : BitVec width) :
    Except Stop (Transfer × Line width) :=
  readLine ⟨flags, echoThrough node.writeFunction, true⟩ (ps2Getchars keyboard polls) buf size
    elements

variable {allocator : Allocator} {dev : Pointer} {before after : KernelState width Registers}
  {keyboard : Address} {flags : BitVec width}

/-- The node of the keyboard keeps the default write function, and echoes. -/
theorem installKeyboard_ok
    (installed : installKeyboard allocator dev before = .ok (keyboard, flags) after) :
    (after.node keyboard).writeFunction = .default ∧
      flags = ttyCooked ||| ttyEcho ||| ttyNlcr ||| ttyCrnl := by
  obtain ⟨new, made, created, rest⟩ := bind_ok.mp installed
  obtain ⟨_, named, assigned, rest⟩ := bind_ok.mp rest
  obtain ⟨driverData, allocated, taken, rest⟩ := bind_ok.mp rest
  obtain ⟨_, attached, stored, rest⟩ := bind_ok.mp rest
  obtain ⟨_, registered, child, done⟩ := bind_ok.mp rest
  obtain ⟨same, rfl⟩ := pure_ok.mp done
  cases same
  refine ⟨?_, rfl⟩
  obtain ⟨_, rfl⟩ := newVNode_ok created
  obtain ⟨_, rfl⟩ := kalloc_ok taken
  obtain ⟨_, here, rfl⟩ := writeNode_ok.mp assigned
  cases here
  obtain ⟨_, again, rfl⟩ := writeNode_ok.mp stored
  cases again
  cases dev with
  | none =>
    obtain ⟨_, _, checks, _⟩ := bind_ok.mp child
    exact absurd rfl (panicIf_ok.mp checks).1
  | some dev =>
    rw [registerChildVNode_ok child]
    simp only [attach, KernelState.setNode, KernelState.allocated, Function.update_self,
      Function.update_apply]
    split_ifs <;> rfl

/-- Reading the keyboard through its node, whatever is typed: the read ends in no panic exactly when
nothing is asked for, on amd64 with a `Size` that is not 0, or no character arrives. -/
theorem keyboard_never_panics_iff {port : X86} {before after : KernelState port.width Registers}
    {address : Address} {flags : BitVec port.width}
    (installed : installKeyboard allocator dev before = .ok (address, flags) after)
    (keyboard : Keyboard) (polls : List Poll) (dest : Nat → BitVec 8)
    (size elements : BitVec port.width) :
    ¬ port.Panics (readKeyboard (after.node address) flags keyboard polls (some dest) size
        elements) ↔
      if size * elements = 0 then size ≠ 0 ∨ port = .ia32 else ps2Getchars keyboard polls = [] := by
  obtain ⟨function, rfl⟩ := installKeyboard_ok installed
  have echoes : isSet (ttyCooked ||| ttyEcho ||| ttyNlcr ||| ttyCrnl : BitVec port.width)
      ttyEcho := by
    cases port <;> decide
  unfold readKeyboard
  rw [function]
  generalize same : (⟨_, echoThrough .default, true⟩ : Terminal port.width) = terminal
  have panics : ∀ chr, terminal.puts chr = .error (.panic .unintendedCall) := by
    rw [← same]
    exact fun chr => if_pos echoes
  simp only [readLine, checked, bind, Except.bind]
  by_cases nothing : size * elements = 0
  · have full := @readChars_full _ terminal 0 (ps2Getchars keyboard polls) ⟨0, dest, []⟩
      (BitVec.lt_irrefl _)
    rw [if_pos nothing, nothing, full]
    by_cases zero : size = 0
    · simp only [perSize, if_pos zero]
      cases port with
      | amd64 => exact iff_of_false (fun never => never rfl) (by simp [zero])
      | ia32 => exact iff_of_true (by simp [X86.Panics]) (.inr rfl)
    · simp only [perSize, if_neg zero]
      exact iff_of_true id (.inl zero)
  · rw [if_neg nothing]
    have more : (0 : BitVec port.width) < size * elements := by
      have positive := Nat.pos_of_ne_zero fun zero => nothing (BitVec.eq_of_toNat_eq zero)
      simpa [BitVec.lt_def] using positive
    cases ps2Getchars keyboard polls with
    | nil =>
      rw [readChars, if_pos more]
      exact iff_of_true id rfl
    | cons arrived input =>
      have stops := @readChars_stops _ terminal (size * elements) input arrived ⟨0, dest, []⟩ _ more
        (panics _)
      rw [stops]
      exact iff_of_false (fun never => never trivial) (List.cons_ne_nil _ _)

/-- The node of the keyboard below the root. -/
theorem keyboard_installed :
    installKeyboard .next (some rootVNode) (KernelState.bareRoot 64 ()) = .ok (1, 30)
      (stateAfter (installKeyboard .next (some rootVNode)) (KernelState.bareRoot 64 ())) :=
  ok_of_resultOf (by decide +kernel)

/-- A read of one byte. -/
theorem keyboard_never_panics_iff_sample :
    ¬ X86.amd64.Panics (readKeyboard ((stateAfter (installKeyboard .next (some rootVNode))
        (KernelState.bareRoot 64 ())).node 1) (30 : BitVec 64) ⟨false, false⟩ [⟨1, 0, 0x1e⟩]
        (some fun _ => 0) 1 1) ↔
      if (1 : BitVec 64) * 1 = 0 then (1 : BitVec 64) ≠ 0 ∨ X86.amd64 = .ia32
      else ps2Getchars ⟨false, false⟩ [⟨1, 0, 0x1e⟩] = [] :=
  @keyboard_never_panics_iff _ .next (some rootVNode) .amd64 _ _ 1 30 keyboard_installed _ _ _ 1 1

/-- The first character that is typed is a panic. -/
theorem first_character_panics :
    ¬ ∀ (before after : KernelState 64 Unit) (address : Address) (flags : BitVec 64),
      installKeyboard .next (some rootVNode) before = .ok (address, flags) after →
      ∀ (keyboard : Keyboard) (polls : List Poll) (dest : Nat → BitVec 8)
        (size elements : BitVec 64),
        ¬ X86.amd64.Panics (readKeyboard (after.node address) flags keyboard polls (some dest) size
          elements) := by
  intro claim
  apply claim _ _ _ _ keyboard_installed ⟨false, false⟩ [⟨1, 0, 0x1e⟩] (fun _ => 0) 1 1
  have function := (installKeyboard_ok keyboard_installed).1
  unfold readKeyboard
  rw [function]
  exact trivial

end Node

end Unarddeg
