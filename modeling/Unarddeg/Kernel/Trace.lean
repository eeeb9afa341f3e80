import Unarddeg.Kernel.String
import Unarddeg.Library.Decimal

/-!
# The function trace

`FunctionTrace`, `TraceImpl`, `ExitTraceImpl` and `PanicImpl` of `kernel/panic.c`, the macro `Trace`
of `kernel/panic.h`, and `SerialPrint` of `kernel/drivers/SerialPrint.c`, which traces every
character that it puts. The state is the trace and what was put on the serial line.

`PanicImpl` disables the interrupts first, so nothing else runs while it prints. With a full trace
it never prints anything: the first character is traced, which panics again.
-/

namespace Unarddeg

open Library

/-- `MAX_TRACE_DEPTH`. -/
def maxTraceDepth : Nat := 64

/-- `TraceEntry`. -/
structure TraceEntry where
  /-- The name of the file. -/
  fileName : Option (List UInt8)
  /-- The name of the function. -/
  functionName : Option (List UInt8)
  /-- The line. -/
  line : Int
  deriving DecidableEq, Repr

/-- An entry of zero bytes. -/
def TraceEntry.cleared : TraceEntry := ⟨none, none, 0⟩

/-- Where `Trace` stands: `__FILE__`, `__func__` and `__LINE__`. -/
structure Site where
  /-- The file. -/
  file : List UInt8
  /-- The function. -/
  func : List UInt8
  /-- The line. -/
  line : Int
  deriving DecidableEq, Repr

/-- The trace record of a place. -/
def Site.entry (site : Site) : TraceEntry := ⟨some site.file, some site.func, site.line⟩

/-- The trace and the serial line. -/
@[ext]
structure TraceState where
  /-- `FunctionTrace`. -/
  functionTrace : Nat → TraceEntry
  /-- `FunctionTraceDepth`. -/
  functionTraceDepth : Int
  /-- What `SerialPut` was called with. -/
  serial : List UInt8

/-- An index of `FunctionTrace`. -/
def traceIndex (index : Int) : Kernel TraceState Nat :=
  if 0 ≤ index ∧ index < maxTraceDepth then pure index.toNat else throw .outOfBounds

/-- `TraceImpl`. -/
def traceImpl (site : Site) : Kernel TraceState Unit := do
  let state ← get
  panicIf (state.functionTraceDepth ≥ maxTraceDepth) .traceOverflow
  let index ← traceIndex state.functionTraceDepth
  set { state with
    functionTrace := Function.update state.functionTrace index site.entry
    functionTraceDepth := state.functionTraceDepth + 1 }

/-- `ExitTraceImpl`, which makes no use of its arguments. -/
def exitTraceImpl (_ : Site) : Kernel TraceState Unit := do
  let state ← get
  let index ← traceIndex (state.functionTraceDepth - 1)
  set { state with
    functionTrace := Function.update state.functionTrace index .cleared
    functionTraceDepth := state.functionTraceDepth - 1 }

/-- `Trace(expr)`. -/
def trace (site : Site) (expr : Kernel TraceState Unit) : Kernel TraceState Unit := do
  traceImpl site
  expr
  exitTraceImpl site

/-! ## Printing -/

/-- `SerialPut`. -/
def serialPut (byte : UInt8) : Kernel TraceState Unit :=
  modify fun state => { state with serial := state.serial ++ [byte] }

/-- `hex_digits`. -/
def hexDigit (digit : Nat) : UInt8 :=
  if digit < 10 then digitByte digit else UInt8.ofNat (digit + 87)

/-- `IntegerToHexadecimal`. -/
def integerToHexadecimal (value : BitVec 32) : List UInt8 :=
  (List.range 8).map fun place => hexDigit ((value.toNat >>> (4 * (7 - place))) &&& 0xF)

/-- The digits that `SerialPrintHex` puts: all from the first that is no zero, or the last one. -/
def hexNumeral (value : BitVec 32) : List UInt8 :=
  ((integerToHexadecimal value).take 7).dropWhile (· = 48) ++ (integerToHexadecimal value).drop 7

/-- `SerialPrintHex`. -/
def serialPrintHex (value : BitVec 32) : Kernel TraceState Unit :=
  (hexNumeral value).forM serialPut

/-- A variable argument: a word for `%c`, `%d` and `%x`, or a string. -/
inductive VaArg
  | word (value : BitVec 32)
  | string (text : Option (List UInt8))

/-- A place in `SerialPrint`. -/
def serialPrintSite (line : Int) : Site where
  file := cString "src/kernel/drivers/SerialPrint.c".toList
  func := cString "SerialPrint".toList
  line := line

/-- The digits that `%d` buffers, in the order in which they are put. The loop that buffers them
ends at once if the smallest number is still negative. -/
def decimalDigits (magnitude : BitVec 32) : List UInt8 :=
  if magnitude.toInt < 0 then [] else numeral magnitude.toNat

/-- What `SerialPrint` does behind a `%`: it prints the next argument and leaves the others. An
argument of another type, or none, is undefined behaviour. -/
def printArg (kind : UInt8) (args : List VaArg) : Kernel TraceState (List VaArg) :=
  if kind = 'c'.toUInt8 then
    match args with
    | .word value :: rest => do
      trace (serialPrintSite 46) (serialPut ⟨value.setWidth 8⟩)
      pure rest
    | _ => throw .fault
  else if kind = 's'.toUInt8 then
    match args with
    | .string (some text) :: rest => do
      text.forM fun byte => trace (serialPrintSite 53) (serialPut byte)
      pure rest
    | .string Option.none :: _ => throw .nullAccess
    | _ => throw .fault
  else if kind = 'd'.toUInt8 then
    match args with
    | .word value :: rest => do
      onlyIf (value.toInt < 0) do
        trace (serialPrintSite 62) (serialPut '-'.toUInt8)
      (decimalDigits (if value.toInt < 0 then -value else value)).forM fun byte =>
        trace (serialPrintSite 81) (serialPut byte)
      pure rest
    | _ => throw .fault
  else if kind = 'x'.toUInt8 then
    match args with
    | .word value :: rest => do
      trace (serialPrintSite 87) (serialPrintHex value)
      pure rest
    | _ => throw .fault
  else pure args

/-- `SerialPrint`. A format that ends in `%` is read behind its end. -/
def serialPrint : (fmt : List UInt8) → (args : List VaArg) → Kernel TraceState Unit
  | [], _ => pure ()
  | byte :: fmt, args =>
    if byte = '%'.toUInt8 then
      match fmt with
      | [] => throw .outOfBounds
      | kind :: fmt => do
        let rest ← printArg kind args
        serialPrint fmt rest
    else do
      trace (serialPrintSite 92) (serialPut byte)
      serialPrint fmt args

/-! ## Panics -/

/-- A string constant. -/
def literal (text : String) : List UInt8 := cString text.toList

/-- The loop of `PanicImpl` over the trace. -/
def dumpTrace : (depth : Nat) → Kernel TraceState Unit
  | 0 => pure ()
  | depth + 1 => do
    let index ← traceIndex depth
    let state ← get
    let entry := state.functionTrace index
    serialPrint (literal "Top-%x: %s:%d (%s)")
      [.word (.ofNat 32 (depth + 1)), .string entry.fileName, .word (.ofInt 32 entry.line),
        .string entry.functionName]
    dumpTrace depth

/-- `PanicClass`. -/
inductive PanicClass
  | supervisor
  | userspace
  deriving DecidableEq, Repr

/-- What `PanicImpl` prints besides the trace. -/
structure PanicReport where
  /-- `File`. -/
  file : Option (List UInt8)
  /-- `Line`. -/
  line : Int
  /-- `Code`. -/
  code : PanicCode
  /-- `CodeAsStr`. -/
  codeAsStr : List UInt8
  /-- `Class`. -/
  panicClass : PanicClass
  /-- The identifier of the current process, or zero. -/
  programIdentifier : UInt64
  /-- The temperature, on ports that have one. -/
  temperature : Option (BitVec 32)

/-- `PanicImpl` prints the temperature if the port has one. -/
def printTemperature : (temperature : Option (BitVec 32)) → Kernel TraceState Unit
  | some temperature => serialPrint (literal "Temperature x1000: %d\r\n") [.word temperature]
  | none => pure ()

/-- `PanicImpl` prints the place of the panic if it is known. -/
def printLocation (file : Option (List UInt8)) (line : Int) : Kernel TraceState Unit :=
  match file with
  | some file =>
    serialPrint (literal "Source Location: %s:%d\r\n")
      [.string (some file), .word (.ofInt 32 line)]
  | none => pure ()

/-- `PanicClass`, as `PanicImpl` prints it. -/
def PanicClass.text : PanicClass → List UInt8
  | .supervisor => literal "SUPERVISOR"
  | .userspace => literal "USERSPACE"

/-- What `PanicImpl` prints before the trace. -/
def printReport (report : PanicReport) : Kernel TraceState Unit := do
  serialPrint (literal "\r\n -- KERNEL PANIC VIA %s IN PROCESS %d -- \r\n")
    [.string (some report.panicClass.text), .word (.ofNat 32 report.programIdentifier.toNat)]
  serialPrint (literal "Kernel Panic Function %x (%s) was raised\r\n")
    [.word (.ofNat 32 report.code.ctorIdx), .string (some report.codeAsStr)]
  printTemperature report.temperature
  printLocation report.file report.line
  serialPrint (literal "Trace Dump:\r\n") []

/-- `PanicImpl`. -/
def panicImpl (report : PanicReport) : Kernel TraceState Unit := do
  printReport report
  let state ← get
  onlyIf (state.functionTraceDepth = 0) do
    serialPrint (literal "(No Trace Entries.)\r\n") []
  dumpTrace state.functionTraceDepth.toNat
  panicWith report.code

/-! ## The trace as a stack -/

/-- The entries below the depth, the oldest first. -/
def TraceState.live (state : TraceState) : List TraceEntry :=
  (List.range state.functionTraceDepth.toNat).map state.functionTrace

/-- The state after an entry was stored at the depth. -/
def TraceState.pushed (state : TraceState) (depth : Nat) (site : Site) : TraceState :=
  { state with
    functionTrace := Function.update state.functionTrace depth site.entry
    functionTraceDepth := (depth + 1 : Nat) }

/-- The state after the entries from a depth on were cleared. -/
def TraceState.popped (state : TraceState) (depth : Nat) : TraceState :=
  { state with
    functionTrace := Function.update state.functionTrace depth .cleared
    functionTraceDepth := depth }

/-- The state after a text was put on the serial line. -/
def TraceState.printed (state : TraceState) (text : List UInt8) : TraceState :=
  { state with serial := state.serial ++ text }

/-- The trace is a stack of some depth: records below it, and nothing above. -/
structure TraceState.Proper (state : TraceState) (depth : Nat) : Prop where
  /-- The depth. -/
  counted : state.functionTraceDepth = depth
  /-- It fits. -/
  fits : depth ≤ maxTraceDepth
  /-- The other entries are zero. -/
  cleared : ∀ index, depth ≤ index → state.functionTrace index = .cleared
  /-- The entries are records. -/
  records : ∀ index < depth, ∃ site : Site, state.functionTrace index = site.entry

section Stack

variable {state : TraceState} {depth : Nat} {site : Site} {text : List UInt8}

/-- An index inside the array is allowed. -/
theorem traceIndex_eq {index : Nat} (inside : index < maxTraceDepth) :
    traceIndex index state = .ok index state := by
  have allowed : (0 : Int) ≤ index ∧ (index : Int) < maxTraceDepth := by
    omega
  rw [traceIndex, if_pos allowed]
  rfl

/-- `TraceImpl` stores an entry while there is room. -/
theorem traceImpl_eq (proper : state.Proper depth) (room : depth < maxTraceDepth) :
    traceImpl site state = .ok () (state.pushed depth site) := by
  have below : ¬ state.functionTraceDepth ≥ maxTraceDepth := by
    have := proper.counted
    omega
  have checked : panicIf (state.functionTraceDepth ≥ maxTraceDepth) .traceOverflow state =
      .ok () state :=
    panicIf_ok.mpr ⟨below, rfl⟩
  rw [traceImpl, bind_of_ok (get_ok.mpr ⟨rfl, rfl⟩), bind_of_ok checked, proper.counted,
    bind_of_ok (traceIndex_eq room)]
  rfl

/-- `TraceImpl` panics when the trace is full. -/
theorem traceImpl_full (proper : state.Proper maxTraceDepth) :
    traceImpl site state = .error (.panic .traceOverflow) state := by
  have full : state.functionTraceDepth ≥ maxTraceDepth := by
    have := proper.counted
    omega
  rw [traceImpl, bind_of_ok (get_ok.mpr ⟨rfl, rfl⟩), panicIf, if_pos full]
  rfl

/-- `ExitTraceImpl` clears the newest entry. -/
theorem exitTraceImpl_eq (proper : state.Proper (depth + 1)) :
    exitTraceImpl site state = .ok () (state.popped depth) := by
  have newest : state.functionTraceDepth - 1 = depth := by
    have := proper.counted
    omega
  rw [exitTraceImpl, bind_of_ok (get_ok.mpr ⟨rfl, rfl⟩)]
  rw [newest, bind_of_ok (traceIndex_eq (Nat.lt_of_succ_le proper.fits))]
  rfl

/-- A trace with one more entry is a stack. -/
theorem TraceState.Proper.pushed (proper : state.Proper depth) (room : depth < maxTraceDepth) :
    (state.pushed depth site).Proper (depth + 1) where
  counted := rfl
  fits := room
  cleared index above :=
    (Function.update_of_ne (by omega) _ _).trans (proper.cleared index (by omega))
  records index below := by
    by_cases newest : index = depth
    · exact ⟨site, newest ▸ Function.update_self ..⟩
    · obtain ⟨older, entry⟩ := proper.records index (by omega)
      exact ⟨older, (Function.update_of_ne newest _ _).trans entry⟩

/-- A trace with one entry less is a stack. -/
theorem TraceState.Proper.popped (proper : state.Proper (depth + 1)) :
    (state.popped depth).Proper depth where
  counted := rfl
  fits := Nat.le_of_succ_le proper.fits
  cleared index above := by
    by_cases newest : index = depth
    · exact newest ▸ Function.update_self ..
    · exact (Function.update_of_ne newest _ _).trans (proper.cleared index (by omega))
  records index below := by
    obtain ⟨site, entry⟩ := proper.records index (by omega)
    exact ⟨site, (Function.update_of_ne (by omega) _ _).trans entry⟩

/-- Printing leaves the trace alone. -/
theorem TraceState.Proper.printed (proper : state.Proper depth) :
    (state.printed text).Proper depth :=
  ⟨proper.counted, proper.fits, proper.cleared, proper.records⟩

/-- The new entry is the newest. -/
theorem live_pushed (proper : state.Proper depth) :
    (state.pushed depth site).live = state.live ++ [site.entry] := by
  simp only [TraceState.live, TraceState.pushed, proper.counted, Int.toNat_natCast,
    List.range_succ, List.map_append, List.map_cons, List.map_nil, Function.update_self]
  congr 1
  apply List.map_congr_left
  intro index member
  exact Function.update_of_ne (by simpa using Nat.ne_of_lt (List.mem_range.mp member)) _ _

/-- The newest entry is the one that is cleared. -/
theorem live_popped (proper : state.Proper (depth + 1)) :
    state.live = (state.popped depth).live ++ [state.functionTrace depth] := by
  simp only [TraceState.live, TraceState.popped, proper.counted, Int.toNat_natCast,
    List.range_succ, List.map_append, List.map_cons, List.map_nil]
  congr 1
  apply List.map_congr_left
  intro index member
  exact (Function.update_of_ne (by simpa using Nat.ne_of_lt (List.mem_range.mp member)) _ _).symm

end Stack

/-! ## What is printed -/

/-- With room in the trace, a function prints a text, returns a value, and leaves the trace as it
was. -/
def Prints {α : Type} (action : Kernel TraceState α) (text : List UInt8) (value : α) : Prop :=
  ∀ (state : TraceState) (depth : Nat), state.Proper depth → depth < maxTraceDepth →
    action state = .ok value (state.printed text)

section Prints

variable {α β : Type}

/-- Returning a value prints nothing. -/
theorem Prints.pure (value : α) : Prints (pure value) [] value := by
  intro state depth proper room
  rw [TraceState.printed, List.append_nil]
  rfl

/-- A sequence prints one text behind the other. -/
theorem Prints.bind {first : Kernel TraceState α} {next : α → Kernel TraceState β}
    {text more : List UInt8} {value : α} {result : β} (head : Prints first text value)
    (tail : Prints (next value) more result) : Prints (first >>= next) (text ++ more) result := by
  intro state depth proper room
  rw [bind_of_ok (head state depth proper room), tail _ depth proper.printed room]
  simp only [TraceState.printed, List.append_assoc]

/-- A function that returns a value afterwards prints no more. -/
theorem Prints.returning {first : Kernel TraceState α} {text : List UInt8} {value : α} {result : β}
    (prints : Prints first text value) :
    Prints (first >>= fun _ => Pure.pure result) text result := by
  have whole := @Prints.bind _ _ first (fun _ => Pure.pure result) _ _ _ _ prints (.pure result)
  rwa [List.append_nil] at whole

/-- A loop over bytes prints them. -/
theorem Prints.forM {body : UInt8 → Kernel TraceState PUnit} {bytes : List UInt8}
    (each : ∀ byte, Prints (body byte) [byte] ⟨⟩) : Prints (bytes.forM body) bytes ⟨⟩ := by
  induction bytes with
  | nil => exact .pure _
  | cons byte bytes ih => exact (each byte).bind ih

/-- A conditional function prints what its branch prints. -/
theorem Prints.onlyIf {test : Prop} [Decidable test] {action : Kernel TraceState Unit}
    {text : List UInt8} (prints : Prints action text ()) :
    Prints (onlyIf test action) (if test then text else []) () := by
  unfold Unarddeg.onlyIf
  split
  · exact prints
  · exact .pure _

/-- What is put inside a section is printed. -/
theorem prints_trace {site : Site} {expr : Kernel TraceState Unit} {text : List UInt8}
    (puts : ∀ state, expr state = .ok () (state.printed text)) :
    Prints (trace site expr) text () := by
  intro state depth proper room
  rw [trace, bind_of_ok (traceImpl_eq proper room), bind_of_ok (puts _),
    exitTraceImpl_eq (proper.pushed room).printed]
  -- The section leaves a cleared entry where there was one.
  have same : (((state.pushed depth site).printed text).popped depth) = state.printed text := by
    apply TraceState.ext
    · show Function.update (Function.update state.functionTrace depth site.entry) depth .cleared =
        state.functionTrace
      rw [Function.update_idem, ← proper.cleared depth (Nat.le_refl depth),
        Function.update_eq_self]
    · exact proper.counted.symm
    · rfl
  rw [same]

/-- `SerialPut` puts its character. -/
theorem serialPut_eq (byte : UInt8) (state : TraceState) :
    serialPut byte state = .ok () (state.printed [byte]) := rfl

/-- `SerialPrintHex` puts its digits. -/
theorem serialPrintHex_eq (value : BitVec 32) (state : TraceState) :
    serialPrintHex value state = .ok () (state.printed (hexNumeral value)) := by
  unfold serialPrintHex
  generalize hexNumeral value = digits
  induction digits generalizing state with
  | nil => simp [TraceState.printed]; rfl
  | cons digit digits ih =>
    show (serialPut digit >>= fun _ => digits.forM serialPut) state = _
    rw [bind_of_ok (serialPut_eq digit state), ih]
    simp [TraceState.printed]

end Prints

/-- A word as `%d` prints it. -/
def signedNumeral (value : BitVec 32) : List UInt8 :=
  (if value.toInt < 0 then ['-'.toUInt8] else []) ++
    decimalDigits (if value.toInt < 0 then -value else value)

/-- What is printed for the argument behind a `%`, and the arguments that are left. -/
def argText (kind : UInt8) (args : List VaArg) : Option (List UInt8 × List VaArg) :=
  if kind = 'c'.toUInt8 then
    match args with
    | .word value :: rest => some ([⟨value.setWidth 8⟩], rest)
    | _ => none
  else if kind = 's'.toUInt8 then
    match args with
    | .string (some text) :: rest => some (text, rest)
    | _ => none
  else if kind = 'd'.toUInt8 then
    match args with
    | .word value :: rest => some (signedNumeral value, rest)
    | _ => none
  else if kind = 'x'.toUInt8 then
    match args with
    | .word value :: rest => some (hexNumeral value, rest)
    | _ => none
  else some ([], args)

/-- What `SerialPrint` prints, if its arguments fit its format. -/
def formatted : (fmt : List UInt8) → (args : List VaArg) → Option (List UInt8)
  | [], _ => some []
  | byte :: fmt, args =>
    if byte = '%'.toUInt8 then
      match fmt with
      | [] => none
      | kind :: fmt =>
        match argText kind args with
        | some (text, rest) => (formatted fmt rest).map (text ++ ·)
        | none => none
    else (formatted fmt args).map (byte :: ·)

section Formats

variable {fmt text : List UInt8} {args rest : List VaArg}

/-- An argument is printed as its text. -/
theorem printArg_prints {kind : UInt8} (known : argText kind args = some (text, rest)) :
    Prints (printArg kind args) text rest := by
  unfold argText at known
  unfold printArg
  split_ifs at known ⊢
  · -- A character.
    split at known
    · obtain ⟨rfl, rfl⟩ := Prod.mk.inj (Option.some.inj known)
      exact (prints_trace (serialPut_eq _)).returning
    · cases known
  · -- A string.
    split at known
    · obtain ⟨rfl, rfl⟩ := Prod.mk.inj (Option.some.inj known)
      exact (Prints.forM fun byte => prints_trace (serialPut_eq byte)).returning
    · cases known
  · -- A number with its sign.
    split at known
    · obtain ⟨rfl, rfl⟩ := Prod.mk.inj (Option.some.inj known)
      apply Prints.bind (Prints.onlyIf (prints_trace (serialPut_eq _)))
      exact (Prints.forM fun byte => prints_trace (serialPut_eq byte)).returning
    · cases known
  · -- A hexadecimal number.
    split at known
    · obtain ⟨rfl, rfl⟩ := Prod.mk.inj (Option.some.inj known)
      exact (prints_trace (serialPrintHex_eq _)).returning
    · cases known
  · obtain ⟨rfl, rfl⟩ := Prod.mk.inj (Option.some.inj known)
    exact .pure _

/-- `SerialPrint` prints the formatted text. -/
theorem serialPrint_prints (known : formatted fmt args = some text) :
    Prints (serialPrint fmt args) text () := by
  fun_induction formatted fmt args generalizing text with
  | case1 args =>
    obtain rfl := Option.some.inj known
    exact .pure ()
  | case2 => cases known
  | case3 args kind fmt printed rest argument ih =>
    obtain ⟨more, formats, rfl⟩ := Option.map_eq_some_iff.mp known
    unfold serialPrint
    rw [if_pos rfl]
    exact (printArg_prints argument).bind (ih formats)
  | case4 => cases known
  | case5 byte fmt args plain ih =>
    obtain ⟨more, formats, rfl⟩ := Option.map_eq_some_iff.mp known
    unfold serialPrint
    rw [if_neg plain]
    exact (prints_trace (serialPut_eq byte)).bind (ih formats)

end Formats

/-! ## The dump -/

/-- The text for an entry of the trace. -/
def dumpLine (depth : Nat) (entry : TraceEntry) : List UInt8 :=
  literal "Top-" ++ (hexNumeral (.ofNat 32 depth) ++ (literal ": " ++ (entry.fileName.getD [] ++
    (literal ":" ++ (signedNumeral (.ofInt 32 entry.line) ++ (literal " (" ++
      (entry.functionName.getD [] ++ literal ")")))))))

/-- The text for the entries of the trace, the newest first. -/
def dumpText : (newestFirst : List TraceEntry) → List UInt8
  | [] => []
  | entry :: older => dumpLine (older.length + 1) entry ++ dumpText older

/-- The whole dump. -/
def traceDump (newestFirst : List TraceEntry) : List UInt8 :=
  (if newestFirst = [] then literal "(No Trace Entries.)\r\n" else []) ++ dumpText newestFirst

section Dump

variable {state : TraceState} {depth : Nat}

/-- Characters that are no `%` are printed as they are. -/
theorem formatted_append {front fmt : List UInt8} {args : List VaArg}
    (plain : ∀ byte ∈ front, byte ≠ '%'.toUInt8) :
    formatted (front ++ fmt) args = (formatted fmt args).map (front ++ ·) := by
  induction front with
  | nil => simp
  | cons byte front ih =>
    rw [List.cons_append, formatted.eq_def]
    simp only [if_neg (plain byte List.mem_cons_self)]
    rw [ih fun later member => plain later (List.mem_cons_of_mem _ member), Option.map_map]
    rfl

/-- A conversion prints its argument. -/
theorem formatted_percent {kind : UInt8} {fmt text : List UInt8} {args rest : List VaArg}
    (argument : argText kind args = some (text, rest)) :
    formatted ('%'.toUInt8 :: kind :: fmt) args = (formatted fmt rest).map (text ++ ·) := by
  rw [formatted, if_pos rfl]
  simp only [argument]

/-- The line of an entry is what the format makes of it. -/
theorem formatted_dumpLine (number : Nat) (site : Site) :
    formatted (literal "Top-%x: %s:%d (%s)")
      [.word (.ofNat 32 number), .string (some site.file), .word (.ofInt 32 site.line),
        .string (some site.func)] = some (dumpLine number site.entry) := by
  have parts : literal "Top-%x: %s:%d (%s)" = literal "Top-" ++ '%'.toUInt8 :: 'x'.toUInt8 ::
      (literal ": " ++ '%'.toUInt8 :: 's'.toUInt8 :: (literal ":" ++ '%'.toUInt8 ::
        'd'.toUInt8 :: (literal " (" ++ '%'.toUInt8 :: 's'.toUInt8 :: (literal ")" ++ [])))) := by
    decide +kernel
  rw [parts, formatted_append (by decide +kernel), formatted_percent rfl,
    formatted_append (by decide +kernel), formatted_percent rfl,
    formatted_append (by decide +kernel), formatted_percent rfl,
    formatted_append (by decide +kernel), formatted_percent rfl,
    formatted_append (by decide +kernel)]
  simp only [formatted, Option.map_some, List.append_nil]
  rfl

/-- An argument of the same type whose value is forgotten. -/
def VaArg.shape : VaArg → VaArg
  | .word _ => .word 0
  | .string text => .string (text.map fun _ => [])

/-- Whether there is an argument of the right type does not depend on its value. -/
theorem argText_shape (kind : UInt8) (args : List VaArg) :
    (argText kind (args.map VaArg.shape)).map Prod.snd =
      (argText kind args).map fun result => result.2.map VaArg.shape := by
  unfold argText
  rcases args with _ | ⟨_ | _ | _, args⟩ <;> split_ifs <;> rfl

/-- Whether arguments fit a format does not depend on their values. -/
theorem formatted_shape {fmt : List UInt8} {args : List VaArg} :
    (formatted fmt (args.map VaArg.shape)).isSome = (formatted fmt args).isSome := by
  fun_induction formatted fmt args with
  | case1 args => rfl
  | case2 => rfl
  | case3 args kind fmt printed rest argument ih =>
    have shapes := argText_shape kind args
    rw [argument, Option.map_some, Option.map_eq_some_iff] at shapes
    obtain ⟨⟨text, _⟩, argument, rfl⟩ := shapes
    rw [formatted_percent argument, Option.isSome_map, Option.isSome_map, ih]
  | case4 args kind fmt absent =>
    have shapes := argText_shape kind args
    rw [absent, Option.map_none, Option.map_eq_none_iff] at shapes
    rw [formatted, if_pos rfl]
    simp only [shapes]
  | case5 byte fmt args plain ih =>
    rw [formatted.eq_def]
    simp only [if_neg plain, Option.isSome_map, ih]

/-- `SerialPrint` prints something when its arguments fit its format. -/
theorem serialPrint_fits {fmt : List UInt8} {args : List VaArg} (shapes : List VaArg)
    (same : args.map VaArg.shape = shapes) (fits : (formatted fmt shapes).isSome) :
    ∃ text, Prints (serialPrint fmt args) text () := by
  subst same
  obtain ⟨text, known⟩ := Option.isSome_iff_exists.mp (formatted_shape ▸ fits)
  exact ⟨text, serialPrint_prints known⟩

/-- Two functions that print something do so one after the other. -/
theorem prints_both {first second : Kernel TraceState Unit}
    (head : ∃ text, Prints first text ()) (tail : ∃ text, Prints second text ()) :
    ∃ text, Prints (do first; second) text () := by
  obtain ⟨text, prints⟩ := head
  obtain ⟨more, follows⟩ := tail
  exact ⟨text ++ more, prints.bind follows⟩

/-- The report is printed. -/
theorem printReport_prints (report : PanicReport) :
    ∃ heading, Prints (printReport report) heading () := by
  unfold printReport
  apply prints_both (serialPrint_fits [.string (some []), .word 0] rfl (by decide +kernel))
  apply prints_both (serialPrint_fits [.word 0, .string (some [])] rfl (by decide +kernel))
  apply prints_both
  · cases report.temperature with
    | none => exact ⟨[], .pure ()⟩
    | some temperature => exact serialPrint_fits [.word 0] rfl (by decide +kernel)
  apply prints_both
  · cases report.file with
    | none => exact ⟨[], .pure ()⟩
    | some file => exact serialPrint_fits [.string (some []), .word 0] rfl (by decide +kernel)
  · exact serialPrint_fits [] rfl (by decide +kernel)

/-- The loop over the trace prints its entries, the newest first. -/
theorem dumpTrace_prints (count : Nat) :
    ∀ (state : TraceState) (depth : Nat), state.Proper depth → depth < maxTraceDepth →
      count ≤ depth → dumpTrace count state = .ok ()
        (state.printed (dumpText ((List.range count).map state.functionTrace).reverse)) := by
  induction count with
  | zero =>
    intro state depth proper room below
    rw [dumpTrace, TraceState.printed]
    simp [dumpText]
    rfl
  | succ count ih =>
    intro state depth proper room below
    obtain ⟨site, entry⟩ := proper.records count (by omega)
    have line := serialPrint_prints (formatted_dumpLine (count + 1) site) state depth proper room
    rw [dumpTrace, bind_of_ok (traceIndex_eq (by omega)), bind_of_ok (get_ok.mpr ⟨rfl, rfl⟩), entry]
    show (serialPrint (literal "Top-%x: %s:%d (%s)") [.word (.ofNat 32 (count + 1)),
      .string (some site.file), .word (.ofInt 32 site.line), .string (some site.func)] >>=
        fun _ => dumpTrace count) state = _
    rw [bind_of_ok line, ih _ depth proper.printed room (by omega), List.range_succ]
    simp [TraceState.printed, dumpText, entry]

/-- `PanicImpl` in front of its halt loop. -/
def printPanic (report : PanicReport) : Kernel TraceState Unit := do
  printReport report
  let state ← get
  onlyIf (state.functionTraceDepth = 0) do
    serialPrint (literal "(No Trace Entries.)\r\n") []
  dumpTrace state.functionTraceDepth.toNat

/-- The halt loop comes last. -/
theorem panicImpl_eq (report : PanicReport) :
    panicImpl report = printPanic report >>= fun _ => panicWith report.code := by
  simp only [panicImpl, printPanic, bind_assoc]

/-- With room in the trace a heading and the trace are printed. -/
theorem printPanic_dump {report : PanicReport} {heading : List UInt8}
    (prints : Prints (printReport report) heading ()) (proper : state.Proper depth)
    (room : depth < maxTraceDepth) :
    printPanic report state = .ok () (state.printed (heading ++ traceDump state.live.reverse)) := by
  have empty : state.functionTraceDepth = 0 ↔ state.live.reverse = [] := by
    rw [List.reverse_eq_nil_iff, TraceState.live, List.map_eq_nil_iff, List.range_eq_nil,
      proper.counted]
    omega
  have text : formatted (literal "(No Trace Entries.)\r\n") [] =
      some (literal "(No Trace Entries.)\r\n") := by
    decide +kernel
  have note := @Prints.onlyIf (state.functionTraceDepth = 0) _ _ _ (serialPrint_prints text)
  have count : state.functionTraceDepth.toNat = depth := by
    have := proper.counted
    omega
  have entries := dumpTrace_prints depth
    ((state.printed heading).printed (if state.functionTraceDepth = 0 then
      literal "(No Trace Entries.)\r\n" else [])) depth proper.printed.printed room (Nat.le_refl _)
  rw [printPanic, bind_of_ok (prints state depth proper room), bind_of_ok (get_ok.mpr ⟨rfl, rfl⟩)]
  show (onlyIf (state.functionTraceDepth = 0) _ >>= fun _ =>
    dumpTrace state.functionTraceDepth.toNat) _ = _
  rw [bind_of_ok (note _ depth proper.printed room), count, entries]
  simp only [TraceState.printed, TraceState.live, traceDump, List.append_assoc, empty, count]

/-- With a full trace nothing is printed: the first section that is opened panics. -/
theorem printPanic_full (report : PanicReport) (full : state.Proper maxTraceDepth) :
    printPanic report state = .error (.panic .traceOverflow) state := by
  have first : literal "\r\n -- KERNEL PANIC VIA %s IN PROCESS %d -- \r\n" =
      13 :: (literal "\r\n -- KERNEL PANIC VIA %s IN PROCESS %d -- \r\n").tail := by
    decide +kernel
  rw [printPanic, printReport, first]
  have plain : (13 : UInt8) ≠ '%'.toUInt8 := by
    decide
  have overflows : ∀ args, serialPrint
      (13 :: (literal "\r\n -- KERNEL PANIC VIA %s IN PROCESS %d -- \r\n").tail) args state =
        .error (.panic .traceOverflow) state := by
    intro args
    unfold serialPrint
    rw [if_neg plain]
    exact bind_of_error (bind_of_error (traceImpl_full full))
  exact bind_of_error (bind_of_error (overflows _))

/-- **The dump.** With room in the trace, `PanicImpl` prints a heading that only depends on its
arguments, and behind it the entries of the trace, the newest first. -/
theorem panicImpl_dump (report : PanicReport) :
    ∃ heading, ∀ (state : TraceState) (depth : Nat), state.Proper depth → depth < maxTraceDepth →
      panicImpl report state = .error (.panic report.code)
        (state.printed (heading ++ traceDump state.live.reverse)) := by
  obtain ⟨heading, prints⟩ := printReport_prints report
  refine ⟨heading, fun state depth proper room => ?_⟩
  rw [panicImpl_eq, bind_of_ok (printPanic_dump prints proper room)]
  rfl

/-- With a full trace `PanicImpl` prints nothing: it panics in the first section it opens. -/
theorem panicImpl_full (report : PanicReport) {state : TraceState}
    (full : state.Proper maxTraceDepth) :
    panicImpl report state = .error (.panic .traceOverflow) state := by
  rw [panicImpl_eq]
  exact bind_of_error (printPanic_full report full)

end Dump

end Unarddeg
