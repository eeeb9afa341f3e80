import Unarddeg.Kernel.Trace
import Unarddeg.Library.Radix

/-!
# The numbers that `SerialPrint` prints

The loops of `kernel/drivers/SerialPrint.c` over digits: that of `%d`, which buffers them with the
last one first, and those of `IntegerToHexadecimal` and `SerialPrintHex`. They print the numerals of
all words, except for the smallest `int`, whose negation is negative again (`numbers_printed_iff`).
-/

namespace Unarddeg

open Library

/-! ## The loops -/

/-- `while (num > 0) { buffer[i++] = (num % 10) + '0'; num /= 10; }`, of at most some rounds: what
it stores. -/
def bufferDigits : (rounds : Nat) → (num : BitVec 32) → List UInt8
  | 0, _ => []
  | rounds + 1, num =>
    if 0 < num.toInt then
      ⟨(num.srem 10 + 48).setWidth 8⟩ :: bufferDigits rounds (num.sdiv 10)
    else []

/-- What `%d` stores in `buffer`, which has room for 20 characters. -/
def decimalBuffer (num : BitVec 32) : List UInt8 :=
  if num = 0 then ['0'.toUInt8] else bufferDigits 20 num

/-- The branch of `SerialPrint` for `%d`. -/
def serialPrintDecimal (num : BitVec 32) : Kernel TraceState Unit := do
  onlyIf (num.toInt < 0) do
    trace (serialPrintSite 62) (serialPut '-'.toUInt8)
  let num := if num.toInt < 0 then -num else num
  (decimalBuffer num).reverse.forM fun byte => trace (serialPrintSite 81) (serialPut byte)

/-- The loop of `IntegerToHexadecimal`, for the indices below some. -/
def hexadecimalLoop : (i : Nat) → (value : BitVec 32) → (buffer : Nat → UInt8) → Nat → UInt8
  | 0, _, buffer => buffer
  | i + 1, value, buffer =>
    hexadecimalLoop i (value >>> 4) (Function.update buffer i (hexDigit (value &&& 0xF).toNat))

/-- The value of a hexadecimal digit. -/
def hexValue (byte : UInt8) : Nat := if byte.toNat < 58 then byte.toNat - 48 else byte.toNat - 87

section Loops

variable {num value : BitVec 32} {rounds : Nat}

/-- The loop stores the digits of a positive `int`. -/
theorem bufferDigits_eq (small : num.toNat < 2 ^ 31) (enough : num.toNat < 10 ^ rounds) :
    bufferDigits rounds num = (Nat.digits 10 num.toNat).map digitByte := by
  induction rounds generalizing num with
  | zero =>
    have zero : num.toNat = 0 := by
      rw [pow_zero] at enough
      omega
    rw [bufferDigits, zero, Nat.digits_zero, List.map_nil]
  | succ rounds ih =>
    have positive : num.msb = false := BitVec.msb_eq_false_iff_two_mul_lt.mpr (by omega)
    have ten : (10 : BitVec 32).msb = false := by decide
    have number := BitVec.toInt_eq_toNat_of_msb positive
    rw [bufferDigits, number]
    by_cases more : 0 < num.toNat
    · have quotient : (num.sdiv 10).toNat = num.toNat / 10 := by
        rw [BitVec.sdiv_eq]
        simp only [positive, ten]
        exact BitVec.toNat_udiv
      have remainder : (num.srem 10).toNat = num.toNat % 10 := by
        rw [BitVec.srem_eq]
        simp only [positive, ten]
        exact BitVec.toNat_umod
      have byte : (⟨(num.srem 10 + 48).setWidth 8⟩ : UInt8) = digitByte (num.toNat % 10) := by
        apply UInt8.toNat_inj.mp
        rw [digitByte_toNat (Nat.mod_lt _ (by decide))]
        show ((num.srem 10 + 48).setWidth 8).toNat = _
        rw [BitVec.toNat_setWidth, BitVec.toNat_add, remainder]
        have digit : num.toNat % 10 < 10 := Nat.mod_lt _ (by decide)
        have zero : (48 : BitVec 32).toNat = 48 := rfl
        omega
      rw [pow_succ] at enough
      rw [if_pos (by exact_mod_cast more), byte, ih (by omega) (by omega), quotient,
        Nat.digits_def' (by decide) more, List.map_cons]
    · have zero : num.toNat = 0 := Nat.eq_zero_of_not_pos more
      rw [if_neg (by exact_mod_cast more), zero, Nat.digits_zero, List.map_nil]

/-- What `%d` buffers, backwards, is what it puts. -/
theorem decimalDigits_buffer (num : BitVec 32) :
    decimalDigits num = (decimalBuffer num).reverse := by
  unfold decimalDigits decimalBuffer
  by_cases zero : num = 0
  · rw [zero]
    decide
  · rw [if_neg zero]
    by_cases negative : num.toInt < 0
    · rw [if_pos negative, bufferDigits, if_neg (by omega), List.reverse_nil]
    · have positive : num.msb = false := by
        rw [BitVec.msb_eq_toInt]
        exact decide_eq_false negative
      have small := BitVec.msb_eq_false_iff_two_mul_lt.mp positive
      have nonzero : num.toNat ≠ 0 := fun same => zero (BitVec.eq_of_toNat_eq same)
      rw [if_neg negative, bufferDigits_eq (by omega) (by omega), numeral, lowDigits,
        if_neg nonzero]

/-- The model of `%d` is its branch. -/
theorem printArg_decimal (rest : List VaArg) :
    printArg 'd'.toUInt8 (.word num :: rest) =
      serialPrintDecimal num >>= fun _ => pure rest := by
  rw [printArg, if_neg (by decide), if_neg (by decide), if_pos rfl, serialPrintDecimal]
  simp only [decimalDigits_buffer, bind_assoc]

/-- The loop leaves the digits of the value in front of the index that it starts from. -/
theorem hexadecimalLoop_eq (i : Nat) (value : BitVec 32) (buffer : Nat → UInt8) (place : Nat) :
    hexadecimalLoop i value buffer place =
      if place < i then hexDigit ((value.toNat >>> (4 * (i - 1 - place))) &&& 0xF)
      else buffer place := by
  induction i generalizing value buffer with
  | zero => rfl
  | succ i ih =>
    rw [hexadecimalLoop, ih]
    by_cases inside : place < i
    · have further : 4 * (i + 1 - 1 - place) = 4 + 4 * (i - 1 - place) := by omega
      rw [if_pos inside, if_pos (by omega), BitVec.toNat_ushiftRight, further, Nat.shiftRight_add]
    · rw [if_neg inside]
      by_cases last : place = i
      · rw [last, Function.update_self, if_pos (Nat.lt_succ_self i)]
        simp [BitVec.toNat_and]
      · rw [Function.update_of_ne last, if_neg (by omega)]

/-- The model of `IntegerToHexadecimal` is its loop. -/
theorem integerToHexadecimal_loop (value : BitVec 32) (buffer : Nat → UInt8) :
    integerToHexadecimal value = (List.range 8).map (hexadecimalLoop 8 value buffer) := by
  refine List.map_congr_left fun place inside => ?_
  rw [hexadecimalLoop_eq, if_pos (List.mem_range.mp inside)]

/-- A field of eight digits. -/
theorem integerToHexadecimal_padded (value : BitVec 32) :
    integerToHexadecimal value = (paddedDigits 16 8 value.toNat).map hexDigit := by
  rw [paddedDigits, List.map_map]
  refine List.map_congr_left fun place _ => ?_
  rw [Function.comp_apply, Nat.shiftRight_eq_div_pow, pow_mul,
    show (0xF : Nat) = 2 ^ 4 - 1 from rfl, Nat.and_two_pow_sub_one_eq_mod]
  rfl

/-- `%x` puts the numeral. -/
theorem hexNumeral_eq (value : BitVec 32) :
    hexNumeral value = radixNumeral 16 hexDigit value.toNat := by
  have zeros : ∀ place < 16, hexDigit place = hexDigit 0 ↔ place = 0 := by decide
  have stripped := @strip_field 16 7 value.toNat hexDigit (by decide) zeros value.isLt
  rw [hexNumeral, integerToHexadecimal_padded]
  exact stripped

/-- A numeral of `%x` is read back. -/
theorem radixValue_hexNumeral (number : Nat) :
    radixValue 16 hexValue (radixNumeral 16 hexDigit number) = number :=
  radixValue_radixNumeral (by decide) (by decide) number

/-- `%d` puts the numeral of every `int` except the smallest one. -/
theorem signedNumeral_eq_iff :
    signedNumeral num = integerNumeral num.toInt ↔ num ≠ BitVec.intMin 32 := by
  constructor
  · rintro same rfl
    exact absurd same (by decide +kernel)
  · intro large
    unfold signedNumeral integerNumeral decimalDigits
    by_cases negative : num.toInt < 0
    · have magnitude := BitVec.toInt_neg_of_ne_intMin large
      have number : ((-num).toNat : Int) = -num.toInt := by
        rw [← magnitude, BitVec.toInt_eq_toNat_of_msb]
        rw [BitVec.msb_eq_toInt]
        exact decide_eq_false (by omega)
      rw [if_pos negative, if_pos negative, if_pos negative, if_neg (by omega),
        show (-num).toNat = num.toInt.natAbs by omega]
      rfl
    · have number : (num.toNat : Int) = num.toInt := by
        rw [BitVec.toInt_eq_toNat_of_msb]
        rw [BitVec.msb_eq_toInt]
        exact decide_eq_false negative
      rw [if_neg negative, if_neg negative, if_neg negative, if_neg negative,
        show num.toNat = num.toInt.natAbs by omega]

end Loops

/-! ## What is printed -/

section Printed

variable {state : TraceState} {depth : Nat} {num : BitVec 32}

/-- The format `%d` prints the number. -/
theorem serialPrint_decimal (num : BitVec 32) :
    Prints (serialPrint (literal "%d") [.word num]) (signedNumeral num) () := by
  have format : literal "%d" = ['%'.toUInt8, 'd'.toUInt8] := by decide +kernel
  apply serialPrint_prints
  rw [format, formatted_percent rfl, formatted, Option.map_some, List.append_nil]

/-- The format `%x` prints the number. -/
theorem serialPrint_hexadecimal (num : BitVec 32) :
    Prints (serialPrint (literal "%x") [.word num]) (hexNumeral num) () := by
  have format : literal "%x" = ['%'.toUInt8, 'x'.toUInt8] := by decide +kernel
  apply serialPrint_prints
  rw [format, formatted_percent rfl, formatted, Option.map_some, List.append_nil]

/-- A section does not begin with a full trace. -/
theorem trace_full {site : Site} {expr : Kernel TraceState Unit}
    (full : state.Proper maxTraceDepth) :
    trace site expr state = .error (.panic .traceOverflow) state :=
  bind_of_error (traceImpl_full full)

/-- With a full trace the branch for `%d` panics. -/
theorem serialPrintDecimal_full (num : BitVec 32) (full : state.Proper maxTraceDepth) :
    serialPrintDecimal num state = .error (.panic .traceOverflow) state := by
  unfold serialPrintDecimal onlyIf
  by_cases negative : num.toInt < 0
  · rw [if_pos negative]
    exact bind_of_error (trace_full full)
  · rw [if_neg negative, bind_of_ok (pure_ok.mpr ⟨rfl, rfl⟩)]
    simp only [if_neg negative, ← decimalDigits_buffer, decimalDigits]
    have some : numeral num.toNat ≠ [] := by
      intro none
      have digits := List.map_eq_nil_iff.mp (List.reverse_eq_nil_iff.mp none)
      rcases lowDigits_cases num.toNat with ⟨digit, one⟩ | ⟨last, inner, first, several, _⟩
      · rw [digits] at one
        cases one
      · rw [digits] at several
        cases several
    obtain ⟨byte, bytes, split⟩ := List.exists_cons_of_ne_nil some
    rw [split]
    exact bind_of_error (trace_full full)

/-- With a full trace `%d` panics instead. -/
theorem serialPrint_decimal_full (num : BitVec 32) (full : state.Proper maxTraceDepth) :
    serialPrint (literal "%d") [.word num] state = .error (.panic .traceOverflow) state := by
  have format : literal "%d" = ['%'.toUInt8, 'd'.toUInt8] := by decide +kernel
  rw [format, serialPrint, if_pos rfl]
  refine bind_of_error ?_
  rw [printArg_decimal]
  exact bind_of_error (serialPrintDecimal_full num full)

/-- With a full trace `%x` panics instead. -/
theorem serialPrint_hexadecimal_full (num : BitVec 32) (full : state.Proper maxTraceDepth) :
    serialPrint (literal "%x") [.word num] state = .error (.panic .traceOverflow) state := by
  have format : literal "%x" = ['%'.toUInt8, 'x'.toUInt8] := by decide +kernel
  rw [format, serialPrint, if_pos rfl]
  refine bind_of_error ?_
  rw [printArg, if_neg (by decide), if_neg (by decide), if_neg (by decide), if_pos rfl]
  exact bind_of_error (trace_full full)

/-- What is put tells the texts apart. -/
theorem printed_inj {text other : List UInt8} :
    state.printed text = state.printed other ↔ text = other := by
  refine ⟨fun same => ?_, fun same => same ▸ rfl⟩
  exact List.append_cancel_left (congrArg TraceState.serial same)

/-- **Numbers.** `SerialPrint` puts the decimal numeral of an `int` for `%d` if and only if there is
room in the trace and it is not the smallest one, and the hexadecimal numeral of a word for `%x` if
and only if there is room in the trace; both numerals are read back. -/
theorem numbers_printed_iff (proper : state.Proper depth) (num : BitVec 32) :
    (serialPrint (literal "%d") [.word num] state =
        .ok () (state.printed (integerNumeral num.toInt)) ↔
      depth < maxTraceDepth ∧ num ≠ BitVec.intMin 32) ∧
    (serialPrint (literal "%x") [.word num] state =
        .ok () (state.printed (radixNumeral 16 hexDigit num.toNat)) ↔ depth < maxTraceDepth) ∧
    integerValue (integerNumeral num.toInt) = num.toInt ∧
      radixValue 16 hexValue (radixNumeral 16 hexDigit num.toNat) = num.toNat := by
  refine ⟨?_, ?_, integerValue_integerNumeral _, radixValue_hexNumeral _⟩
  · by_cases room : depth < maxTraceDepth
    · rw [serialPrint_decimal num state depth proper room, ← signedNumeral_eq_iff]
      simp only [EStateM.Result.ok.injEq, printed_inj, room, true_and]
    · have full : depth = maxTraceDepth := Nat.le_antisymm proper.fits (Nat.le_of_not_lt room)
      rw [serialPrint_decimal_full num (full ▸ proper)]
      exact iff_of_false (fun same => by cases same) fun both => room both.1
  · by_cases room : depth < maxTraceDepth
    · rw [serialPrint_hexadecimal num state depth proper room, hexNumeral_eq]
      exact iff_of_true rfl room
    · have full : depth = maxTraceDepth := Nat.le_antisymm proper.fits (Nat.le_of_not_lt room)
      rw [serialPrint_hexadecimal_full num (full ▸ proper)]
      exact iff_of_false (fun same => by cases same) room

end Printed

/-- Nothing is open and nothing was put. -/
def quietState : TraceState := ⟨fun _ => .cleared, 0, []⟩

/-- It is a stack. -/
theorem quietState_proper : quietState.Proper 0 where
  counted := rfl
  fits := Nat.zero_le _
  cleared _ _ := rfl
  records _ below := absurd below (Nat.not_lt_zero _)

/-- A negative number. -/
theorem numbers_printed_iff_sample :
    (serialPrint (literal "%d") [.word (-12)] quietState =
        .ok () (quietState.printed (integerNumeral (-12 : BitVec 32).toInt)) ↔
      0 < maxTraceDepth ∧ (-12 : BitVec 32) ≠ BitVec.intMin 32) ∧
    (serialPrint (literal "%x") [.word (-12)] quietState =
        .ok () (quietState.printed (radixNumeral 16 hexDigit (-12 : BitVec 32).toNat)) ↔
      0 < maxTraceDepth) ∧
    integerValue (integerNumeral (-12 : BitVec 32).toInt) = (-12 : BitVec 32).toInt ∧
      radixValue 16 hexValue (radixNumeral 16 hexDigit (-12 : BitVec 32).toNat) =
        (-12 : BitVec 32).toNat :=
  numbers_printed_iff quietState_proper (-12)

/-- The smallest `int` is printed as a sign. -/
theorem smallest_int_sign : ¬ ∀ (state : TraceState) (depth : Nat) (num : BitVec 32),
    state.Proper depth → depth < maxTraceDepth →
      serialPrint (literal "%d") [.word num] state =
        .ok () (state.printed (integerNumeral num.toInt)) := by
  intro claim
  have printed := claim quietState 0 (BitVec.intMin 32) quietState_proper (by decide)
  rw [serialPrint_decimal _ quietState 0 quietState_proper (by decide)] at printed
  have text := printed_inj.mp (EStateM.Result.ok.inj printed).2
  exact signedNumeral_eq_iff.mp text rfl

end Unarddeg
