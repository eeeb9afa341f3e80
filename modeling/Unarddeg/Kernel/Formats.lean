import Unarddeg.Kernel.Numbers
import Unarddeg.Library.Safe

/-!
# How `SerialPrint` reads its format

The scan of `SerialPrint` of `kernel/drivers/SerialPrint.c` moves on behind the character that
follows a `%`, whatever it is. A format that ends in a `%` of its own is therefore read behind its
terminator, and every other format is read to its end (`format_read_iff`). The characters outside
the directives are put in their order, and a directive `%c`, `%s`, `%d` or `%x` uses one argument.
-/

namespace Unarddeg

open Library

/-! ## Formats -/

/-- A piece of a format: a character, or a `%` with the character behind it. -/
inductive Piece
  | plain (byte : UInt8) (outside : byte ≠ '%'.toUInt8)
  | directive (kind : UInt8)

/-- The characters of a piece. -/
def Piece.bytes : Piece → List UInt8
  | .plain byte _ => [byte]
  | .directive kind => ['%'.toUInt8, kind]

/-- The characters of a format. -/
def formatOf (pieces : List Piece) : List UInt8 := pieces.flatMap Piece.bytes

/-- The directives that use an argument. -/
def takesArgument (kind : UInt8) : Bool :=
  kind = 'c'.toUInt8 ∨ kind = 's'.toUInt8 ∨ kind = 'd'.toUInt8 ∨ kind = 'x'.toUInt8

/-- The directives of a format that use an argument, in their order. -/
def conversions : (pieces : List Piece) → List UInt8
  | [] => []
  | .plain _ _ :: pieces => conversions pieces
  | .directive kind :: pieces =>
    if takesArgument kind then kind :: conversions pieces else conversions pieces

/-- The argument has the type that the directive expects. -/
def Suits (kind : UInt8) : VaArg → Prop
  | .word _ => kind ≠ 's'.toUInt8
  | .string text => kind = 's'.toUInt8 ∧ text ≠ none

/-- What is put for an argument. -/
def argOutput (kind : UInt8) : VaArg → List UInt8
  | .word value =>
    if kind = 'c'.toUInt8 then [⟨value.setWidth 8⟩]
    else if kind = 'd'.toUInt8 then signedNumeral value
    else hexNumeral value
  | .string text => text.getD []

/-- What is put for a format: its characters outside the directives, and the next argument for every
directive that uses one. -/
def outputOf : (pieces : List Piece) → (args : List VaArg) → List UInt8
  | [], _ => []
  | .plain byte _ :: pieces, args => byte :: outputOf pieces args
  | .directive kind :: pieces, args =>
    if takesArgument kind then
      match args with
      | [] => []
      | arg :: args => argOutput kind arg ++ outputOf pieces args
    else outputOf pieces args

/-- A format that holds directives only, none of which uses an argument. -/
def Silent (fmt : List UInt8) : Prop :=
  ∃ kinds : List UInt8, (∀ kind ∈ kinds, takesArgument kind = false) ∧
    fmt = formatOf (kinds.map .directive)

/-! ## The scan -/

/-- `SerialPrint` up to `va_end`, with the arguments that are left there. -/
def serialPrintVa : (fmt : List UInt8) → (args : List VaArg) → Kernel TraceState (List VaArg)
  | [], args => pure args
  | byte :: fmt, args =>
    if byte = '%'.toUInt8 then
      match fmt with
      | [] => throw .outOfBounds
      | kind :: fmt => do
        let rest ← printArg kind args
        serialPrintVa fmt rest
    else do
      trace (serialPrintSite 92) (serialPut byte)
      serialPrintVa fmt args

/-- `SerialPrint` forgets these arguments. -/
theorem serialPrint_va (fmt : List UInt8) (args : List VaArg) :
    serialPrint fmt args = serialPrintVa fmt args >>= fun _ => pure () := by
  fun_induction serialPrintVa fmt args with
  | case1 args => rw [serialPrint, pure_bind]
  | case2 args =>
    rw [serialPrint, if_pos rfl]
    rfl
  | case3 args kind fmt ih =>
    rw [serialPrint, if_pos rfl, bind_assoc]
    simp only [ih]
  | case4 byte fmt args plain ih =>
    unfold serialPrint
    rw [if_neg plain, bind_assoc]
    simp only [ih]

/-- The scan never reads a character behind the terminator of the format. -/
def InBounds (fmt : List UInt8) : Prop :=
  ∀ (state : TraceState) (depth : Nat) (args : List VaArg) (after : TraceState),
    state.Proper depth → serialPrint fmt args state ≠ .error .outOfBounds after

/-- The scan takes the format apart, puts its output, and uses exactly the arguments of its
directives, whatever stands behind them. -/
def ReadsFormat (state : TraceState) (fmt : List UInt8) : Prop :=
  ∃ pieces, formatOf pieces = fmt ∧ ∀ args more, List.Forall₂ Suits (conversions pieces) args →
    serialPrintVa fmt (args ++ more) state = .ok more (state.printed (outputOf pieces args))

/-! ## Formats that are cut short -/

/-- The format ends behind a `%` that begins a directive. -/
def cutShort : (fmt : List UInt8) → Bool
  | [] => false
  | byte :: fmt =>
    if byte = '%'.toUInt8 then
      match fmt with
      | [] => true
      | _ :: fmt => cutShort fmt
    else cutShort fmt

/-- The number of `%` at the end of a format. -/
def percentsAtEnd (fmt : List UInt8) : Nat := (fmt.reverse.takeWhile (· = '%'.toUInt8)).length

section Cut

variable {fmt : List UInt8}

/-- At most all characters are at the end. -/
theorem percentsAtEnd_le (fmt : List UInt8) : percentsAtEnd fmt ≤ fmt.length := by
  unfold percentsAtEnd
  exact (List.takeWhile_sublist _).length_le.trans_eq (List.length_reverse ..)

/-- A character in front counts if all others do. -/
theorem percentsAtEnd_cons (byte : UInt8) (fmt : List UInt8) :
    percentsAtEnd (byte :: fmt) =
      if percentsAtEnd fmt = fmt.length then
        fmt.length + if byte = '%'.toUInt8 then 1 else 0
      else percentsAtEnd fmt := by
  unfold percentsAtEnd
  rw [List.reverse_cons, List.takeWhile_append, List.length_reverse]
  by_cases all : (fmt.reverse.takeWhile (· = '%'.toUInt8)).length = fmt.length
  · rw [if_pos all, if_pos all, List.length_append, List.length_reverse]
    by_cases percent : byte = '%'.toUInt8
    · simp [percent]
    · simp [percent]
  · rw [if_neg all, if_neg all]

/-- A format is cut short if and only if it ends in an odd number of `%`. -/
theorem cutShort_iff : cutShort fmt = true ↔ ¬ Even (percentsAtEnd fmt) := by
  fun_induction cutShort fmt with
  | case1 => simp [percentsAtEnd]
  | case2 => simp [percentsAtEnd]
  | case3 kind fmt ih =>
    rw [ih, percentsAtEnd_cons, percentsAtEnd_cons, if_pos rfl, List.length_cons]
    have bound := percentsAtEnd_le fmt
    -- A directive adds two to the end if all that follows it is at the end, and else nothing.
    by_cases all : percentsAtEnd fmt = fmt.length
    · by_cases percent : kind = '%'.toUInt8
      · rw [if_pos all, if_pos percent, if_pos rfl, all, Nat.even_add_one, Nat.even_add_one,
          not_not]
      · rw [if_pos all, if_neg percent, if_neg (by omega), all, Nat.add_zero]
    · rw [if_neg all, if_neg (by omega)]
  | case4 byte fmt plain ih =>
    rw [ih, percentsAtEnd_cons, if_neg plain]
    by_cases all : percentsAtEnd fmt = fmt.length
    · rw [if_pos all, all, Nat.add_zero]
    · rw [if_neg all]

/-- A format that is not cut short consists of pieces. -/
theorem exists_pieces (whole : cutShort fmt = false) : ∃ pieces, formatOf pieces = fmt := by
  fun_induction cutShort fmt with
  | case1 => exact ⟨[], rfl⟩
  | case2 => cases whole
  | case3 kind fmt ih =>
    obtain ⟨pieces, rfl⟩ := ih whole
    exact ⟨.directive kind :: pieces, rfl⟩
  | case4 byte fmt plain ih =>
    obtain ⟨pieces, rfl⟩ := ih whole
    exact ⟨.plain byte plain :: pieces, rfl⟩

/-- Pieces are not cut short. -/
theorem cutShort_formatOf (pieces : List Piece) : cutShort (formatOf pieces) = false := by
  induction pieces with
  | nil => rfl
  | cons piece pieces ih =>
    cases piece with
    | plain byte outside =>
      show cutShort (byte :: formatOf pieces) = false
      unfold cutShort
      rw [if_neg outside, ih]
    | directive kind =>
      show cutShort ('%'.toUInt8 :: kind :: formatOf pieces) = false
      rw [cutShort, if_pos rfl, ih]

end Cut

/-! ## Formats that are read to their end -/

section Whole

variable {state : TraceState} {depth : Nat} {kind : UInt8} {arg : VaArg} {args more : List VaArg}
  {pieces : List Piece}

/-- A suitable argument is used and put. -/
theorem argText_suits (takes : takesArgument kind = true) (suits : Suits kind arg) :
    argText kind (arg :: args) = some (argOutput kind arg, args) := by
  have kinds := of_decide_eq_true takes
  cases arg with
  | word value =>
    rcases kinds with rfl | rfl | rfl | rfl
    · rfl
    · exact absurd rfl suits
    · rfl
    · rfl
  | string text =>
    obtain ⟨rfl, given⟩ := suits
    obtain ⟨text, rfl⟩ := Option.ne_none_iff_exists'.mp given
    rfl

/-- Another directive uses no argument. -/
theorem printArg_other (other : takesArgument kind = false) : printArg kind args = pure args := by
  have kinds := of_decide_eq_false other
  simp only [not_or] at kinds
  obtain ⟨noChar, noString, noDecimal, noHexadecimal⟩ := kinds
  unfold printArg
  rw [if_neg noChar, if_neg noString, if_neg noDecimal, if_neg noHexadecimal]

/-- With room in the trace, the output of the pieces is put and their arguments are used. -/
theorem serialPrintVa_prints (suits : List.Forall₂ Suits (conversions pieces) args) :
    Prints (serialPrintVa (formatOf pieces) (args ++ more)) (outputOf pieces args) more := by
  induction pieces generalizing args with
  | nil =>
    cases suits
    exact .pure more
  | cons piece pieces ih =>
    cases piece with
    | plain byte outside =>
      show Prints (serialPrintVa (byte :: formatOf pieces) (args ++ more)) _ more
      unfold serialPrintVa
      rw [if_neg outside]
      exact (prints_trace (serialPut_eq byte)).bind (ih suits)
    | directive kind =>
      show Prints (serialPrintVa ('%'.toUInt8 :: kind :: formatOf pieces) (args ++ more)) _ more
      rw [serialPrintVa, if_pos rfl]
      unfold conversions at suits
      unfold outputOf
      cases takes : takesArgument kind with
      | true =>
        rw [takes, if_pos rfl] at suits
        obtain ⟨arg, others, suitable, rest, rfl⟩ := List.forall₂_cons_left_iff.mp suits
        rw [if_pos rfl]
        exact (printArg_prints (argText_suits takes suitable)).bind (ih rest)
      | false =>
        rw [takes, if_neg Bool.false_ne_true] at suits
        rw [if_neg Bool.false_ne_true, printArg_other takes, pure_bind]
        exact ih suits

/-- A conversion has a suitable argument for which something is put. -/
def loudArgument (kind : UInt8) : VaArg :=
  if kind = 's'.toUInt8 then .string (some ['A'.toUInt8]) else .word 0

/-- It is suitable. -/
theorem loudArgument_suits (kind : UInt8) : Suits kind (loudArgument kind) := by
  unfold loudArgument
  by_cases text : kind = 's'.toUInt8
  · rw [if_pos text]
    exact ⟨text, Option.some_ne_none _⟩
  · rw [if_neg text]
    exact text

/-- There are suitable arguments for every format. -/
theorem loudArguments_suit (kinds : List UInt8) :
    List.Forall₂ Suits kinds (kinds.map loudArgument) :=
  List.forall₂_map_right_iff.mpr (List.forall₂_same.mpr fun kind _ => loudArgument_suits kind)

/-- With a full trace it panics. -/
theorem printArg_loud (takes : takesArgument kind = true) (full : state.Proper maxTraceDepth) :
    printArg kind (loudArgument kind :: args) state = .error (.panic .traceOverflow) state := by
  rcases of_decide_eq_true takes with rfl | rfl | rfl | rfl
  · exact bind_of_error (trace_full full)
  · exact bind_of_error (bind_of_error (trace_full full))
  · show printArg 'd'.toUInt8 (.word 0 :: args) state = _
    rw [printArg_decimal]
    exact bind_of_error (serialPrintDecimal_full 0 full)
  · exact bind_of_error (trace_full full)

/-- With a full trace a format panics unless it puts nothing. -/
theorem serialPrintVa_full (full : state.Proper maxTraceDepth) (pieces : List Piece) :
    Silent (formatOf pieces) ∨
      serialPrintVa (formatOf pieces) ((conversions pieces).map loudArgument ++ more) state =
        .error (.panic .traceOverflow) state := by
  induction pieces with
  | nil => exact .inl ⟨[], List.forall_mem_nil _, rfl⟩
  | cons piece pieces ih =>
    cases piece with
    | plain byte outside =>
      right
      show serialPrintVa (byte :: formatOf pieces) _ state = _
      unfold serialPrintVa
      rw [if_neg outside]
      exact bind_of_error (trace_full full)
    | directive kind =>
      show Silent ('%'.toUInt8 :: kind :: formatOf pieces) ∨
        serialPrintVa ('%'.toUInt8 :: kind :: formatOf pieces) _ state = _
      rw [serialPrintVa, if_pos rfl]
      unfold conversions
      cases takes : takesArgument kind with
      | true =>
        right
        rw [if_pos rfl]
        exact bind_of_error (printArg_loud takes full)
      | false =>
        rw [if_neg Bool.false_ne_true, printArg_other takes, pure_bind]
        refine ih.imp_left ?_
        rintro ⟨kinds, silent, same⟩
        refine ⟨kind :: kinds, List.forall_mem_cons.mpr ⟨takes, silent⟩, ?_⟩
        rw [same]
        rfl

/-- A silent format puts nothing, whatever the trace holds. -/
theorem serialPrintVa_silent {kinds : List UInt8}
    (silent : ∀ kind ∈ kinds, takesArgument kind = false) (args : List VaArg) :
    serialPrintVa (formatOf (kinds.map .directive)) args = pure args := by
  induction kinds with
  | nil => rfl
  | cons kind kinds ih =>
    obtain ⟨other, others⟩ := List.forall_mem_cons.mp silent
    show serialPrintVa ('%'.toUInt8 :: kind :: formatOf (kinds.map .directive)) args = pure args
    rw [serialPrintVa, if_pos rfl, printArg_other other, pure_bind, ih others]

/-- It has no conversions. -/
theorem conversions_silent {kinds : List UInt8}
    (silent : ∀ kind ∈ kinds, takesArgument kind = false) :
    conversions (kinds.map .directive) = [] := by
  induction kinds with
  | nil => rfl
  | cons kind kinds ih =>
    obtain ⟨other, others⟩ := List.forall_mem_cons.mp silent
    rw [List.map_cons, conversions, other, if_neg Bool.false_ne_true, ih others]

/-- Its output is empty. -/
theorem outputOf_silent {kinds : List UInt8}
    (silent : ∀ kind ∈ kinds, takesArgument kind = false) (args : List VaArg) :
    outputOf (kinds.map .directive) args = [] := by
  induction kinds with
  | nil => rfl
  | cons kind kinds ih =>
    obtain ⟨other, others⟩ := List.forall_mem_cons.mp silent
    rw [List.map_cons]
    unfold outputOf
    rw [other, if_neg Bool.false_ne_true, ih others]

/-- **Reading.** The pieces of a format are put and their arguments used if and only if it is not
cut short and there is room in the trace or nothing to put. -/
theorem readsFormat_iff (proper : state.Proper depth) (fmt : List UInt8) :
    ReadsFormat state fmt ↔ cutShort fmt = false ∧ (depth < maxTraceDepth ∨ Silent fmt) := by
  constructor
  · rintro ⟨pieces, rfl, reads⟩
    refine ⟨cutShort_formatOf pieces, ?_⟩
    rcases Nat.lt_or_eq_of_le proper.fits with room | rfl
    · exact .inl room
    · rcases @serialPrintVa_full state [] proper pieces with silent | panics
      · exact .inr silent
      · have returned := reads _ [] (loudArguments_suit (conversions pieces))
        rw [panics] at returned
        cases returned
  · rintro ⟨whole, room | ⟨kinds, silent, rfl⟩⟩
    · obtain ⟨pieces, rfl⟩ := exists_pieces whole
      exact ⟨pieces, rfl, fun args more suits =>
        serialPrintVa_prints suits state depth proper room⟩
    · refine ⟨kinds.map .directive, rfl, fun args more suits => ?_⟩
      rw [conversions_silent silent] at suits
      cases suits
      rw [serialPrintVa_silent silent, outputOf_silent silent]
      unfold TraceState.printed
      rw [List.append_nil]
      rfl

end Whole

/-! ## The terminator -/

section Terminator

variable {depth : Nat} {kind : UInt8} {fmt : List UInt8} {args : List VaArg}

/-- The scan leaves the trace as a stack of this depth, and reads nothing behind the terminator. -/
abbrev Scans {α : Type} (depth : Nat) (action : Kernel TraceState α) : Prop :=
  Safe .outOfBounds (·.Proper depth) (fun _ => True) action

/-- A section that puts something scans. -/
theorem scans_trace {site : Site} {expr : Kernel TraceState Unit} {text : List UInt8}
    (puts : ∀ state, expr state = .ok () (state.printed text)) :
    Scans depth (trace site expr) := by
  intro state proper
  rcases Nat.lt_or_eq_of_le proper.fits with room | rfl
  · rw [prints_trace puts state depth proper room]
    refine ⟨fun after same => (by cases same), fun value after returned => ?_⟩
    cases returned
    exact ⟨trivial, proper.printed⟩
  · rw [trace_full proper]
    exact ⟨fun after same => (by cases same), fun value after same => (by cases same)⟩

/-- A loop over bytes scans. -/
theorem scans_forM {body : UInt8 → Kernel TraceState PUnit}
    (each : ∀ byte, Scans depth (body byte)) (bytes : List UInt8) :
    Scans depth (bytes.forM body) := by
  induction bytes with
  | nil => exact Safe.pure trivial
  | cons byte bytes ih => exact (each byte).bind fun _ _ => ih

/-- An argument is used without a look at the format. -/
theorem scans_printArg (kind : UInt8) (args : List VaArg) : Scans depth (printArg kind args) := by
  have put : ∀ line byte, Scans depth (trace (serialPrintSite line) (serialPut byte)) :=
    fun line byte => scans_trace (serialPut_eq byte)
  unfold printArg
  split_ifs
  · split
    · exact (put 46 _).bind fun _ _ => Safe.pure trivial
    · exact Safe.throw (by decide)
  · split
    · exact (scans_forM (put 53) _).bind fun _ _ => Safe.pure trivial
    · exact Safe.throw (by decide)
    · exact Safe.throw (by decide)
  · split
    · apply @Safe.bind _ _ _ _ _ _ (fun _ => True)
      · exact Safe.ite (fun _ => put 62 _) fun _ => Safe.pure trivial
      · exact fun _ _ => (scans_forM (put 81) _).bind fun _ _ => Safe.pure trivial
    · exact Safe.throw (by decide)
  · split
    · exact (scans_trace (serialPrintHex_eq _)).bind fun _ _ => Safe.pure trivial
    · exact Safe.throw (by decide)
  · exact Safe.pure trivial

/-- A format that is not cut short is not read behind its terminator. -/
theorem scans_serialPrint (whole : cutShort fmt = false) (args : List VaArg) :
    Scans depth (serialPrint fmt args) := by
  fun_induction serialPrint fmt args with
  | case1 => exact Safe.pure trivial
  | case2 => cases whole
  | case3 args kind fmt ih => exact (scans_printArg kind args).bind fun rest _ => ih rest whole
  | case4 byte fmt args plain ih =>
    unfold cutShort at whole
    rw [if_neg plain] at whole
    exact (scans_trace (serialPut_eq byte)).bind fun _ _ => ih whole

/-- A directive has arguments for which it prints, with any others behind them. -/
theorem printArg_prints_some (kind : UInt8) (args : List VaArg) :
    ∃ front text, Prints (printArg kind (front ++ args)) text args := by
  cases takes : takesArgument kind with
  | true =>
    exact ⟨[loudArgument kind], _, printArg_prints (argText_suits takes (loudArgument_suits kind))⟩
  | false =>
    refine ⟨[], [], ?_⟩
    rw [printArg_other takes]
    exact .pure _

/-- A format that is cut short is read behind its terminator with some arguments. -/
theorem serialPrint_overrun (cut : cutShort fmt = true) :
    ∃ args, ∀ (state : TraceState) (depth : Nat), state.Proper depth → depth < maxTraceDepth →
      ∃ after, serialPrint fmt args state = .error .outOfBounds after := by
  fun_induction cutShort fmt with
  | case1 => cases cut
  | case2 =>
    refine ⟨[], fun state depth _ _ => ⟨state, ?_⟩⟩
    rw [serialPrint, if_pos rfl]
    rfl
  | case3 kind fmt ih =>
    obtain ⟨args, runs⟩ := ih cut
    obtain ⟨front, text, prints⟩ := printArg_prints_some kind args
    refine ⟨front ++ args, fun state depth proper room => ?_⟩
    obtain ⟨after, overrun⟩ := runs _ depth proper.printed room
    refine ⟨after, ?_⟩
    rw [serialPrint, if_pos rfl, bind_of_ok (prints state depth proper room)]
    exact overrun
  | case4 byte fmt plain ih =>
    obtain ⟨args, runs⟩ := ih cut
    refine ⟨args, fun state depth proper room => ?_⟩
    obtain ⟨after, overrun⟩ := runs _ depth proper.printed room
    refine ⟨after, ?_⟩
    unfold serialPrint
    rw [if_neg plain, bind_of_ok (prints_trace (serialPut_eq byte) state depth proper room)]
    exact overrun

/-- **Bounds.** The scan stays inside a format if and only if it is not cut short. -/
theorem inBounds_iff (fmt : List UInt8) : InBounds fmt ↔ cutShort fmt = false := by
  constructor
  · intro inside
    by_contra cut
    obtain ⟨args, runs⟩ := serialPrint_overrun (Bool.eq_true_of_not_eq_false cut)
    obtain ⟨after, overrun⟩ := runs quietState 0 quietState_proper (by decide)
    exact inside quietState 0 args after quietState_proper overrun
  · intro whole state depth args after proper
    exact (scans_serialPrint whole args state proper).1 after

/-- **The format.** The scan stays inside the format if and only if the format ends in an even
number of `%`. If, besides, there is room in the trace or nothing to put, and only then, the
characters outside the directives are put in their order and every conversion uses one
argument. -/
theorem format_read_iff {state : TraceState} (proper : state.Proper depth) (fmt : List UInt8) :
    (InBounds fmt ↔ Even (percentsAtEnd fmt)) ∧
    (ReadsFormat state fmt ↔ Even (percentsAtEnd fmt) ∧ (depth < maxTraceDepth ∨ Silent fmt)) := by
  have whole : cutShort fmt = false ↔ Even (percentsAtEnd fmt) := by
    rw [← Bool.not_eq_true, cutShort_iff, not_not]
  rw [inBounds_iff, readsFormat_iff proper, whole]
  exact ⟨.rfl, .rfl⟩

end Terminator

/-- A format with text, a conversion, and two percent signs at its end. -/
theorem format_read_iff_sample :
    (InBounds (literal "n=%d%%") ↔ Even (percentsAtEnd (literal "n=%d%%"))) ∧
    (ReadsFormat quietState (literal "n=%d%%") ↔ Even (percentsAtEnd (literal "n=%d%%")) ∧
      (0 < maxTraceDepth ∨ Silent (literal "n=%d%%"))) :=
  format_read_iff quietState_proper (literal "n=%d%%")

/-- The format `%` is read behind its terminator. -/
theorem percent_overrun : ¬ ∀ (state : TraceState) (depth : Nat) (fmt : List UInt8),
    state.Proper depth → depth < maxTraceDepth → InBounds fmt ∧ ReadsFormat state fmt := by
  intro claim
  obtain ⟨inside, _⟩ := claim quietState 0 ['%'.toUInt8] quietState_proper (by decide)
  exact absurd ((inBounds_iff _).mp inside) (by decide)

end Unarddeg
