import Unarddeg.Kernel.Interleaved

/-!
# The end of a panic

`PanicImpl` prints through `SerialPrint`, which opens a section for every character. A full trace
makes `TraceImpl` panic there, so `PanicImpl` is entered again, with the same trace, and never gets
to a halt loop. From every other trace it gets to its own (`panic_halts_iff`).
-/

namespace Unarddeg

open Library

/-- `Panic(PANIC_TRACE_OVERFLOW)` of `TraceImpl`, with what the machine adds to a report. -/
def overflowReport (programIdentifier : UInt64) (temperature : Option (BitVec 32)) :
    PanicReport where
  file := some (literal "src/kernel/panic.c")
  line := 14
  code := .traceOverflow
  codeAsStr := literal "PANIC_TRACE_OVERFLOW"
  panicClass := .supervisor
  programIdentifier
  temperature

/-- `PanicImpl` gets to a halt loop after some calls of itself, and leaves a state there. -/
inductive Halts : PanicReport → TraceState → (calls : Nat) → TraceState → Prop
  /-- It prints everything. -/
  | here {report : PanicReport} {state after : TraceState} :
      printPanic report state = .ok () after → Halts report state 0 after
  /-- `TraceImpl` panics while it prints. -/
  | again {report : PanicReport} {state middle after : TraceState} {calls : Nat}
      (programIdentifier : UInt64) (temperature : Option (BitVec 32)) :
      printPanic report state = .error (.panic .traceOverflow) middle →
        Halts (overflowReport programIdentifier temperature) middle calls after →
          Halts report state (calls + 1) after

section Halting

variable {report : PanicReport} {state after : TraceState} {calls : Nat}

/-- From a full trace `PanicImpl` calls itself for ever. -/
theorem never_halts (full : state.Proper maxTraceDepth) : ¬ Halts report state calls after := by
  intro halts
  induction halts with
  | here printed =>
    rw [printPanic_full _ full] at printed
    cases printed
  | again _ _ panics _ ih =>
    rw [printPanic_full _ full] at panics
    obtain ⟨_, rfl⟩ := EStateM.Result.error.inj panics
    exact ih full

end Halting

variable {Process : Type}

/-- **The halt loop.** In every state that the sections of any processes lead to, and for every
panic, `PanicImpl` prints its message and the dump of the trace and gets to its halt loop without
calling itself if and only if the trace is not full; if it is, no call of it gets to one. -/
theorem panic_halts_iff (serial : List UInt8) (events : List (TraceEvent Process))
    (state : Traced Process) (run : Run TraceStep (.initial Process serial) events state)
    (report : PanicReport) :
    ((∃ heading, Prints (printReport report) heading () ∧
        Halts report state.trace 0
          (state.trace.printed (heading ++ traceDump state.trace.live.reverse))) ↔
      state.trace.functionTraceDepth < maxTraceDepth) ∧
    (¬ state.trace.functionTraceDepth < maxTraceDepth →
      ∀ calls after, ¬ Halts report state.trace calls after) := by
  have proper := traceRun_proper run
  have depth := proper.counted
  have fits := proper.fits
  have full : ¬ state.trace.functionTraceDepth < maxTraceDepth →
      state.trace.Proper maxTraceDepth := by
    intro large
    have most : state.opened.length = maxTraceDepth := by omega
    rwa [most] at proper
  refine ⟨⟨?_, ?_⟩, ?_⟩
  · rintro ⟨heading, _, halts⟩
    by_contra large
    exact never_halts (full large) halts
  · intro room
    obtain ⟨heading, prints⟩ := printReport_prints report
    exact ⟨heading, prints, .here (printPanic_dump prints proper (by omega))⟩
  · intro large calls after
    exact never_halts (full large)

/-- A panic for a null pointer, somewhere. -/
def nullReport : PanicReport :=
  ⟨none, 0, .nullPointerDereference, literal "PANIC_NULL_POINTER_DEREFERENCE", .supervisor, 0, none⟩

/-- A panic before any section is entered. -/
theorem panic_halts_iff_sample :
    ((∃ heading, Prints (printReport nullReport) heading () ∧
        Halts nullReport (Traced.initial Nat []).trace 0 ((Traced.initial Nat []).trace.printed
          (heading ++ traceDump (Traced.initial Nat []).trace.live.reverse))) ↔
      (Traced.initial Nat []).trace.functionTraceDepth < maxTraceDepth) ∧
    (¬ (Traced.initial Nat []).trace.functionTraceDepth < maxTraceDepth →
      ∀ calls after, ¬ Halts nullReport (Traced.initial Nat []).trace calls after) :=
  panic_halts_iff [] [] _ (.nil _) nullReport

/-- A process enters some sections, one inside of the other. -/
theorem exists_nested (count : Nat) (fits : count ≤ maxTraceDepth) :
    ∃ (events : List (TraceEvent Nat)) (state : Traced Nat),
      Run TraceStep (.initial Nat []) events state ∧ state.opened.length = count := by
  induction count with
  | zero => exact ⟨[], _, .nil _, rfl⟩
  | succ count ih =>
    obtain ⟨events, state, run, length⟩ := ih (by omega)
    have proper := traceRun_proper run
    rw [length] at proper
    have entered := @traceImpl_eq state.trace count (tracedSite 1) proper (by omega)
    refine ⟨_, _, run.snoc (.enter 0 (tracedSite 1) entered), ?_⟩
    rw [List.length_cons, length]

/-- From a full trace `PanicImpl` does not get to its halt loop. -/
theorem full_trace_panics : ¬ ∀ (events : List (TraceEvent Nat)) (state : Traced Nat)
    (report : PanicReport), Run TraceStep (.initial Nat []) events state →
      ∃ after, Halts report state.trace 0 after := by
  intro claim
  obtain ⟨events, state, run, length⟩ := exists_nested maxTraceDepth (Nat.le_refl _)
  have proper := traceRun_proper run
  rw [length] at proper
  obtain ⟨after, halts⟩ := claim events state nullReport run
  exact never_halts proper halts

end Unarddeg
