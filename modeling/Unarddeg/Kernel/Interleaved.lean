import Unarddeg.Kernel.Trace

/-!
# The function trace under preemption

All processes push to and pop from the one function trace. Sections nest within a process, but one
process may be preempted inside a section by another, and `ExitTraceImpl` pops the newest entry
whoever calls it. So the trace shows the sections that are open as long as each section that is left
has the record of the newest entry (`trace_truthful_iff`); its depth is always their number.
-/

namespace Unarddeg

open Library

variable {Process : Type}

/-- The trace and the sections that are open in the processes, the newest first. -/
structure Traced (Process : Type) where
  /-- The trace. -/
  trace : TraceState
  /-- The open sections and their processes. -/
  opened : List (Process × Site)

/-- What a process does. -/
inductive TraceEvent (Process : Type)
  /-- It does something else, which may put characters on the serial line. -/
  | execute
  /-- It enters a section. -/
  | enter (process : Process) (site : Site)
  /-- It leaves its innermost section. -/
  | leave (process : Process) (site : Site)

/-- A step of some process. -/
inductive TraceStep : Traced Process → TraceEvent Process → Traced Process → Prop
  | execute (before : Traced Process) (text : List UInt8) :
      TraceStep before .execute { before with trace := before.trace.printed text }
  | enter {before : Traced Process} {after : TraceState} (process : Process) (site : Site)
      (returned : traceImpl site before.trace = .ok () after) :
      TraceStep before (.enter process site) ⟨after, (process, site) :: before.opened⟩
  | leave {before : Traced Process} {after : TraceState} {newer older : List (Process × Site)}
      (process : Process) (site : Site)
      (innermost : before.opened = newer ++ (process, site) :: older)
      (others : ∀ entered ∈ newer, entered.1 ≠ process)
      (returned : exitTraceImpl site before.trace = .ok () after) :
      TraceStep before (.leave process site) ⟨after, newer ++ older⟩

/-- Nothing is open yet. -/
def Traced.initial (Process : Type) (serial : List UInt8) : Traced Process where
  trace := ⟨fun _ => .cleared, 0, serial⟩
  opened := []

/-- The entries of the trace are the records of the open sections. -/
def Truthful (state : Traced Process) : Prop :=
  state.trace.live.Perm (state.opened.map fun entered => entered.2.entry)

/-- The newest entry of the trace is the record of a section. -/
def IsNewest (state : Traced Process) (site : Site) : Prop :=
  state.trace.live.getLast? = some site.entry

section Step

variable {before after state : Traced Process} {event : TraceEvent Process} {process : Process}
  {site : Site} {serial : List UInt8} {events : List (TraceEvent Process)}

/-- A section is only entered where there is room, and is pushed. -/
theorem entered_ok {trace pushed : TraceState} {depth : Nat} (proper : trace.Proper depth)
    (returned : traceImpl site trace = .ok () pushed) :
    depth < maxTraceDepth ∧ pushed = trace.pushed depth site := by
  by_cases room : depth < maxTraceDepth
  · exact ⟨room, (EStateM.Result.ok.inj (returned.symm.trans (traceImpl_eq proper room))).2⟩
  · have full : depth = maxTraceDepth := Nat.le_antisymm proper.fits (by omega)
    rw [traceImpl_full (full ▸ proper)] at returned
    cases returned

/-- A section that is left pops the newest entry. -/
theorem left_ok {popped : TraceState} {newer older : List (Process × Site)}
    (proper : before.trace.Proper before.opened.length)
    (innermost : before.opened = newer ++ (process, site) :: older)
    (returned : exitTraceImpl site before.trace = .ok () popped) :
    before.trace.Proper ((newer ++ older).length + 1) ∧
      popped = before.trace.popped (newer ++ older).length := by
  have length : before.opened.length = (newer ++ older).length + 1 := by
    rw [innermost]
    simp only [List.length_append, List.length_cons]
    omega
  rw [length] at proper
  exact ⟨proper, (EStateM.Result.ok.inj (returned.symm.trans (exitTraceImpl_eq proper))).2⟩

/-- Every step keeps the trace a stack as deep as there are open sections. -/
theorem TraceStep.proper (step : TraceStep before event after)
    (proper : before.trace.Proper before.opened.length) :
    after.trace.Proper after.opened.length := by
  cases step with
  | execute text => exact proper.printed
  | enter process site returned =>
    obtain ⟨room, rfl⟩ := entered_ok proper returned
    exact proper.pushed room
  | @leave _ newer older process site innermost others returned =>
    obtain ⟨proper, rfl⟩ := left_ok proper innermost returned
    exact proper.popped

/-- Entering a section and everything else keeps the trace truthful. -/
theorem TraceStep.truthful (step : TraceStep before event after)
    (proper : before.trace.Proper before.opened.length)
    (entering : ∀ process site, event ≠ .leave process site) (truthful : Truthful before) :
    Truthful after := by
  cases step with
  | execute text => exact truthful
  | enter process site returned =>
    obtain ⟨_, rfl⟩ := entered_ok proper returned
    unfold Truthful
    rw [live_pushed proper]
    exact (List.perm_append_singleton _ _).trans (truthful.cons _)
  | leave process site => exact absurd rfl (entering process site)

/-- Leaving a section keeps the trace truthful exactly when it has the newest entry's record. -/
theorem TraceStep.truthful_iff (step : TraceStep before (.leave process site) after)
    (proper : before.trace.Proper before.opened.length) (truthful : Truthful before) :
    Truthful after ↔ IsNewest before site := by
  cases step with
  | @leave _ newer older _ _ innermost others returned =>
    obtain ⟨proper, rfl⟩ := left_ok proper innermost returned
    have live := live_popped proper
    -- The newest entry and the rest of the trace are the section that is left and the others.
    have whole : (before.trace.functionTrace (newer ++ older).length ::
        (before.trace.popped (newer ++ older).length).live).Perm
          (site.entry :: (newer ++ older).map fun entered => entered.2.entry) := by
      have records : (before.opened.map fun entered => entered.2.entry).Perm
          (site.entry :: (newer ++ older).map fun entered => entered.2.entry) := by
        rw [innermost]
        exact (List.perm_middle.map _)
      unfold Truthful at truthful
      rw [live] at truthful
      exact (List.perm_append_singleton _ _).symm.trans (truthful.trans records)
    unfold Truthful IsNewest
    rw [live, List.getLast?_append_of_ne_nil _ (by simp), List.getLast?_singleton,
      Option.some.injEq]
    constructor
    · intro rest
      have both := Multiset.coe_eq_coe.mpr (whole.symm.trans (rest.cons _))
      rw [← Multiset.cons_coe, ← Multiset.cons_coe, Multiset.cons_inj_left] at both
      exact both.symm
    · intro newest
      rw [newest] at whole
      exact whole.cons_inv

/-- Every run keeps the trace a stack as deep as there are open sections. -/
theorem traceRun_proper (run : Run TraceStep (Traced.initial Process serial) events state) :
    state.trace.Proper state.opened.length := by
  apply run.invariant (fun state => state.trace.Proper state.opened.length)
  · intro _ _ _ proper step
    exact step.proper proper
  · exact ⟨rfl, Nat.zero_le _, fun _ _ => rfl, fun _ below => absurd below (Nat.not_lt_zero _)⟩

/-- A run is truthful if every section that is left in it has the record of the newest entry. -/
theorem traceRun_truthful (run : Run TraceStep (Traced.initial Process serial) events state)
    (newest : ∀ front process site before after, front ++ [.leave process site] <+: events →
      Run TraceStep (Traced.initial Process serial) front before →
        TraceStep before (.leave process site) after → IsNewest before site) :
    Truthful state := by
  induction run with
  | nil => exact List.Perm.refl _
  | @snoc middle last events event before step ih =>
    have proper := traceRun_proper before
    have truthful := ih fun front process site before after inside =>
      newest front process site before after (inside.trans (List.prefix_append _ _))
    cases event with
    | leave process site =>
      apply (step.truthful_iff proper truthful).mpr
      exact newest events process site middle last (List.prefix_refl _) before step
    | execute => exact step.truthful proper (fun _ _ => by simp) truthful
    | enter process site => exact step.truthful proper (fun _ _ => by simp) truthful

end Step

/-- **The trace.** In every interleaving the depth of the trace is the number of open sections, and
its entries are the records of the open sections in all states that are reached if and only if every
section that is left has the record of the newest entry at that time. `PanicImpl` prints the entries
of the trace, the newest first, unless the trace is full. -/
theorem trace_truthful_iff (serial : List UInt8) (events : List (TraceEvent Process)) :
    (∀ front state, front <+: events → Run TraceStep (.initial Process serial) front state →
      state.trace.functionTraceDepth = state.opened.length) ∧
    ((∀ front state, front <+: events → Run TraceStep (.initial Process serial) front state →
        Truthful state) ↔
      ∀ front process site before after, front ++ [.leave process site] <+: events →
        Run TraceStep (.initial Process serial) front before →
          TraceStep before (.leave process site) after → IsNewest before site) ∧
    ∀ report, ∃ heading, ∀ front state, front <+: events →
      Run TraceStep (.initial Process serial) front state →
      state.opened.length < maxTraceDepth → panicImpl report state.trace =
        .error (.panic report.code)
          (state.trace.printed (heading ++ traceDump state.trace.live.reverse)) := by
  refine ⟨fun front state _ run => (traceRun_proper run).counted, ⟨?_, ?_⟩, ?_⟩
  · intro truthful front process site before after inside run step
    apply (step.truthful_iff (traceRun_proper run)
      (truthful front before ((List.prefix_append _ _).trans inside) run)).mp
    exact truthful _ after inside (run.snoc step)
  · intro newest front state inside run
    apply traceRun_truthful run
    intro earlier process site before after within
    exact newest earlier process site before after (within.trans inside)
  · intro report
    obtain ⟨heading, dumps⟩ := panicImpl_dump report
    exact ⟨heading, fun front state _ run room => dumps _ _ (traceRun_proper run) room⟩

/-- Two places with sections. -/
def tracedSite (line : Int) : Site := ⟨cString "a.c".toList, cString "A".toList, line⟩

/-- The first process enters a section. -/
def enteredFirst : Traced Nat where
  trace := (Traced.initial Nat []).trace.pushed 0 (tracedSite 1)
  opened := [(0, tracedSite 1)]

/-- The second process enters another one. -/
def enteredSecond : Traced Nat where
  trace := enteredFirst.trace.pushed 1 (tracedSite 2)
  opened := [(1, tracedSite 2), (0, tracedSite 1)]

/-- The first process leaves its section. -/
def leftFirst : Traced Nat where
  trace := enteredSecond.trace.popped 1
  opened := [(1, tracedSite 2)]

/-- The trace shows a section that was left instead of the one that is open. -/
theorem trace_of_left_section : ¬ ∀ (events : List (TraceEvent Nat)) (state : Traced Nat),
    Run TraceStep (.initial Nat []) events state → Truthful state := by
  intro claim
  have start : (Traced.initial Nat []).trace.Proper 0 := traceRun_proper (.nil _)
  have one : enteredFirst.trace.Proper 1 := start.pushed (by decide)
  have two : enteredSecond.trace.Proper 2 := one.pushed (by decide)
  have first : TraceStep (.initial Nat []) (.enter 0 (tracedSite 1)) enteredFirst :=
    .enter 0 (tracedSite 1) (traceImpl_eq start (by decide))
  have second : TraceStep enteredFirst (.enter 1 (tracedSite 2)) enteredSecond :=
    .enter 1 (tracedSite 2) (traceImpl_eq one (by decide))
  have third : TraceStep enteredSecond (.leave 0 (tracedSite 1)) leftFirst :=
    @TraceStep.leave _ enteredSecond _ [(1, tracedSite 2)] [] 0 (tracedSite 1) rfl (by decide)
      (exitTraceImpl_eq two)
  have same := claim _ leftFirst ((((Run.nil _).snoc first).snoc second).snoc third)
  have records := (same.map TraceEntry.line).eq_singleton
  exact absurd records (by decide)

end Unarddeg
