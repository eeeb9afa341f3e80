import Unarddeg.Arch.Arm32.Switch

/-!
# What a process on ARMv7 continues with

The steps of a processor refine those of the port whose `stores` and `loads` are below. A process
that was interrupted in supervisor mode finds the address of `ScratchProc`, its status and its
program counter in r10 to r12, and continues at the address in its link register
(`resumed_overwritten`).
-/

namespace Unarddeg.Arm32

open Library

/-- A process that was interrupted in supervisor mode. -/
structure Interrupted where
  /-- What it saw. -/
  context : Context
  /-- It was in supervisor mode. -/
  inside : mode context.cpsr = svcMode
  /-- The processor has no other bits in its status. -/
  proper : context.cpsr &&& statusMask = context.cpsr

/-- The registers stored for a process. -/
def stores (symbols : Symbols) (interrupted : Interrupted) : TaskRegisters :=
  saved symbols interrupted.context

/-- The port. -/
def port (symbols : Symbols) : Port TaskRegisters Interrupted (Option Context) :=
  ⟨stores symbols, loads⟩

/-- What an interrupted process continues with. -/
def Context.overwritten (context : Context) (symbols : Symbols) : Context :=
  { context with
    r := Function.update (Function.update (Function.update context.r 10 symbols.scratchProc)
      11 context.cpsr) 12 context.pc
    pc := aligned context.cpsr context.lr }

/-- An interrupted process continues with four registers overwritten. -/
theorem loads_stores (symbols : Symbols) (interrupted : Interrupted) :
    loads (stores symbols interrupted) = some (interrupted.context.overwritten symbols) := by
  have last : stores symbols interrupted 16 = interrupted.context.cpsr := rfl
  unfold loads
  rw [last, if_pos interrupted.inside, interrupted.proper]
  apply congrArg some
  refine Context.ext (funext fun register => ?_) rfl rfl rfl rfl
  fin_cases register <;> simp [stores, saved, Context.overwritten]

/-- A process continues with what it had exactly when the four registers held these values. -/
theorem overwritten_eq_iff {context : Context} {symbols : Symbols} :
    context.overwritten symbols = context ↔
      context.r 10 = symbols.scratchProc ∧ context.r 11 = context.cpsr ∧
        context.r 12 = context.pc ∧ aligned context.cpsr context.lr = context.pc := by
  constructor
  · intro same
    have registers : ∀ register, (context.overwritten symbols).r register = context.r register :=
      congrFun (congrArg Context.r same)
    exact ⟨(registers 10).symm, (registers 11).symm, (registers 12).symm,
      congrArg Context.pc same⟩
  · rintro ⟨scratchProc, status, counter, link⟩
    unfold Context.overwritten
    rw [← scratchProc, Function.update_eq_self, ← status, Function.update_eq_self, ← counter,
      Function.update_eq_self, status, link]

/-! ## The steps of a processor -/

/-- A step of a processor whose processes are interrupted in supervisor mode. Between two steps that
concern the kernel a process may leave anything in the registers. -/
inductive MachineStep (symbols : Symbols) :
    Machine → SwitchEvent TaskRegisters Interrupted (Option Context) → Machine → Prop
  | execute (before : Machine) (cpu : Cpu) :
      MachineStep symbols before .execute { before with cpu }
  | create {before : Machine} {process : Address} {kernel : KernelState 32 TaskRegisters}
      (cpu : Cpu) (allocator : Allocator) (fuel : Nat) (initialState : TaskRegisters)
      (returned : schedulerCreateProc allocator fuel initialState before.kernel =
        .ok process kernel) :
      MachineStep symbols before (.create process initialState) ⟨cpu, kernel⟩
  | exit {before : Machine} {kernel : KernelState 32 TaskRegisters} (cpu : Cpu) (fuel : Nat)
      (returned : schedulerExit fuel before.kernel = .ok () kernel) :
      MachineStep symbols before (.exit before.kernel.currentProc) ⟨cpu, kernel⟩
  | interrupt {before after : Machine} (interrupted : Interrupted)
      (sees : before.cpu.context = some interrupted.context) (fuel : Nat)
      (afterSave afterNext : Unknown)
      (returned : timerInterrupt symbols fuel afterSave afterNext before = .ok () after) :
      MachineStep symbols before
        (.switch before.kernel.currentProc interrupted after.kernel.currentProc
          after.cpu.context) after

/-- A processor takes the steps of the port. -/
theorem MachineStep.switchStep {symbols : Symbols} {before after : Machine}
    {event : SwitchEvent TaskRegisters Interrupted (Option Context)}
    (step : MachineStep symbols before event after) :
    SwitchStep (port symbols) before.kernel event after.kernel := by
  cases step with
  | execute cpu => exact .execute _
  | create cpu allocator fuel initialState returned => exact .create allocator fuel _ returned
  | exit cpu fuel returned => exact .exit fuel returned
  | interrupt interrupted sees fuel afterSave afterNext returned =>
    obtain ⟨middle, stored, advanced, continues⟩ := timerInterrupt_ok sees returned
    rw [continues]
    exact .switch interrupted fuel stored advanced

/-! ## Runs -/

section Runs

variable {symbols : Symbols} {initial : KernelState 32 TaskRegisters} {boot : Finset Address}
  {allocator : Allocator} {fuel : Nat} {zeroState : TaskRegisters} {start state after : Machine}
  {events : List (SwitchEvent TaskRegisters Interrupted (Option Context))}
  {interrupted resumed : Pointer} {saved : Interrupted} {continued : Option Context}

/-- **Resumption.** In every run a process that was interrupted and is resumed continues with r10 to
r12 and its program counter overwritten, so with exactly what it had if and only if these held the
address of `ScratchProc`, its status, its program counter, and its link register. -/
theorem resumed_overwritten (booted : Boot boot initial)
    (started : schedulerInitialise allocator fuel zeroState initial = .ok () start.kernel)
    (run : Run (MachineStep symbols) start events state)
    (step : MachineStep symbols state (.switch interrupted saved resumed continued) after) :
    ∃ first process given, start.kernel.currentProc = some first ∧ resumed = some process ∧
      givenAfter first zeroState (events ++ [.switch interrupted saved resumed continued])
        process = some given ∧
      ∀ last : Interrupted, given = .interrupted last →
        continued = some (last.context.overwritten symbols) ∧
        (continued = some last.context ↔
          last.context.r 10 = symbols.scratchProc ∧ last.context.r 11 = last.context.cpsr ∧
            last.context.r 12 = last.context.pc ∧
            aligned last.context.cpsr last.context.lr = last.context.pc) := by
  have portRun : Run (SwitchStep (port symbols)) start.kernel events state.kernel :=
    run.map Machine.kernel fun _ _ _ move => move.switchStep
  obtain ⟨first, process, given, here, selected, known, loaded, _⟩ :=
    switch_resumes booted started portRun step.switchStep
  refine ⟨first, process, given, here, selected, known, ?_⟩
  intro last lastGiven
  subst lastGiven
  have exactly : continued = some (last.context.overwritten symbols) :=
    loaded.trans (loads_stores symbols last)
  refine ⟨exactly, ?_⟩
  rw [exactly, Option.some.injEq]
  exact overwritten_eq_iff

end Runs

/-- The kernel after its start. -/
def sampleKernel : KernelState 32 TaskRegisters :=
  stateAfter (schedulerInitialise .next 4 fun _ => 0) (.bareRoot 32 fun _ => 0)

/-- The symbols of the sample. -/
def sampleSymbols : Symbols := ⟨0x80020000, 0x80030000⟩

/-- A process with a link register and values in r10 to r12. -/
def sampleContext (lr fourth : BitVec 32) : Context where
  r := Function.update (Function.update (Function.update (fun _ => 0) 10 0x80020000) 11 0x53) 12
    fourth
  sp := 0x80100000
  lr := lr
  pc := 0x80010100
  cpsr := 0x53

/-- The process is in supervisor mode. -/
def sampleInterrupted (lr fourth : BitVec 32) : Interrupted where
  context := sampleContext lr fourth
  inside := show mode 0x53 = svcMode by decide
  proper := show (0x53 : BitVec 32) &&& statusMask = 0x53 by decide

/-- The process runs. -/
def sampleMachine (lr fourth : BitVec 32) : Machine where
  cpu := {
    r := (sampleContext lr fourth).r
    sp := fun _ => 0x80100000
    lr := fun _ => lr
    spsr := fun _ => 0
    pc := 0x80010100
    cpsr := 0x53 }
  kernel := sampleKernel

/-- What the C functions leave in the sample. -/
def sampleUnknown : Unknown := ⟨fun _ => 0, 0, 0⟩

/-- The one process is interrupted and resumed. -/
def sampleResumed (lr fourth : BitVec 32) : Machine :=
  stateAfter (timerInterrupt sampleSymbols 4 sampleUnknown sampleUnknown) (sampleMachine lr fourth)

/-- The scheduler of the sample starts. -/
theorem sample_started : schedulerInitialise .next 4 (fun _ => 0)
    (.bareRoot 32 fun _ => 0) = .ok () sampleKernel :=
  ok_of_resultOf (by decide +kernel)

/-- The switch of the sample. -/
theorem sample_interrupt (lr fourth : BitVec 32)
    (returned : resultOf (timerInterrupt sampleSymbols 4 sampleUnknown sampleUnknown)
      (sampleMachine lr fourth) = some ()) :
    MachineStep sampleSymbols (sampleMachine lr fourth)
      (.switch (some 3) (sampleInterrupted lr fourth)
        (sampleResumed lr fourth).kernel.currentProc (sampleResumed lr fourth).cpu.context)
      (sampleResumed lr fourth) := by
  have current : sampleKernel.currentProc = some 3 := by decide +kernel
  rw [← current]
  have inside : mode (0x53 : BitVec 32) = svcMode := by decide
  exact .interrupt (sampleInterrupted lr fourth) (if_pos inside) 4 sampleUnknown sampleUnknown
    (ok_of_resultOf returned)

/-- A process that holds these values continues as it was. -/
theorem resumed_overwritten_equal : (sampleResumed 0x80010100 0x80010100).cpu.context =
    some (sampleContext 0x80010100 0x80010100) := by
  obtain ⟨first, process, given, here, resumed, known, continues⟩ :=
    resumed_overwritten (Boot.bareRoot 32 fun _ => 0) sample_started (.nil _)
      (sample_interrupt 0x80010100 0x80010100 (by decide +kernel))
  have selected : (sampleResumed 0x80010100 0x80010100).kernel.currentProc = some 3 := by
    decide +kernel
  obtain rfl := Option.some.inj (resumed.symm.trans selected)
  have last : given = .interrupted (sampleInterrupted 0x80010100 0x80010100) :=
    Option.some.inj (known.symm.trans (givenAfter_interrupted first 3 (fun _ => 0) [] _
      (sampleResumed 0x80010100 0x80010100).kernel.currentProc _))
  exact (continues _ last).2.mpr (by decide +kernel)

/-- A process continues at its link register. -/
theorem resumed_at_link :
    ¬ ∀ (symbols : Symbols) (initial : KernelState 32 TaskRegisters) (boot : Finset Address)
      (start state after : Machine)
      (events : List (SwitchEvent TaskRegisters Interrupted (Option Context)))
      (interrupted : Pointer) (saved last : Interrupted) (first process : Address)
      (continued : Option Context), Boot boot initial →
      schedulerInitialise .next 4 (fun _ => 0) initial = .ok () start.kernel →
      start.kernel.currentProc = some first → Run (MachineStep symbols) start events state →
      MachineStep symbols state (.switch interrupted saved (some process) continued) after →
      givenAfter first (fun _ => 0) (events ++ [.switch interrupted saved (some process) continued])
        process = some (.interrupted last) →
      continued = some last.context := by
  intro claim
  have selected : (sampleResumed 0x80010204 0).kernel.currentProc = some 3 := by decide +kernel
  have step := sample_interrupt 0x80010204 0 (by decide +kernel)
  rw [selected] at step
  have same := claim _ _ _ _ _ _ _ _ _ _ 3 3 _ (Boot.bareRoot 32 fun _ => 0) sample_started
    (by decide +kernel) (.nil _) step (givenAfter_interrupted 3 3 (fun _ => 0) [] _ (some 3) _)
  have link : (sampleResumed 0x80010204 0).cpu.pc = 0x80010204 := by decide +kernel
  rw [Cpu.pc_of_context same] at link
  exact absurd link (by decide +kernel)

end Unarddeg.Arm32
