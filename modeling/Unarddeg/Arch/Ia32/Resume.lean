import Unarddeg.Arch.Ia32.Switch

/-!
# What a process on ia32 continues with

The steps of a processor refine those of the port whose `stores` and `loads` are below, up to
`ScratchProc`, whose flags `NextProcess` changes after it selected a process. A process at level 0
that was interrupted continues with exactly what it had (`resumed_exactly`).
-/

namespace Unarddeg.Ia32

open Library

/-- An interrupted processor. -/
structure Interrupted where
  /-- Its registers. -/
  cpu : Cpu
  /-- The processor has no other flags. -/
  proper : loadedFlags cpu.eflags = cpu.eflags
  /-- It took an interrupt. -/
  enabled : cpu.eflags &&& interruptFlag = interruptFlag

/-- The registers stored for a process. -/
def stores (interrupted : Interrupted) : TaskRegisters :=
  let reg := interrupted.cpu.reg
  let seg := interrupted.cpu.seg
  let inside := level interrupted.cpu.cs = 0
  ![reg .eax, reg .ecx, reg .edx, reg .ebx, if inside then reg .esp else 0x10000 - 4 - 4,
    reg .ebp, reg .esi, reg .edi, interrupted.cpu.eip, interrupted.cpu.cs.setWidth 32,
    withLow (reg .eax) (seg .ds), withLow (reg .ebx) (seg .es),
    withLow (reg .ecx) (if inside then seg .ss else 0x10), withLow (reg .edx) (seg .fs),
    withLow (reg .esi) (seg .gs), interrupted.cpu.eflags]

/-- The port. -/
def port : Port TaskRegisters Interrupted (Option Cpu) := ⟨stores, loads⟩

section Saved

variable {machine : Machine} {value : BitVec 32} {register : Reg}

/-- Pushing only changes the stack pointer. -/
theorem reg_pushed (other : register ≠ .esp) :
    (machine.pushed value).cpu.reg register = machine.cpu.reg register := by
  simp [Machine.pushed, Cpu.set, other]

/-- The switch to the stack of the frame only changes the stack pointer and SS. -/
theorem reg_frameStack (other : register ≠ .esp) :
    machine.frameStack.cpu.reg register = machine.cpu.reg register := by
  unfold Machine.frameStack
  split
  · rfl
  · rw [reg_pushed other, reg_pushed other]
    simp [Cpu.setSeg, Cpu.set, other]

/-- The stack pointer on the stack of the frame. -/
theorem esp_frameStack : machine.frameStack.cpu.reg .esp =
    if level machine.cpu.cs = 0 then machine.cpu.reg .esp else 0x10000 - 4 - 4 := by
  unfold Machine.frameStack
  split
  · rfl
  · rw [esp_pushed, esp_pushed]
    simp [Cpu.setSeg, Cpu.set]

/-- The segments on the stack of the frame. -/
theorem seg_frameStack (segment : Seg) : machine.frameStack.cpu.seg segment =
    if segment = .ss ∧ level machine.cpu.cs ≠ 0 then 0x10 else machine.cpu.seg segment := by
  unfold Machine.frameStack
  by_cases inside : level machine.cpu.cs = 0
  · rw [if_pos inside, if_neg fun both => both.2 inside]
  · rw [if_neg inside]
    by_cases stack : segment = .ss
    · rw [if_pos ⟨stack, inside⟩, stack]
      rfl
    · rw [if_neg fun both => stack both.1]
      exact Function.update_of_ne stack _ _

/-- Disabling the interrupts does not change what is saved. -/
theorem saved_cli (symbols : Symbols) (machine : Machine) :
    (Instr.effect symbols machine .cli).saved = machine.saved := rfl

/-- Disabling the interrupts does not change the kernel. -/
theorem kernel_cli (symbols : Symbols) (machine : Machine) :
    (Instr.effect symbols machine .cli).kernel = machine.kernel := rfl

/-- The kernel is as it was. -/
theorem kernel_gate : machine.gate.kernel = machine.kernel := by
  show machine.frameStack.kernel = machine.kernel
  unfold Machine.frameStack
  split <;> rfl

/-- What the code saves after an interrupt is what the port stores for the process. -/
theorem saved_gate (interrupted : Interrupted) (same : machine.cpu = interrupted.cpu) :
    machine.gate.saved = stores interrupted := by
  obtain ⟨eip, cs, flags⟩ := frame_tops machine.frameStack machine.cpu.eflags
    (machine.cpu.cs.setWidth 32) machine.cpu.eip
  have below := frame_cpu machine.frameStack machine.cpu.eflags (machine.cpu.cs.setWidth 32)
    machine.cpu.eip
  -- The gate loads the code segment and the flags behind the frame.
  have framed : SameStack machine.gate (((machine.frameStack.pushed machine.cpu.eflags).pushed
      (machine.cpu.cs.setWidth 32)).pushed machine.cpu.eip) := ⟨rfl, rfl, rfl⟩
  have reg : ∀ register, register ≠ .esp →
      machine.gate.cpu.reg register = machine.cpu.reg register := by
    intro register other
    rw [framed.reg, reg_pushed other, reg_pushed other, reg_pushed other, reg_frameStack other]
  have esp : machine.gate.popped.popped.popped.cpu.reg .esp = machine.frameStack.cpu.reg .esp := by
    rw [framed.popped.popped.popped.reg, below]
  have seg : ∀ segment, machine.gate.cpu.seg segment = _ := seg_frameStack
  have top := framed.top.trans eip
  have second := framed.popped.top.trans cs
  have third := framed.popped.popped.top.trans flags
  simp only [Machine.saved, stores, esp, esp_frameStack, top, second, third, seg,
    reg _ (by decide : Reg.eax ≠ .esp), reg _ (by decide : Reg.ecx ≠ .esp),
    reg _ (by decide : Reg.edx ≠ .esp), reg _ (by decide : Reg.ebx ≠ .esp),
    reg _ (by decide : Reg.ebp ≠ .esp), reg _ (by decide : Reg.esi ≠ .esp),
    reg _ (by decide : Reg.edi ≠ .esp), ← same]
  by_cases inside : level machine.cpu.cs = 0 <;> simp [inside]

end Saved

/-- The low word of a register is the selector that was moved there. -/
theorem low_withLow (value : BitVec 32) (low : BitVec 16) :
    (withLow value low).setWidth 16 = low := by
  unfold withLow
  rw [BitVec.setWidth_append]
  simp

/-- The flags of an interrupted processor are loaded as they are. -/
theorem Interrupted.flags (interrupted : Interrupted) :
    loadedFlags (interrupted.cpu.eflags ||| 0x202) = interrupted.cpu.eflags := by
  have interrupts : interrupted.cpu.eflags ||| interruptFlag = interrupted.cpu.eflags := by
    apply BitVec.eq_of_getLsbD_eq
    intro place small
    have enabled := congrArg (fun flags => flags.getLsbD place) interrupted.enabled
    simp only [BitVec.getLsbD_and] at enabled
    rw [BitVec.getLsbD_or, ← enabled]
    cases interrupted.cpu.eflags.getLsbD place <;> rfl
  have fixed : interrupted.cpu.eflags ||| fixedFlag = interrupted.cpu.eflags := by
    have proper := interrupted.proper
    unfold loadedFlags at proper
    rw [← proper, BitVec.or_assoc, BitVec.or_self]
  rw [show (0x202 : BitVec 32) = interruptFlag ||| fixedFlag by decide, ← BitVec.or_assoc,
    interrupts, fixed, interrupted.proper]

/-- A process at level 0 continues with exactly what it had. -/
theorem loads_stores (interrupted : Interrupted) :
    loads (stores interrupted) = interrupted.cpu.kernelView := by
  have cs : (loadedCpu (stores interrupted)).cs = interrupted.cpu.cs := by
    show (interrupted.cpu.cs.setWidth 32).setWidth 16 = interrupted.cpu.cs
    simp
  unfold loads Cpu.kernelView
  rw [cs]
  by_cases inside : level interrupted.cpu.cs = 0
  · rw [if_pos inside, if_pos inside]
    have reg : (loadedCpu (stores interrupted)).reg = interrupted.cpu.reg := by
      funext register
      cases register <;> simp [loadedCpu, regSlot, stores, inside]
    have seg : (loadedCpu (stores interrupted)).seg = interrupted.cpu.seg := by
      funext segment
      cases segment <;> simp [loadedCpu, segSlot, stores, inside, low_withLow]
    exact congrArg some (Cpu.ext reg rfl cs seg interrupted.flags)
  · rw [if_neg inside, if_neg inside]

/-! ## The steps of a processor -/

/-- A step of a processor. Between two steps that concern the kernel a process may leave anything in
the registers and on the stacks. -/
inductive MachineStep (symbols : Symbols) :
    Machine → SwitchEvent TaskRegisters Interrupted (Option Cpu) → Machine → Prop
  | execute (before : Machine) (cpu : Cpu) (memory : Memory 32) :
      MachineStep symbols before .execute { before with cpu, memory }
  | create {before : Machine} {process : Address} {kernel : KernelState 32 TaskRegisters}
      (cpu : Cpu) (memory : Memory 32) (allocator : Allocator) (fuel : Nat)
      (initialState : TaskRegisters)
      (returned : schedulerCreateProc allocator fuel initialState before.kernel =
        .ok process kernel) :
      MachineStep symbols before (.create process initialState) ⟨cpu, memory, kernel⟩
  | exit {before : Machine} {kernel : KernelState 32 TaskRegisters} (cpu : Cpu)
      (memory : Memory 32) (fuel : Nat)
      (returned : schedulerExit fuel before.kernel = .ok () kernel) :
      MachineStep symbols before (.exit before.kernel.currentProc) ⟨cpu, memory, kernel⟩
  | interrupt {before after : Machine} (proper : loadedFlags before.cpu.eflags = before.cpu.eflags)
      (enabled : before.cpu.eflags &&& interruptFlag = interruptFlag) (fuel : Nat)
      (afterSave afterNext : Unknown)
      (returned : timerInterrupt symbols fuel afterSave afterNext before = .ok () after) :
      MachineStep symbols before
        (.switch before.kernel.currentProc ⟨before.cpu, proper, enabled⟩ after.kernel.currentProc
          after.cpu.kernelView) after

/-- A timer interrupt saves the process and continues with the selected one. -/
theorem timerInterrupt_ok {symbols : Symbols} {fuel : Nat} {afterSave afterNext : Unknown}
    {before after : Machine} {result : Unit} (interrupted : Interrupted)
    (same : before.cpu = interrupted.cpu)
    (returned : timerInterrupt symbols fuel afterSave afterNext before = .ok result after) :
    ∃ middle last scratchProc, commitProcessSave
        { before.kernel with scratchProc := stores interrupted } = .ok () middle ∧
      commitNextProcess fuel middle = .ok () last ∧
      after.kernel = { last with scratchProc } ∧
      after.cpu.kernelView = loads last.scratchProc := by
  obtain ⟨_, _, gate, returned⟩ := bind_ok.mp returned
  obtain rfl := modify_ok.mp gate
  obtain ⟨_, _, disable, returned⟩ := bind_ok.mp returned
  obtain rfl := run_ok disable
  obtain ⟨middle, last, scratchProc, saved, advanced, kernel, view⟩ := nextProcess_ok returned
  rw [saved_cli, kernel_cli, saved_gate interrupted same, kernel_gate] at saved
  exact ⟨middle, last, scratchProc, saved, advanced, kernel, view⟩

/-- A processor takes the steps of the port, up to `ScratchProc`. -/
theorem MachineStep.switchStep {symbols : Symbols} {before after : Machine}
    {event : SwitchEvent TaskRegisters Interrupted (Option Cpu)}
    (step : MachineStep symbols before event after) :
    ∃ last scratchProc, SwitchStep port before.kernel event last ∧
      after.kernel = { last with scratchProc } := by
  cases step with
  | execute cpu memory => exact ⟨_, _, .execute _, rfl⟩
  | create cpu memory allocator fuel initialState returned =>
    exact ⟨_, _, .create allocator fuel _ returned, rfl⟩
  | exit cpu memory fuel returned => exact ⟨_, _, .exit fuel returned, rfl⟩
  | interrupt proper enabled fuel afterSave afterNext returned =>
    obtain ⟨middle, last, scratchProc, saved, advanced, kernel, view⟩ :=
      timerInterrupt_ok ⟨before.cpu, proper, enabled⟩ rfl returned
    refine ⟨last, scratchProc, ?_, kernel⟩
    rw [view, kernel]
    exact @SwitchStep.switch _ _ _ _ port _ _ _ ⟨before.cpu, proper, enabled⟩ fuel saved advanced

/-- What is continued with is the processor after the step, at level 0. -/
theorem MachineStep.continued {symbols : Symbols} {before after : Machine}
    {interrupted resumed : Pointer} {saved : Interrupted} {continued : Option Cpu}
    (step : MachineStep symbols before (.switch interrupted saved resumed continued) after) :
    continued = after.cpu.kernelView := by
  cases step
  rfl

/-- A processor is what is seen at level 0. -/
theorem Cpu.eq_of_kernelView {cpu other : Cpu} (view : cpu.kernelView = some other) :
    cpu = other := by
  unfold Cpu.kernelView at view
  split at view
  · exact Option.some.inj view
  · cases view

/-! ## Runs -/

section Runs

variable {symbols : Symbols} {initial : KernelState 32 TaskRegisters} {boot : Finset Address}
  {allocator : Allocator} {fuel : Nat} {zeroState : TaskRegisters} {start state after : Machine}
  {events : List (SwitchEvent TaskRegisters Interrupted (Option Cpu))}
  {interrupted resumed : Pointer} {saved : Interrupted} {continued : Option Cpu}
  {layout : Layout} {procs : List Address} {taskOf : Address → Address}
  {given : Address → Option (Given TaskRegisters Interrupted)}

/-- Every run keeps the registers in the tasks. -/
theorem machine_tasks (holds : Tasks port layout start.kernel procs taskOf given)
    (run : Run (MachineStep symbols) start events state) :
    ∃ procs' taskOf', Tasks port layout state.kernel procs' taskOf'
      (events.foldl lastGiven given) := by
  induction run with
  | nil => exact ⟨procs, taskOf, holds⟩
  | snoc _ step ih =>
    obtain ⟨_, _, before⟩ := ih
    obtain ⟨last, scratchProc, move, kernel⟩ := step.switchStep
    obtain ⟨procs', taskOf', kept⟩ := move.tasks before
    rw [List.foldl_append, kernel]
    exact ⟨procs', taskOf', kept.scratch scratchProc⟩

/-- What a process at level 0 continues with: with what it had at its interrupt, or with the
registers that it was created with, the interrupt flag set. A segment register takes the low half of
its word, and EFLAGS only the flags that there are. -/
def continuesWith : Given TaskRegisters Interrupted → Cpu
  | .interrupted saved => saved.cpu
  | .created initialState => {
      reg := fun register => initialState (regSlot register)
      eip := initialState 8
      cs := (initialState 9).setWidth 16
      seg := fun segment => (initialState (segSlot segment)).setWidth 16
      eflags := loadedFlags (initialState 15 ||| 0x202) }

/-- **Resumption.** In every run a process that is resumed, and that was at level 0 when it was last
interrupted or is created at level 0, continues with exactly what it had. The other fields of all
tasks are unchanged by the interrupt. -/
theorem resumed_exactly (booted : Boot boot initial)
    (started : schedulerInitialise allocator fuel zeroState initial = .ok () start.kernel)
    (run : Run (MachineStep symbols) start events state)
    (step : MachineStep symbols state (.switch interrupted saved resumed continued) after) :
    ∃ first process given, start.kernel.currentProc = some first ∧ resumed = some process ∧
      givenAfter first zeroState (events ++ [.switch interrupted saved resumed continued])
        process = some given ∧
      (level (continuesWith given).cs = 0 → after.cpu = continuesWith given) ∧
      ∀ task, (after.kernel.task task).programIdentifier =
          (state.kernel.task task).programIdentifier ∧
        (after.kernel.task task).files = (state.kernel.task task).files ∧
        (after.kernel.task task).baseDir = (state.kernel.task task).baseDir := by
  obtain ⟨layout, first, taskOf, here, holds⟩ := tasks_start booted started port
  obtain ⟨procs, taskOf, holds⟩ := machine_tasks holds run
  obtain ⟨last, scratchProc, move, kernel⟩ := step.switchStep
  obtain ⟨process, given, selected, known, continues⟩ := move.resumes holds
  refine ⟨first, process, given, here, selected, ?_, fun inside => ?_, fun task => ?_⟩
  · rw [givenAfter, List.foldl_append]
    exact known
  · apply Cpu.eq_of_kernelView
    rw [← step.continued, continues]
    cases given with
    | interrupted saved => exact (loads_stores saved).trans (if_pos inside)
    | created initialState => exact if_pos inside
  · rw [kernel]
    exact move.fields holds task

end Runs

/-- The kernel after its start. -/
def sampleKernel : KernelState 32 TaskRegisters :=
  stateAfter (schedulerInitialise .next 4 fun _ => 0) (.bareRoot 32 fun _ => 0)

/-- A process of the kernel. -/
def sampleCpu : Cpu where
  reg register := if register = .esp then 0x9000 else 7
  eip := 0x100000
  cs := 0x08
  seg _ := 0x10
  eflags := 0x202

/-- The first process runs. -/
def sampleMachine : Machine := ⟨sampleCpu, fun _ => 0, sampleKernel⟩

/-- The symbols of the sample. -/
def sampleSymbols : Symbols := ⟨0x200000, 0x301000⟩

/-- What the C functions leave in the sample: on one stack lie a stack pointer and a selector. -/
def sampleUnknown : Unknown where
  reg _ := 0
  memory address := if address = 0xA001 then 0xB0 else if address = 0xA004 then 0x23 else 0

/-- The machine after a timer interrupt. -/
def sampleInterrupted (machine : Machine) : Machine :=
  stateAfter (timerInterrupt sampleSymbols 4 sampleUnknown sampleUnknown) machine

/-- The scheduler of the sample starts. -/
theorem sample_started : schedulerInitialise .next 4 (fun _ => 0)
    (.bareRoot 32 fun _ => 0) = .ok () sampleKernel :=
  ok_of_resultOf (by decide +kernel)

/-- A switch of the sample. -/
theorem sample_interrupt {machine : Machine} (runs : machine.cpu = sampleCpu)
    (returned : resultOf (timerInterrupt sampleSymbols 4 sampleUnknown sampleUnknown)
      machine = some ()) :
    MachineStep sampleSymbols machine
      (.switch machine.kernel.currentProc
        ⟨machine.cpu, by rw [runs]; decide, by rw [runs]; decide⟩
        (sampleInterrupted machine).kernel.currentProc (sampleInterrupted machine).cpu.kernelView)
      (sampleInterrupted machine) :=
  .interrupt (by rw [runs]; decide) (by rw [runs]; decide) 4 sampleUnknown sampleUnknown
    (ok_of_resultOf returned)

/-- The one process is interrupted and continues. -/
theorem resumed_exactly_sample : (sampleInterrupted sampleMachine).cpu = sampleCpu := by
  have step := @sample_interrupt sampleMachine rfl (by decide +kernel)
  have current : sampleMachine.kernel.currentProc = some 3 := by decide +kernel
  rw [current] at step
  obtain ⟨first, process, given, here, resumed, known, continues, _⟩ :=
    resumed_exactly (Boot.bareRoot 32 fun _ => 0) sample_started (.nil _) step
  have selected : (sampleInterrupted sampleMachine).kernel.currentProc = some 3 := by
    decide +kernel
  obtain rfl := Option.some.inj (resumed.symm.trans selected)
  have last := Option.some.inj (known.symm.trans
    (givenAfter_interrupted first 3 (fun _ => 0) [] _ _ _))
  subst last
  exact continues (by decide)

/-- The registers of a new process with some selectors and flags. -/
def sampleRegisters (cs data flags : BitVec 32) : TaskRegisters :=
  ![0, 0, 0, 0, 0xA000, 0, 0, 0, 0x110000, cs, data, data, 0x10, data, data, flags]

/-- The machine after a process was created with these registers. -/
def sampleCreated (registers : TaskRegisters) : Machine :=
  ⟨sampleCpu, fun _ => 0, stateAfter (schedulerCreateProc .next 4 registers) sampleKernel⟩

/-- Every new process continues with its registers, the interrupt flag set. -/
def CreatedContinue (allowed : TaskRegisters → Prop) : Prop :=
  ∀ (symbols : Symbols) (initial : KernelState 32 TaskRegisters) (boot : Finset Address)
    (start state after : Machine)
    (events : List (SwitchEvent TaskRegisters Interrupted (Option Cpu)))
    (interrupted : Pointer) (saved : Interrupted) (first process : Address)
    (continued : Option Cpu) (initialState : TaskRegisters), allowed initialState →
    Boot boot initial → schedulerInitialise .next 4 (fun _ => 0) initial = .ok () start.kernel →
    start.kernel.currentProc = some first → Run (MachineStep symbols) start events state →
    MachineStep symbols state (.switch interrupted saved (some process) continued) after →
    givenAfter first (fun _ => 0) (events ++ [.switch interrupted saved (some process) continued])
      process = some (.created initialState) →
    after.cpu = { continuesWith (.created initialState) with
      eflags := initialState 15 ||| 0x202 }

/-- A process of the sample that is created and resumed. -/
theorem CreatedContinue.sample {allowed : TaskRegisters → Prop} (claim : CreatedContinue allowed)
    {registers : TaskRegisters} (member : allowed registers)
    (current : (sampleCreated registers).kernel.currentProc = some 3)
    (selected : (sampleInterrupted (sampleCreated registers)).kernel.currentProc = some 6)
    (created : resultOf (schedulerCreateProc .next 4 registers) sampleKernel = some 6)
    (returned : resultOf (timerInterrupt sampleSymbols 4 sampleUnknown sampleUnknown)
      (sampleCreated registers) = some ()) :
    (sampleInterrupted (sampleCreated registers)).cpu =
      { continuesWith (.created registers) with eflags := registers 15 ||| 0x202 } := by
  have run : Run (MachineStep sampleSymbols) sampleMachine [.create 6 registers]
      (sampleCreated registers) :=
    .snoc (.nil _) (.create sampleCpu (fun _ => 0) .next 4 registers (ok_of_resultOf created))
  have step := @sample_interrupt (sampleCreated registers) rfl returned
  rw [selected, current] at step
  exact claim _ _ _ _ _ _ _ _ _ 3 6 _ registers member (Boot.bareRoot 32 fun _ => 0)
    sample_started (by decide +kernel) run step rfl

/-- A new process continues without a flag that the processor does not have. -/
theorem reserved_flag_dropped : ¬ CreatedContinue fun _ => True := by
  intro claim
  have same := @CreatedContinue.sample _ claim (sampleRegisters 0x08 0x10 0x20A) trivial
    (by decide +kernel) (by decide +kernel) (by decide +kernel) (by decide +kernel)
  have flags : (sampleInterrupted (sampleCreated (sampleRegisters 0x08 0x10 0x20A))).cpu.eflags =
      0x202 := by
    decide +kernel
  rw [same] at flags
  exact absurd flags (by decide)

/-- A new process at level 3 continues with the stack pointer behind its frame, also when it has
only flags that there are. -/
theorem user_stack_lost :
    ¬ CreatedContinue fun registers => loadedFlags (registers 15) = registers 15 := by
  intro claim
  have same := @CreatedContinue.sample _ claim (sampleRegisters 0x1B 0x23 0x202) (by decide)
    (by decide +kernel) (by decide +kernel) (by decide +kernel) (by decide +kernel)
  have esp : (sampleInterrupted (sampleCreated (sampleRegisters 0x1B 0x23 0x202))).cpu.reg .esp =
      0xB000 := by
    decide +kernel
  rw [same] at esp
  exact absurd esp (by decide)

end Unarddeg.Ia32
