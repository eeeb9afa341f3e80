import Unarddeg.Arch.Riscv.Switch
import Unarddeg.Kernel.Sched.Switch

/-!
# What a process on RISC-V continues with

The steps of a hart refine those of the port whose `stores` and `loads` are below. `t1` is loaded
with the other integer registers, but `mstatus` goes through it afterwards, so a resumed process
finds the machine status of its last trap there (`resumed_registers`).
-/

namespace Unarddeg.Riscv

open Library

/-- The registers that a process sees. -/
@[ext]
structure Context where
  /-- The program counter. -/
  pc : BitVec 64
  /-- The integer registers. -/
  x : Fin 32 → BitVec 64
  /-- The floating-point registers. -/
  f : Fin 32 → BitVec 64
  /-- The floating-point control register. -/
  fcsr : BitVec 8
  /-- The address translation register. -/
  satp : BitVec 64
  /-- Interrupts are enabled. -/
  interruptEnable : Bool

/-- What the process on a hart sees. -/
def Cpu.context (cpu : Cpu) : Context where
  pc := cpu.pc
  x := cpu.get
  f := cpu.f
  fcsr := cpu.fcsr
  satp := cpu.satp
  interruptEnable := cpu.mstatus.getLsbD 3

/-- The machine status that `NextProcess` stores when a hart is interrupted. -/
def Cpu.savedStatus (cpu : Cpu) : BitVec 64 := trapStatus cpu.mstatus cpu.privilege &&& ~~~0x8

/-- A process and the machine status at its trap. -/
structure Trapped where
  /-- What the process saw. -/
  context : Context
  /-- The machine status that was stored. -/
  status : BitVec 64
  /-- Instructions begin at even addresses. -/
  even : context.pc.getLsbD 0 = false
  /-- `x0` is zero. -/
  zero : context.x 0 = 0
  /-- The trap moved `MIE` to `MPIE`. -/
  enabled : status.getLsbD 7 = context.interruptEnable

/-- The trap moves `MIE` to `MPIE`. -/
theorem savedStatus_enabled (cpu : Cpu) :
    cpu.savedStatus.getLsbD 7 = cpu.context.interruptEnable := by
  simp [Cpu.savedStatus, trapStatus, Cpu.context]

/-- `mret` moves `MPIE` to `MIE`. -/
theorem returnStatus_enabled (status : BitVec 64) :
    (returnStatus status).getLsbD 3 = status.getLsbD 7 := by
  simp only [returnStatus]
  split_ifs <;> simp

/-- The process on an interrupted hart. -/
def Cpu.trapped (cpu : Cpu) (even : cpu.pc.getLsbD 0 = false) : Trapped where
  context := cpu.context
  status := cpu.savedStatus
  even := even
  zero := rfl
  enabled := savedStatus_enabled cpu

/-- The registers stored for a process. -/
def stores (trapped : Trapped) (slot : Fin 67) : BitVec 64 :=
  if slot = 0 then trapped.context.pc
  else if small : slot < 32 then trapped.context.x (slot.castLT small)
  else if middle : slot < 64 then trapped.context.f ⟨slot - 32, fprIndex_lt middle⟩
  else if slot = 64 then trapped.status
  else if slot = 65 then trapped.context.fcsr.setWidth 64
  else trapped.context.satp

/-- What a process continues with when registers are loaded. -/
def loads (slots : TaskRegisters) : Context where
  pc := slots 0 &&& ~~~1
  x register :=
    if register = 0 then 0
    else if register = t1 then slots 64
    else slots (gprSlot register)
  f register := slots (fprSlot register)
  fcsr := (slots 65).setWidth 8
  satp := slots 66
  interruptEnable := (slots 64).getLsbD 7

/-- The port. -/
def port : Port TaskRegisters Trapped Context := ⟨stores, loads⟩

/-- Clearing the lowest bit of an even address changes nothing. -/
theorem and_not_one {address : BitVec 64} (even : address.getLsbD 0 = false) :
    address &&& ~~~1 = address := by
  have others : ∀ place : Fin 64,
      (~~~(1 : BitVec 64)).getLsbD place = decide (place.val ≠ 0) := by
    decide
  refine BitVec.eq_of_getLsbD_eq fun place small => ?_
  rw [BitVec.getLsbD_and, show (~~~(1 : BitVec 64)).getLsbD place = _ from others ⟨place, small⟩]
  by_cases first : place = 0
  · subst first
    rw [even, Bool.false_and]
  · simp [first]

/-- A process finds the machine status in `t1` and everything else as it was. -/
theorem loads_stores (trapped : Trapped) : loads (stores trapped) =
    { trapped.context with x := Function.update trapped.context.x t1 trapped.status } := by
  refine Context.ext (and_not_one trapped.even) (funext fun register => ?_)
    (funext fun register => ?_) ?_ rfl trapped.enabled
  · simp only [loads, Function.update_apply]
    by_cases zero : register = 0
    · rw [if_pos zero, zero, if_neg (by decide), trapped.zero]
    · rw [if_neg zero]
      refine if_congr Iff.rfl rfl ?_
      have small : gprSlot register < 32 := register.isLt
      have notPc : gprSlot register ≠ 0 := fun same => zero (gprSlot_injective same)
      rw [stores, if_neg notPc, dif_pos small]
      rfl
  · obtain ⟨notPc, notSmall, middle⟩ := fprSlot_place register
    have stored : stores trapped (fprSlot register) = _ :=
      (if_neg notPc).trans ((dif_neg notSmall).trans (dif_pos middle))
    exact stored.trans
      (congrArg trapped.context.f (Fin.ext (Nat.add_sub_cancel_left 32 register.val)))
  · exact (BitVec.setWidth_setWidth_of_le trapped.context.fcsr (by decide : 8 ≤ 64)).trans
      (BitVec.setWidth_eq _)

/-! ## The steps of a hart -/

/-- A step of a hart. Between two steps that concern the kernel a process may leave anything in the
registers. -/
inductive MachineStep (symbols : Symbols) :
    Machine → SwitchEvent TaskRegisters Trapped Context → Machine → Prop
  | execute (before : Machine) (cpu : Cpu) :
      MachineStep symbols before .execute { before with cpu := cpu }
  | create {before : Machine} {process : Address} {kernel : KernelState 64 TaskRegisters}
      (cpu : Cpu) (allocator : Allocator) (fuel : Nat) (initialState : TaskRegisters)
      (returned : schedulerCreateProc allocator fuel initialState before.kernel =
        .ok process kernel) :
      MachineStep symbols before (.create process initialState) ⟨cpu, kernel⟩
  | exit {before : Machine} {kernel : KernelState 64 TaskRegisters} (cpu : Cpu) (fuel : Nat)
      (returned : schedulerExit fuel before.kernel = .ok () kernel) :
      MachineStep symbols before (.exit before.kernel.currentProc) ⟨cpu, kernel⟩
  | interrupt {before after : Machine} (even : before.cpu.pc.getLsbD 0 = false) (fuel : Nat)
      (afterSave afterNext : Unknown)
      (returned : timerInterrupt symbols fuel afterSave afterNext before = .ok () after) :
      MachineStep symbols before
        (.switch before.kernel.currentProc (before.cpu.trapped even) after.kernel.currentProc
          after.cpu.context) after

/-- A call returns as its C function and leaves the control registers alone. -/
theorem call_ok {function : Kernel (KernelState 64 TaskRegisters) Unit} {unknown : Unknown}
    {before after : Machine} (returned : call function unknown before = .ok () after) :
    ∃ kernel, function before.kernel = .ok () kernel ∧
      after = { before with
        cpu := { before.cpu with x := unknown.x, f := unknown.f, fcsr := unknown.fcsr }
        kernel := kernel } := by
  rw [call, bind_of_ok (get_ok.mpr ⟨rfl, rfl⟩)] at returned
  cases done : function before.kernel with
  | ok result kernel =>
    rw [done] at returned
    exact ⟨kernel, rfl, (set_ok.mp returned).symm⟩
  | error reason kernel =>
    rw [done] at returned
    exact absurd returned (by simp [throw_ok])

/-- `NextProcess` stores the registers, selects a process, and loads its registers. -/
theorem nextProcess_ok {symbols : Symbols} {fuel : Nat} {afterSave afterNext : Unknown}
    {before after : Machine}
    (returned : nextProcess symbols fuel afterSave afterNext before = .ok () after) :
    ∃ middle, commitProcessSave { before.kernel with scratchProc := before.cpu.saved } =
        .ok () middle ∧
      commitNextProcess fuel middle = .ok () after.kernel ∧
      after.cpu.context = loads after.kernel.scratchProc := by
  rw [nextProcess, bind_of_ok (saveStage_eq symbols before)] at returned
  obtain ⟨_, _, stack, returned⟩ := bind_ok.mp returned
  obtain rfl := modify_ok.mp stack
  obtain ⟨_, _, stored, returned⟩ := bind_ok.mp returned
  obtain ⟨middle, saved, rfl⟩ := call_ok stored
  obtain ⟨_, _, advanced, returned⟩ := bind_ok.mp returned
  obtain ⟨kernel, selected, rfl⟩ := call_ok advanced
  rw [bind_of_ok (loadStage_eq symbols (by exact fpOn_or before.cpu.mstatus))] at returned
  obtain rfl := modify_ok.mp returned
  refine ⟨middle, saved, selected, Context.ext rfl (funext fun register => ?_) rfl rfl rfl
    (returnStatus_enabled _)⟩
  by_cases zero : register = 0
  · rw [zero]
    rfl
  · simp [Cpu.context, Cpu.get, Cpu.loaded, loads, zero]

/-- What `NextProcess` stores after a trap is what the port stores for the process. -/
theorem saved_interrupted (cpu : Cpu) (even : cpu.pc.getLsbD 0 = false) :
    ({ cpu.interrupted with
        mstatus := cpu.interrupted.mstatus &&& ~~~0x8
        mscratch := cpu.interrupted.get t0
        x := Function.update cpu.x t0 cpu.interrupted.mcause } : Cpu).saved =
      stores (cpu.trapped even) := by
  funext slot
  simp only [Cpu.saved, stores]
  by_cases pc : slot = 0
  · rw [if_pos pc, if_pos pc]
    rfl
  · rw [if_neg pc, if_neg pc]
    by_cases base : slot = 5
    · rw [if_pos base, base, dif_pos (by decide)]
      rfl
    · rw [if_neg base]
      by_cases small : slot < 32
      · have notBase : (⟨slot, small⟩ : Fin 32) ≠ t0 := fun same =>
          base (Fin.ext (congrArg Fin.val same : slot.val = 5))
        have notZero : (⟨slot, small⟩ : Fin 32) ≠ 0 := fun same =>
          pc (Fin.ext (congrArg Fin.val same : slot.val = 0))
        rw [dif_pos small, dif_pos small]
        exact (Function.update_of_ne notBase _ _).trans (if_neg notZero).symm
      · rw [dif_neg small, dif_neg small]
        rfl

/-- A timer interrupt saves the process and continues with the selected one. -/
theorem timerInterrupt_ok {symbols : Symbols} {fuel : Nat} {afterSave afterNext : Unknown}
    {before after : Machine} (even : before.cpu.pc.getLsbD 0 = false)
    (returned : timerInterrupt symbols fuel afterSave afterNext before = .ok () after) :
    ∃ middle, commitProcessSave
        { before.kernel with scratchProc := stores (before.cpu.trapped even) } = .ok () middle ∧
      commitNextProcess fuel middle = .ok () after.kernel ∧
      after.cpu.context = loads after.kernel.scratchProc := by
  obtain ⟨_, _, trap, returned⟩ := bind_ok.mp returned
  obtain rfl := modify_ok.mp trap
  obtain ⟨_, _, disable, returned⟩ := bind_ok.mp returned
  obtain rfl := modify_ok.mp disable
  obtain ⟨_, _, scratch, returned⟩ := bind_ok.mp returned
  obtain rfl := modify_ok.mp scratch
  obtain ⟨_, _, cause, returned⟩ := bind_ok.mp returned
  obtain rfl := modify_ok.mp cause
  simp only [bind_ok, get_ok] at returned
  obtain ⟨_, _, ⟨rfl, rfl⟩, returned⟩ := returned
  rcases ite_ok.mp returned with ⟨_, returned⟩ | ⟨_, stopped⟩
  · obtain ⟨middle, saved, selected, context⟩ := nextProcess_ok returned
    refine ⟨middle, ?_, selected, context⟩
    rw [← saved_interrupted before.cpu even]
    exact saved
  · exact absurd stopped (by simp [throw_ok])

/-- A hart takes the steps of the port. -/
theorem MachineStep.switchStep {symbols : Symbols} {before after : Machine}
    {event : SwitchEvent TaskRegisters Trapped Context}
    (step : MachineStep symbols before event after) :
    SwitchStep port before.kernel event after.kernel := by
  cases step with
  | execute cpu => exact .execute _
  | create cpu allocator fuel initialState returned => exact .create allocator fuel _ returned
  | exit cpu fuel returned => exact .exit fuel returned
  | interrupt even fuel afterSave afterNext returned =>
    obtain ⟨middle, saved, selected, context⟩ := timerInterrupt_ok even returned
    rw [context]
    exact .switch (before.cpu.trapped even) fuel saved selected

/-! ## Runs -/

section Runs

variable {symbols : Symbols} {initial : KernelState 64 TaskRegisters} {boot : Finset Address}
  {allocator : Allocator} {fuel : Nat} {zeroState : TaskRegisters} {start state after : Machine}
  {events : List (SwitchEvent TaskRegisters Trapped Context)} {interrupted resumed : Pointer}
  {saved : Trapped} {continued : Context}

/-- **Resumption.** In every run a process that was interrupted and is resumed continues with the
machine status of its interrupt in `t1` and with every other register as it was, so with exactly
what it had if and only if its `t1` held that status. -/
theorem resumed_registers (booted : Boot boot initial)
    (started : schedulerInitialise allocator fuel zeroState initial = .ok () start.kernel)
    (run : Run (MachineStep symbols) start events state)
    (step : MachineStep symbols state (.switch interrupted saved resumed continued) after) :
    ∃ first process given, start.kernel.currentProc = some first ∧ resumed = some process ∧
      givenAfter first zeroState (events ++ [.switch interrupted saved resumed continued])
        process = some given ∧
      ∀ trapped, given = .interrupted trapped →
        continued = { trapped.context with
          x := Function.update trapped.context.x t1 trapped.status } ∧
        (continued = trapped.context ↔ trapped.context.x t1 = trapped.status) := by
  have portRun : Run (SwitchStep port) start.kernel events state.kernel :=
    run.map Machine.kernel fun _ _ _ move => move.switchStep
  obtain ⟨first, process, given, here, selected, known, loaded, _⟩ :=
    switch_resumes booted started portRun step.switchStep
  refine ⟨first, process, given, here, selected, known, ?_⟩
  rintro trapped rfl
  have exactly : continued = { trapped.context with
      x := Function.update trapped.context.x t1 trapped.status } :=
    loaded.trans (loads_stores trapped)
  refine ⟨exactly, exactly ▸ ⟨fun same => ?_, fun same => ?_⟩⟩
  · have last : Function.update trapped.context.x t1 trapped.status t1 = trapped.status :=
      Function.update_self ..
    exact (congrFun (congrArg Context.x same) t1).symm.trans last
  · rw [← same, Function.update_eq_self]

end Runs

/-- The kernel after its start. -/
def sampleKernel : KernelState 64 TaskRegisters :=
  stateAfter (schedulerInitialise .next 4 fun _ => 0) (.bareRoot 64 fun _ => 0)

/-- A process with a value in `t1`. -/
def sampleMachine (value : BitVec 64) : Machine where
  cpu := {
    pc := 0x80000000
    x := Function.update (fun _ => 0) t1 value
    f := fun _ => 0
    fcsr := 0
    mstatus := 0x6008
    mepc := 0
    mcause := 0
    mscratch := 0
    satp := 0
    privilege := 3 }
  kernel := sampleKernel

/-- The symbols of the sample. -/
def sampleSymbols : Symbols := ⟨0x80010000, 0x80020000⟩

/-- What the C functions leave in the sample. -/
def sampleUnknown : Unknown := ⟨fun _ => 0, fun _ => 0, 0⟩

/-- The one process is interrupted and resumed. -/
def sampleResumed (value : BitVec 64) : Machine :=
  stateAfter (timerInterrupt sampleSymbols 4 sampleUnknown sampleUnknown) (sampleMachine value)

/-- The scheduler of the sample starts. -/
theorem sample_started : schedulerInitialise .next 4 (fun _ => 0)
    (.bareRoot 64 fun _ => 0) = .ok () sampleKernel :=
  ok_of_resultOf (by decide +kernel)

/-- The switch of the sample. -/
theorem sample_interrupt (value : BitVec 64)
    (returned : resultOf (timerInterrupt sampleSymbols 4 sampleUnknown sampleUnknown)
      (sampleMachine value) = some ()) :
    MachineStep sampleSymbols (sampleMachine value)
      (.switch (some 3)
        ((sampleMachine value).cpu.trapped (show (0x80000000#64).getLsbD 0 = false by decide))
        (sampleResumed value).kernel.currentProc (sampleResumed value).cpu.context)
      (sampleResumed value) := by
  have current : sampleKernel.currentProc = some 3 := by decide +kernel
  rw [← current]
  exact .interrupt (show (0x80000000#64).getLsbD 0 = false by decide) 4 sampleUnknown sampleUnknown
    (ok_of_resultOf returned)

/-- A process with the machine status in `t1` continues as it was. -/
theorem resumed_registers_status :
    (sampleResumed 0x7880).cpu.context = (sampleMachine 0x7880).cpu.context := by
  obtain ⟨first, process, given, here, resumed, known, continues⟩ :=
    resumed_registers (Boot.bareRoot 64 fun _ => 0) sample_started (.nil _)
      (sample_interrupt 0x7880 (by decide +kernel))
  have selected : (sampleResumed 0x7880).kernel.currentProc = some 3 := by decide +kernel
  obtain rfl := Option.some.inj (resumed.symm.trans selected)
  have last := Option.some.inj (known.symm.trans
    (givenAfter_interrupted first 3 (fun _ => 0) [] _ (sampleResumed 0x7880).kernel.currentProc _))
  exact (continues _ last).2.mpr (by decide +kernel)

/-- A process with 1 in `t1` continues with something else. -/
theorem status_left_in_t1 :
    ¬ ∀ (symbols : Symbols) (initial : KernelState 64 TaskRegisters) (boot : Finset Address)
      (start state after : Machine) (events : List (SwitchEvent TaskRegisters Trapped Context))
      (interrupted : Pointer) (saved trapped : Trapped) (first process : Address)
      (continued : Context), Boot boot initial →
      schedulerInitialise .next 4 (fun _ => 0) initial = .ok () start.kernel →
      start.kernel.currentProc = some first → Run (MachineStep symbols) start events state →
      MachineStep symbols state (.switch interrupted saved (some process) continued) after →
      givenAfter first (fun _ => 0) (events ++ [.switch interrupted saved (some process) continued])
        process = some (.interrupted trapped) →
      continued = trapped.context := by
  intro claim
  have selected : (sampleResumed 1).kernel.currentProc = some 3 := by decide +kernel
  have step := sample_interrupt 1 (by decide +kernel)
  rw [selected] at step
  have same := claim _ _ _ _ _ _ _ _ _ _ 3 3 _ (Boot.bareRoot 64 fun _ => 0) sample_started
    (by decide +kernel) (.nil _) step (givenAfter_interrupted 3 3 (fun _ => 0) [] _ (some 3) _)
  have different : (sampleResumed 1).cpu.context.x t1 ≠ (sampleMachine 1).cpu.context.x t1 := by
    decide +kernel
  exact different (congrFun (congrArg Context.x same) t1)

end Unarddeg.Riscv
