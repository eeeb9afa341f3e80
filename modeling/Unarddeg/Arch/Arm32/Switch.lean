import Unarddeg.Arch.Arm32.Machine
import Unarddeg.Kernel.Sched.Switch

/-!
# The ARMv7 switch

`IrqHandler` of `arm32/sched/trap.s` and `NextProcess` of `arm32/sched/switch.s`, instruction by
instruction. What it stores for a process lacks three registers that it has overwritten by then
(`Cpu.saved`), and it loads the return address into the register that it loads with the link
register of the process next (`loads`).
-/

namespace Unarddeg.Arm32

open Library

/-- `NextProcess` up to its calls. -/
def saveCode : List Instr :=
  [.sub .lr 4, .mov (.r 12) .lr, .mrs (.r 11), .cps 0x13,
    -- r10 to r12 are lost from here on.
    .ldrScratch (.r 10), .stmia 9, .str (.r 10) 10, .str (.r 11) 11, .str (.r 12) 12, .str .sp 13,
    .str .lr 14, .str (.r 12) 15, .str (.r 11) 16, .ldrStack .sp 4096]

/-- `NextProcess` from its calls to the last register. -/
def loadCode : List Instr :=
  [.ldrScratch (.r 10), .ldr (.r 0) 16, .msr (.r 0), .ldr .lr 15, .ldr .sp 13, .ldr .lr 14,
    .ldmia 12]

/-- `NextProcess`. -/
def nextProcess (symbols : Symbols) (fuel : Nat) (afterSave afterNext : Unknown) :
    Kernel Machine Unit := do
  saveCode.forM (Instr.run symbols)
  call commitProcessSave afterSave
  call (commitNextProcess fuel) afterNext
  loadCode.forM (Instr.run symbols)
  movsPcLr

/-- The timer interrupts the process: `IrqHandler`. -/
def timerInterrupt (symbols : Symbols) (fuel : Nat) (afterSave afterNext : Unknown) :
    Kernel Machine Unit := do
  modify fun machine => machine.withCpu machine.cpu.irq
  nextProcess symbols fuel afterSave afterNext

/-! ## Code -/

/-- An instruction that returns had its effect. -/
theorem run_ok {symbols : Symbols} {instr : Instr} {before after : Machine} {result : Unit}
    (returned : instr.run symbols before = .ok result after) :
    after = instr.effect symbols before := by
  rw [Instr.run, bind_of_ok (get_ok.mpr ⟨rfl, rfl⟩)] at returned
  rcases ite_ok.mp returned with ⟨_, done⟩ | ⟨_, stopped⟩
  · exact (set_ok.mp done).symm
  · exact (throw_ok.mp stopped).elim

/-- Code that returns had the effects of its instructions. -/
theorem code_ok {symbols : Symbols} {code : List Instr} {before after : Machine} {result : Unit}
    (returned : code.forM (Instr.run symbols) before = .ok result after) :
    after = code.foldl (fun machine instr => instr.effect symbols machine) before :=
  forM_ok (fun _ _ _ done => run_ok done) returned

/-- Code only changes the kernel in `ScratchProc`. -/
theorem code_kernel {symbols : Symbols} {code : List Instr} (machine : Machine) :
    (code.foldl (fun machine instr => instr.effect symbols machine) machine).kernel =
      { machine.kernel with scratchProc := (code.foldl
          (fun machine instr => instr.effect symbols machine) machine).kernel.scratchProc } := by
  induction code generalizing machine with
  | nil => rfl
  | cons instr code ih =>
    rw [List.foldl_cons, ih]
    cases instr <;> rfl

/-! ## Modes -/

/-- A status has the mode that it was given. -/
@[simp] theorem mode_withMode (status : BitVec 32) (other : BitVec 5) :
    mode (withMode status other) = other := by
  unfold mode withMode
  exact BitVec.setWidth_append_eq_right

/-- An IRQ is handled in IRQ mode. -/
@[simp] theorem mode_irqStatus (status : BitVec 32) : mode (irqStatus status) = irqMode := by
  apply BitVec.eq_of_getLsbD_eq
  intro place small
  have bits : ∀ place < 5, (~~~(0x0700FE3F : BitVec 32)).getLsbD place = false ∧
      (0x192 : BitVec 32).getLsbD place = irqMode.getLsbD place := by
    decide
  simp only [mode, irqStatus, BitVec.getLsbD_setWidth, BitVec.getLsbD_or, BitVec.getLsbD_and]
  rw [(bits place small).1, (bits place small).2]
  simp [small]

/-! ## Saving -/

/-- What a process in supervisor mode sees. -/
@[ext]
structure Context where
  /-- r0 to r12. -/
  r : Fin 13 → BitVec 32
  /-- The stack pointer. -/
  sp : BitVec 32
  /-- The link register. -/
  lr : BitVec 32
  /-- The program counter. -/
  pc : BitVec 32
  /-- The status. -/
  cpsr : BitVec 32

/-- What the process on a processor sees, if it is in supervisor mode; nothing is said about
processes in other modes. -/
def Cpu.context (cpu : Cpu) : Option Context :=
  if mode cpu.cpsr = svcMode then
    some ⟨cpu.r, cpu.get .sp, cpu.get .lr, cpu.pc, cpu.cpsr⟩
  else none

/-- What a process sees is its program counter. -/
theorem Cpu.pc_of_context {cpu : Cpu} {context : Context} (sees : cpu.context = some context) :
    cpu.pc = context.pc := by
  unfold Cpu.context at sees
  split at sees
  · obtain rfl := Option.some.inj sees
    rfl
  · cases sees

/-- What the code stores for a process. -/
def saved (symbols : Symbols) (context : Context) : TaskRegisters :=
  ![context.r 0, context.r 1, context.r 2, context.r 3, context.r 4, context.r 5, context.r 6,
    context.r 7, context.r 8, context.r 9, symbols.scratchProc, context.cpsr, context.pc,
    context.sp, context.lr, context.pc, context.cpsr]

/-- What `NextProcess` stores for a process that an IRQ interrupted. -/
theorem saveCode_scratch (symbols : Symbols) (machine : Machine) {context : Context}
    (sees : machine.cpu.context = some context) :
    (saveCode.foldl (fun machine instr => instr.effect symbols machine)
      (machine.withCpu machine.cpu.irq)).kernel.scratchProc = saved symbols context := by
  unfold Cpu.context at sees
  split at sees
  case isFalse => cases sees
  case isTrue inside =>
    obtain rfl := Option.some.inj sees
    have apart : svcMode ≠ irqMode := by decide
    simp only [saveCode, List.foldl_cons, List.foldl_nil, Instr.effect, Machine.stored,
      Machine.withCpu, Cpu.irq, Cpu.set, Cpu.get, mode_irqStatus, mode_withMode,
      Function.update_self, BitVec.add_sub_cancel]
    rw [show (0x13 : BitVec 5) = svcMode from rfl]
    funext slot
    fin_cases slot <;> simp [storedUpTo, saved, inside, apart]

/-! ## Loading -/

/-- The general registers have the first slots. -/
theorem general_le : 13 ≤ 17 := by
  decide

/-- What a process in supervisor mode continues with when registers are loaded. -/
def loads (slots : TaskRegisters) : Option Context :=
  if mode (slots 16) = svcMode then
    some {
      r := fun register => slots (register.castLE general_le)
      sp := slots 13
      lr := slots 14
      pc := aligned (slots 16) (slots 14)
      cpsr := slots 16 &&& statusMask }
  else none

/-- The mode is among the bits that an exception return loads. -/
theorem mode_and_mask (status : BitVec 32) : mode (status &&& statusMask) = mode status := by
  apply BitVec.eq_of_getLsbD_eq
  intro place small
  have bits : ∀ place < 5, statusMask.getLsbD place = true := by
    decide
  simp only [mode, BitVec.getLsbD_setWidth, BitVec.getLsbD_and]
  rw [bits place small, Bool.and_true]

/-- The last part of `NextProcess` loads the registers from `ScratchProc`. -/
theorem loadCode_cpu (symbols : Symbols) {machine : Machine}
    (inside : mode machine.cpu.cpsr = svcMode) :
    let loaded := loadCode.foldl (fun machine instr => instr.effect symbols machine) machine
    loaded.cpu = { machine.cpu with
        r := fun register => machine.kernel.scratchProc (register.castLE (by decide))
        sp := Function.update machine.cpu.sp svcMode (machine.kernel.scratchProc 13)
        lr := Function.update machine.cpu.lr svcMode (machine.kernel.scratchProc 14)
        spsr := Function.update machine.cpu.spsr svcMode (machine.kernel.scratchProc 16) } ∧
      loaded.kernel = machine.kernel := by
  simp only [loadCode, List.foldl_cons, List.foldl_nil, Instr.effect, Machine.withCpu, Cpu.set,
    Cpu.get, inside, Function.update_self, Function.update_idem, and_true]
  have whole : ∀ r, loadedUpTo 12 machine.kernel.scratchProc r =
      fun register => machine.kernel.scratchProc (register.castLE (by decide)) := by
    intro r
    funext register
    exact if_pos (Fin.le_last register)
  rw [whole]

/-- `movs pc, lr` continues with the registers that were loaded. -/
theorem movsPcLr_ok {symbols : Symbols} {before after : Machine} {result : Unit}
    (inside : mode before.cpu.cpsr = svcMode)
    (returned : movsPcLr (loadCode.foldl (fun machine instr => instr.effect symbols machine)
      before) = .ok result after) :
    after.kernel = before.kernel ∧ after.cpu.context = loads before.kernel.scratchProc := by
  obtain ⟨cpu, kernel⟩ := loadCode_cpu symbols inside
  rw [movsPcLr, bind_of_ok (get_ok.mpr ⟨rfl, rfl⟩)] at returned
  dsimp only at returned
  rcases ite_ok.mp returned with ⟨_, done⟩ | ⟨_, stopped⟩
  · obtain rfl := set_ok.mp done
    refine ⟨kernel, ?_⟩
    simp only [Machine.withCpu, cpu, Cpu.context, Cpu.get, loads, inside, Function.update_self,
      mode_and_mask]
    by_cases same : mode (before.kernel.scratchProc 16) = svcMode
    · rw [if_pos same, if_pos same, same, Function.update_self, Function.update_self]
    · rw [if_neg same, if_neg same]
  · exact (throw_ok.mp stopped).elim

/-! ## The whole switch -/

/-- A call returns as its C function, in the same mode. -/
theorem call_ok {function : Kernel (KernelState 32 TaskRegisters) Unit} {unknown : Unknown}
    {before after : Machine} {result : Unit}
    (returned : call function unknown before = .ok result after) :
    function before.kernel = .ok () after.kernel ∧
      mode after.cpu.cpsr = mode before.cpu.cpsr := by
  rw [call, bind_of_ok (get_ok.mpr ⟨rfl, rfl⟩)] at returned
  cases done : function before.kernel with
  | ok value kernel =>
    rw [done] at returned
    obtain rfl := set_ok.mp returned
    exact ⟨rfl, mode_withMode _ _⟩
  | error reason kernel =>
    rw [done] at returned
    exact absurd returned (by simp [throw_ok])

/-- A timer interrupt saves the process, selects one, and continues with its registers. -/
theorem timerInterrupt_ok {symbols : Symbols} {fuel : Nat} {afterSave afterNext : Unknown}
    {before after : Machine} {context : Context} {result : Unit}
    (sees : before.cpu.context = some context)
    (returned : timerInterrupt symbols fuel afterSave afterNext before = .ok result after) :
    ∃ middle, commitProcessSave { before.kernel with scratchProc := saved symbols context } =
        .ok () middle ∧
      commitNextProcess fuel middle = .ok () after.kernel ∧
      after.cpu.context = loads after.kernel.scratchProc := by
  obtain ⟨_, _, irq, returned⟩ := bind_ok.mp returned
  obtain rfl := modify_ok.mp irq
  obtain ⟨_, first, saving, returned⟩ := bind_ok.mp returned
  obtain ⟨_, second, stored, returned⟩ := bind_ok.mp returned
  obtain ⟨_, third, advanced, returned⟩ := bind_ok.mp returned
  obtain ⟨_, fourth, loading, returned⟩ := bind_ok.mp returned
  obtain ⟨storedKernel, storedMode⟩ := call_ok stored
  obtain ⟨advancedKernel, advancedMode⟩ := call_ok advanced
  have kernel : first.kernel = { before.kernel with scratchProc := saved symbols context } := by
    rw [code_ok saving, code_kernel, saveCode_scratch symbols before sees]
    rfl
  have inside : mode third.cpu.cpsr = svcMode := by
    rw [advancedMode, storedMode, code_ok saving]
    exact mode_withMode _ _
  rw [code_ok loading] at returned
  obtain ⟨last, continues⟩ := movsPcLr_ok inside returned
  rw [last]
  exact ⟨second.kernel, kernel ▸ storedKernel, advancedKernel, continues⟩

end Unarddeg.Arm32
