import Unarddeg.Kernel.Sched.Core

/-!
# The ARMv7 processor

The part of a 32-bit ARM processor that `arm32/sched/trap.s` and `arm32/sched/switch.s` use. Every
memory operand of the code is a word of `ScratchProc`, which belongs to the kernel state. SP, LR and
SPSR are banked: each mode has its own. No instruction of the code reads a condition flag, and the
Jazelle state is no part of this model.
-/

namespace Unarddeg.Arm32

/-- `TaskRegisters`: r0 to r15 and the CPSR. -/
abbrev TaskRegisters := Fin 17 → BitVec 32

/-- There is a first register. -/
instance hasRegister : NeZero 13 := ⟨by decide⟩

/-- There is a first slot. -/
instance hasSlot : NeZero 17 := ⟨by decide⟩

/-- The registers of the processor. -/
structure Cpu where
  /-- r0 to r12. -/
  r : Fin 13 → BitVec 32
  /-- The stack pointer of each mode. -/
  sp : BitVec 5 → BitVec 32
  /-- The link register of each mode. -/
  lr : BitVec 5 → BitVec 32
  /-- The status that each mode saved. -/
  spsr : BitVec 5 → BitVec 32
  /-- The program counter of the process. -/
  pc : BitVec 32
  /-- The status. -/
  cpsr : BitVec 32

/-- A processor and the kernel it runs. -/
structure Machine where
  /-- The registers. -/
  cpu : Cpu
  /-- The kernel, `ScratchProc` among it. -/
  kernel : KernelState 32 TaskRegisters

/-- The addresses that the code loads from its literals. -/
structure Symbols where
  /-- `ScratchProc`. -/
  scratchProc : BitVec 32
  /-- `InterruptStack`. -/
  interruptStack : BitVec 32

/-- What a C function leaves in the registers that it may change. -/
structure Unknown where
  /-- r0 to r12. -/
  r : Fin 13 → BitVec 32
  /-- The link register. -/
  lr : BitVec 32
  /-- The status; a call returns in its mode. -/
  cpsr : BitVec 32

/-! ## The status -/

/-- IRQ mode. -/
def irqMode : BitVec 5 := 0x12

/-- Supervisor mode. -/
def svcMode : BitVec 5 := 0x13

/-- The mode in a status. -/
def mode (status : BitVec 32) : BitVec 5 := status.setWidth 5

/-- A status with another mode. -/
def withMode (status : BitVec 32) (mode : BitVec 5) : BitVec 32 := status.extractLsb' 5 27 ++ mode

/-- The modes of the processor: user, FIQ, IRQ, supervisor, monitor, abort, hypervisor, undefined
and system mode. -/
def isMode (mode : BitVec 5) : Bool :=
  mode = 0x10 || mode = 0x11 || mode = irqMode || mode = svcMode || mode = 0x16 || mode = 0x17 ||
    mode = 0x1A || mode = 0x1B || mode = 0x1F

/-- The bits of a status that an exception return loads; the others are reserved. -/
def statusMask : BitVec 32 := 0xFF0FFFFF

/-- The status in an IRQ handler: IRQ mode, the A and I bits set, the execution state cleared. -/
def irqStatus (status : BitVec 32) : BitVec 32 := (status &&& ~~~0x0700FE3F) ||| 0x192

/-- The address at which the processor continues: instructions are aligned to their size, which the
T bit of the status tells. -/
def aligned (status address : BitVec 32) : BitVec 32 :=
  if status.getLsbD 5 then address &&& ~~~1 else address &&& ~~~3

/-! ## Registers -/

/-- The registers that the code names. -/
inductive Reg
  | r (index : Fin 13)
  | sp
  | lr
  deriving DecidableEq, Repr

/-- The value of a register in the present mode. -/
def Cpu.get (cpu : Cpu) : Reg → BitVec 32
  | .r index => cpu.r index
  | .sp => cpu.sp (mode cpu.cpsr)
  | .lr => cpu.lr (mode cpu.cpsr)

/-- The registers with another value in one of the present mode. -/
def Cpu.set (cpu : Cpu) (register : Reg) (value : BitVec 32) : Cpu :=
  match register with
  | .r index => { cpu with r := Function.update cpu.r index value }
  | .sp => { cpu with sp := Function.update cpu.sp (mode cpu.cpsr) value }
  | .lr => { cpu with lr := Function.update cpu.lr (mode cpu.cpsr) value }

/-! ## Instructions -/

/-- The instructions of the code. Memory operands lie behind r10. -/
inductive Instr
  /-- `sub register, register, #value`. -/
  | sub (register : Reg) (value : BitVec 32)
  /-- `mov target, source`. -/
  | mov (target source : Reg)
  /-- `mrs register, spsr`. -/
  | mrs (register : Reg)
  /-- `msr spsr_cxsf, register`. -/
  | msr (register : Reg)
  /-- `cps #mode`. -/
  | cps (mode : BitVec 5)
  /-- `ldr register, =ScratchProc`. -/
  | ldrScratch (register : Reg)
  /-- `ldr register, =InterruptStack + offset`. -/
  | ldrStack (register : Reg) (offset : BitVec 32)
  /-- `stmia r10, {r0-last}`. -/
  | stmia (last : Fin 13)
  /-- `ldmia r10, {r0-last}`. -/
  | ldmia (last : Fin 13)
  /-- `str register, [r10, #slot*4]`. -/
  | str (register : Reg) (slot : Fin 17)
  /-- `ldr register, [r10, #slot*4]`. -/
  | ldr (register : Reg) (slot : Fin 17)

/-- The instruction is executed as the code means it: r10 points to `ScratchProc` where memory is
accessed. -/
def Instr.allowed (symbols : Symbols) (machine : Machine) : Instr → Bool
  | .stmia _ | .ldmia _ | .str _ _ | .ldr _ _ => machine.cpu.r 10 = symbols.scratchProc
  | _ => true

/-- The machine with other registers. -/
def Machine.withCpu (machine : Machine) (cpu : Cpu) : Machine := { machine with cpu }

/-- The machine with other words in `ScratchProc`. -/
def Machine.stored (machine : Machine) (scratchProc : TaskRegisters) : Machine :=
  { machine with kernel := { machine.kernel with scratchProc } }

/-- The words of `ScratchProc` after the registers up to the last one were stored. -/
def storedUpTo (last : Fin 13) (r : Fin 13 → BitVec 32) (slots : TaskRegisters) : TaskRegisters :=
  fun slot => if small : slot.val < 13 then
      if slot.val ≤ last.val then r ⟨slot.val, small⟩ else slots slot
    else slots slot

/-- The registers after those up to the last one were loaded. -/
def loadedUpTo (last : Fin 13) (slots : TaskRegisters) (r : Fin 13 → BitVec 32) :
    Fin 13 → BitVec 32 :=
  fun register => if register ≤ last then slots (register.castLE (by decide)) else r register

/-- What an instruction does that is allowed. -/
def Instr.effect (symbols : Symbols) (machine : Machine) : Instr → Machine
  | .sub register value =>
    machine.withCpu (machine.cpu.set register (machine.cpu.get register - value))
  | .mov target source => machine.withCpu (machine.cpu.set target (machine.cpu.get source))
  | .mrs register =>
    machine.withCpu (machine.cpu.set register (machine.cpu.spsr (mode machine.cpu.cpsr)))
  | .msr register =>
    machine.withCpu { machine.cpu with
      spsr := Function.update machine.cpu.spsr (mode machine.cpu.cpsr) (machine.cpu.get register) }
  | .cps other => machine.withCpu { machine.cpu with cpsr := withMode machine.cpu.cpsr other }
  | .ldrScratch register => machine.withCpu (machine.cpu.set register symbols.scratchProc)
  | .ldrStack register offset =>
    machine.withCpu (machine.cpu.set register (symbols.interruptStack + offset))
  | .stmia last => machine.stored (storedUpTo last machine.cpu.r machine.kernel.scratchProc)
  | .ldmia last => machine.withCpu { machine.cpu with
      r := loadedUpTo last machine.kernel.scratchProc machine.cpu.r }
  | .str register slot =>
    machine.stored (Function.update machine.kernel.scratchProc slot (machine.cpu.get register))
  | .ldr register slot =>
    machine.withCpu (machine.cpu.set register (machine.kernel.scratchProc slot))

/-- An instruction. -/
def Instr.run (symbols : Symbols) (instr : Instr) : Kernel Machine Unit := do
  let machine ← get
  if instr.allowed symbols machine then set (instr.effect symbols machine) else throw .fault

/-- `bl` to a C function. -/
def call (function : Kernel (KernelState 32 TaskRegisters) Unit) (unknown : Unknown) :
    Kernel Machine Unit := do
  let machine ← get
  match function machine.kernel with
  | .ok _ kernel =>
    let present := mode machine.cpu.cpsr
    set ({
      cpu := { machine.cpu with
        r := unknown.r
        lr := Function.update machine.cpu.lr present unknown.lr
        cpsr := withMode unknown.cpsr present }
      kernel := kernel } : Machine)
  | .error reason _ => throw reason

/-- The registers after an IRQ interrupted a process. The link register of the handler is 4 above
the instruction that would have been next. -/
def Cpu.irq (cpu : Cpu) : Cpu :=
  { cpu with
    lr := Function.update cpu.lr irqMode (cpu.pc + 4)
    spsr := Function.update cpu.spsr irqMode cpu.cpsr
    cpsr := irqStatus cpu.cpsr }

/-- `movs pc, lr`: return from an exception. A status without a mode is not one to return to. -/
def movsPcLr : Kernel Machine Unit := do
  let machine ← get
  let status := machine.cpu.spsr (mode machine.cpu.cpsr)
  if isMode (mode status) then
    set (machine.withCpu { machine.cpu with
      pc := aligned status (machine.cpu.get .lr)
      cpsr := status &&& statusMask })
  else throw .fault

end Unarddeg.Arm32
