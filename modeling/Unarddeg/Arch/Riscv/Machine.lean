import Unarddeg.Kernel.Sched.Core

/-!
# The RISC-V processor

The part of a 64-bit hart that `riscv/sched/trap.s` and `riscv/sched/switch.s` use, one function
per instruction. Every memory operand of the code is a doubleword of `ScratchProc` behind a base
register, so `ScratchProc` is the only memory; the tasks and nodes belong to the kernel state.

A called C function leaves unknown values in the registers. It writes no control register.
-/

namespace Unarddeg.Riscv

/-- `TaskRegisters`: pc, x1 to x31, f0 to f31, mstatus, fcsr and satp. -/
abbrev TaskRegisters := Fin 67 → BitVec 64

/-- There is a first register. -/
instance hasRegister : NeZero 32 := ⟨by decide⟩

/-- There is a first slot. -/
instance hasSlot : NeZero 67 := ⟨by decide⟩

/-- The registers of a hart. -/
structure Cpu where
  /-- The program counter of the process. -/
  pc : BitVec 64
  /-- The integer registers; `x0` is zero whatever stands here. -/
  x : Fin 32 → BitVec 64
  /-- The floating-point registers. -/
  f : Fin 32 → BitVec 64
  /-- The floating-point control register. -/
  fcsr : BitVec 8
  /-- The machine status. -/
  mstatus : BitVec 64
  /-- The program counter to return to. -/
  mepc : BitVec 64
  /-- The cause of the trap. -/
  mcause : BitVec 64
  /-- The scratch register of the machine. -/
  mscratch : BitVec 64
  /-- The address translation register. -/
  satp : BitVec 64
  /-- The privilege; 3 is machine mode. -/
  privilege : BitVec 2

/-- A hart and the kernel it runs. -/
structure Machine where
  /-- The registers. -/
  cpu : Cpu
  /-- The kernel, `ScratchProc` among it. -/
  kernel : KernelState 64 TaskRegisters

/-- The addresses that the code takes with `la`. -/
structure Symbols where
  /-- `ScratchProc`. -/
  scratchProc : BitVec 64
  /-- `InterruptStack`. -/
  interruptStack : BitVec 64

/-- What a C function leaves in the registers that it may change. -/
structure Unknown where
  /-- The integer registers. -/
  x : Fin 32 → BitVec 64
  /-- The floating-point registers. -/
  f : Fin 32 → BitVec 64
  /-- The floating-point control register. -/
  fcsr : BitVec 8

/-- `sp`. -/
def sp : Fin 32 := 2
/-- `t0`. -/
def t0 : Fin 32 := 5
/-- `t1`. -/
def t1 : Fin 32 := 6

/-- The value of an integer register. -/
def Cpu.get (cpu : Cpu) (register : Fin 32) : BitVec 64 :=
  if register = 0 then 0 else cpu.x register

/-- The registers with another value in an integer register. -/
def Cpu.set (cpu : Cpu) (register : Fin 32) (value : BitVec 64) : Cpu :=
  if register = 0 then cpu else { cpu with x := Function.update cpu.x register value }

section Set

variable (cpu : Cpu) (register other : Fin 32) (value : BitVec 64)

/-- A register that was set is read back. -/
theorem Cpu.get_set (proper : register ≠ 0) : (cpu.set register value).get other =
    if other = register then value else cpu.get other := by
  simp only [Cpu.get, Cpu.set, if_neg proper, Function.update_apply]
  split_ifs with zero same same <;> simp_all

/-- Setting an integer register keeps the floating-point registers. -/
@[simp] theorem Cpu.set_f : (cpu.set register value).f = cpu.f := by
  unfold Cpu.set; split <;> rfl

/-- Setting an integer register keeps the floating-point control register. -/
@[simp] theorem Cpu.set_fcsr : (cpu.set register value).fcsr = cpu.fcsr := by
  unfold Cpu.set; split <;> rfl

/-- Setting an integer register keeps the machine status. -/
@[simp] theorem Cpu.set_mstatus : (cpu.set register value).mstatus = cpu.mstatus := by
  unfold Cpu.set; split <;> rfl

/-- Setting an integer register keeps the program counter to return to. -/
@[simp] theorem Cpu.set_mepc : (cpu.set register value).mepc = cpu.mepc := by
  unfold Cpu.set; split <;> rfl

/-- Setting an integer register keeps the cause. -/
@[simp] theorem Cpu.set_mcause : (cpu.set register value).mcause = cpu.mcause := by
  unfold Cpu.set; split <;> rfl

/-- Setting an integer register keeps the scratch register. -/
@[simp] theorem Cpu.set_mscratch : (cpu.set register value).mscratch = cpu.mscratch := by
  unfold Cpu.set; split <;> rfl

/-- Setting an integer register keeps the address translation. -/
@[simp] theorem Cpu.set_satp : (cpu.set register value).satp = cpu.satp := by
  unfold Cpu.set; split <;> rfl

end Set

/-- The control registers that the code names. -/
inductive Csr
  | mstatus
  | mepc
  | mcause
  | mscratch
  | satp
  deriving DecidableEq, Repr

/-- The value of a control register. -/
def Cpu.getCsr (cpu : Cpu) : Csr → BitVec 64
  | .mstatus => cpu.mstatus
  | .mepc => cpu.mepc
  | .mcause => cpu.mcause
  | .mscratch => cpu.mscratch
  | .satp => cpu.satp

/-- The registers with another value in a control register. The lowest bit of `mepc` is always
zero; the other registers are written with values read from them only. -/
def Cpu.setCsr (cpu : Cpu) (value : BitVec 64) : Csr → Cpu
  | .mstatus => { cpu with mstatus := value }
  | .mepc => { cpu with mepc := value &&& ~~~1 }
  | .mcause => { cpu with mcause := value }
  | .mscratch => { cpu with mscratch := value }
  | .satp => { cpu with satp := value }

/-- A change of the registers. -/
def onCpu (change : Cpu → Cpu) : Kernel Machine Unit :=
  modify fun machine => { machine with cpu := change machine.cpu }

/-- `la` and `li`. -/
def li (register : Fin 32) (value : BitVec 64) : Kernel Machine Unit :=
  onCpu fun cpu => cpu.set register value

/-- `csrr`. -/
def csrr (register : Fin 32) (csr : Csr) : Kernel Machine Unit :=
  onCpu fun cpu => cpu.set register (cpu.getCsr csr)

/-- `csrw`. -/
def csrw (csr : Csr) (register : Fin 32) : Kernel Machine Unit :=
  onCpu fun cpu => cpu.setCsr (cpu.get register) csr

/-- `csrs`. -/
def csrs (csr : Csr) (register : Fin 32) : Kernel Machine Unit :=
  onCpu fun cpu => cpu.setCsr (cpu.getCsr csr ||| cpu.get register) csr

/-- `csrrci zero`. -/
def csrci (csr : Csr) (mask : BitVec 64) : Kernel Machine Unit :=
  onCpu fun cpu => cpu.setCsr (cpu.getCsr csr &&& ~~~mask) csr

/-- The doubleword of `ScratchProc` behind a base register. -/
def operand (symbols : Symbols) (base : Fin 32) : Kernel Machine Unit := do
  let machine ← get
  if machine.cpu.get base = symbols.scratchProc then pure () else throw .nullAccess

/-- A doubleword of `ScratchProc`. -/
def loadSlot (slot : Fin 67) : Kernel Machine (BitVec 64) := do
  let machine ← get
  pure (machine.kernel.scratchProc slot)

/-- Write a doubleword of `ScratchProc`. -/
def storeSlot (slot : Fin 67) (value : BitVec 64) : Kernel Machine Unit :=
  modify fun machine => { machine with
    kernel := { machine.kernel with
      scratchProc := Function.update machine.kernel.scratchProc slot value } }

/-- `sd register, slot*8(base)`. -/
def sd (symbols : Symbols) (register : Fin 32) (slot : Fin 67) (base : Fin 32) :
    Kernel Machine Unit := do
  operand symbols base
  let machine ← get
  storeSlot slot (machine.cpu.get register)

/-- `ld register, slot*8(base)`. -/
def ld (symbols : Symbols) (register : Fin 32) (slot : Fin 67) (base : Fin 32) :
    Kernel Machine Unit := do
  operand symbols base
  let value ← loadSlot slot
  onCpu fun cpu => cpu.set register value

/-- The floating-point unit is on, as `FS` of `mstatus` says. -/
def Cpu.fpOn (cpu : Cpu) : Bool := cpu.mstatus &&& 0x6000 != 0

/-- A floating-point instruction: with the unit off it traps, and `TrapVector` hangs in all traps
but interrupts. -/
def floating : Kernel Machine Unit := do
  let machine ← get
  if machine.cpu.fpOn then pure () else throw .hang

/-- `fsd register, slot*8(base)`. -/
def fsd (symbols : Symbols) (register : Fin 32) (slot : Fin 67) (base : Fin 32) :
    Kernel Machine Unit := do
  floating
  operand symbols base
  let machine ← get
  storeSlot slot (machine.cpu.f register)

/-- `fld register, slot*8(base)`. -/
def fld (symbols : Symbols) (register : Fin 32) (slot : Fin 67) (base : Fin 32) :
    Kernel Machine Unit := do
  floating
  operand symbols base
  let value ← loadSlot slot
  onCpu fun cpu => { cpu with f := Function.update cpu.f register value }

/-- `frcsr`. -/
def frcsr (register : Fin 32) : Kernel Machine Unit := do
  floating
  onCpu fun cpu => cpu.set register (cpu.fcsr.setWidth 64)

/-- `fscsr`. Only the lowest eight bits of the register exist. -/
def fscsr (register : Fin 32) : Kernel Machine Unit := do
  floating
  onCpu fun cpu => { cpu with fcsr := (cpu.get register).setWidth 8 }

/-- `call` of a C function. -/
def call (function : Kernel (KernelState 64 TaskRegisters) Unit) (unknown : Unknown) :
    Kernel Machine Unit := do
  let machine ← get
  match function machine.kernel with
  | .ok _ kernel =>
    set ({ machine with
      cpu := { machine.cpu with x := unknown.x, f := unknown.f, fcsr := unknown.fcsr }
      kernel := kernel } : Machine)
  | .error reason _ => throw reason

/-- `mstatus` after the hart took a trap: `MIE` moves to `MPIE`, the privilege to `MPP`. -/
def trapStatus (status : BitVec 64) (privilege : BitVec 2) : BitVec 64 :=
  (status &&& ~~~0x1888#64) ||| ((status &&& 0x8#64) <<< 4) ||| (privilege.setWidth 64 <<< 11)

/-- `mstatus` after `mret`: `MPIE` moves to `MIE` and is set, `MPP` is user mode again, and `MPRV`
is cleared when the hart leaves machine mode. -/
def returnStatus (status : BitVec 64) : BitVec 64 :=
  let left := (status &&& ~~~0x1888#64) ||| ((status &&& 0x80#64) >>> 4) ||| 0x80
  if status.extractLsb' 11 2 = 3 then left else left &&& ~~~0x20000#64

/-- The registers after the timer interrupted a process. -/
def Cpu.interrupted (cpu : Cpu) : Cpu :=
  { cpu with
    mepc := cpu.pc
    mcause := 0x8000000000000007
    mstatus := trapStatus cpu.mstatus cpu.privilege
    privilege := 3 }

/-- `mret`. -/
def mret : Kernel Machine Unit :=
  onCpu fun cpu => { cpu with
    pc := cpu.mepc
    privilege := cpu.mstatus.extractLsb' 11 2
    mstatus := returnStatus cpu.mstatus }

end Unarddeg.Riscv
