import Unarddeg.Kernel.Sched.Core
import Unarddeg.Library.Memory

/-!
# The ia32 processor

The part of a 32-bit x86 processor in protected mode that `ia32/sched/trap.s` and
`ia32/sched/switch.s` use. The segments are those of `ia32/gdt.c`: all of them are flat, so a
selector only decides whether an access is allowed. `ScratchProc` belongs to the kernel state; the
stacks lie in a memory of their own. No instruction of the code reads a status flag before `iret`
loads them all, so arithmetic leaves them out.

An instruction that raises an exception stops here: the code has no handler of its own for it.
-/

namespace Unarddeg.Ia32

open Library

/-- `TaskRegisters`: EAX, ECX, EDX, EBX, ESP, EBP, ESI, EDI, EIP, CS, DS, ES, SS, FS, GS and
EFLAGS. -/
abbrev TaskRegisters := Fin 16 → BitVec 32

/-- There is a first slot. -/
instance hasSlot : NeZero 16 := ⟨by decide⟩

/-- The general registers. -/
inductive Reg
  | eax
  | ecx
  | edx
  | ebx
  | esp
  | ebp
  | esi
  | edi
  deriving DecidableEq, Repr

/-- The segment registers, without CS. -/
inductive Seg
  | ds
  | es
  | ss
  | fs
  | gs
  deriving DecidableEq, Repr

/-- The registers of the processor. -/
@[ext]
structure Cpu where
  /-- The general registers. -/
  reg : Reg → BitVec 32
  /-- The instruction pointer of the process. -/
  eip : BitVec 32
  /-- The code segment; its lowest two bits are the privilege level. -/
  cs : BitVec 16
  /-- The other segment registers. -/
  seg : Seg → BitVec 16
  /-- The flags. -/
  eflags : BitVec 32

/-- A processor, the stacks, and the kernel it runs. -/
structure Machine where
  /-- The registers. -/
  cpu : Cpu
  /-- The stacks. -/
  memory : Memory 32
  /-- The kernel, `ScratchProc` among it. -/
  kernel : KernelState 32 TaskRegisters

/-- The addresses that the code names. -/
structure Symbols where
  /-- `ScratchProc`. -/
  scratchProc : BitVec 32
  /-- `InterruptStackTop`. -/
  interruptStackTop : BitVec 32

/-- What a C function leaves in the registers and stacks that it may change. -/
structure Unknown where
  /-- The general registers; a call returns with its stack pointer. -/
  reg : Reg → BitVec 32
  /-- The stacks. -/
  memory : Memory 32

/-! ## Segments and flags -/

/-- The privilege level in a selector. -/
def level (selector : BitVec 16) : BitVec 2 := selector.setWidth 2

/-- A selector of the data segments, as which stores are allowed: entries 2 and 4 of the table. -/
def isWritable (selector : BitVec 16) : Bool :=
  selector.extractLsb' 2 14 = 4 || selector.extractLsb' 2 14 = 8

/-- A selector that the kernel may load into a segment register: the null selectors, entries 1 and
2 at level 0, entries 3 and 4 at any level. SS only takes entry 2. -/
def isLoadable (segment : Seg) (selector : BitVec 16) : Bool :=
  match segment with
  | .ss => selector = 0x10
  | _ => selector.extractLsb' 2 14 = 0 || selector = 0x08 || selector = 0x10 ||
      selector.extractLsb' 2 14 = 6 || selector.extractLsb' 2 14 = 8

/-- A selector after the return to level 3: the entries of level 0 become null there. -/
def forUser (selector : BitVec 16) : BitVec 16 :=
  if selector.extractLsb' 2 14 = 2 ∨ selector.extractLsb' 2 14 = 4 then 0 else selector

/-- The flags that `iret` loads at level 0; the one of virtual 8086 mode is apart. -/
def flagsMask : BitVec 32 := 0x3D7FD5

/-- The flag that is always set. -/
def fixedFlag : BitVec 32 := 0x2

/-- The interrupt flag. -/
def interruptFlag : BitVec 32 := 0x200

/-- The flag of a nested task. -/
def nestedFlag : BitVec 32 := 0x4000

/-- The flag of virtual 8086 mode. -/
def virtualFlag : BitVec 32 := 0x20000

/-- The flags that the processor has from those that are loaded. -/
def loadedFlags (flags : BitVec 32) : BitVec 32 := (flags &&& flagsMask) ||| fixedFlag

/-- The flags in an interrupt gate: TF, IF, NT, RF and VM are cleared. -/
def gateFlags (flags : BitVec 32) : BitVec 32 := flags &&& ~~~0x34300

/-! ## Stacks -/

/-- The registers with another value in a general register. -/
def Cpu.set (cpu : Cpu) (register : Reg) (value : BitVec 32) : Cpu :=
  { cpu with reg := Function.update cpu.reg register value }

/-- The registers with another selector in a segment register. -/
def Cpu.setSeg (cpu : Cpu) (segment : Seg) (selector : BitVec 16) : Cpu :=
  { cpu with seg := Function.update cpu.seg segment selector }

/-- The machine after a word was pushed. -/
def Machine.pushed (machine : Machine) (value : BitVec 32) : Machine :=
  let esp := machine.cpu.reg .esp - 4
  { machine with cpu := machine.cpu.set .esp esp, memory := storeAt machine.memory esp value }

/-- The word on the top of the stack. -/
def Machine.top (machine : Machine) : BitVec 32 := loadAt 32 machine.memory (machine.cpu.reg .esp)

/-- The machine after a word was popped. -/
def Machine.popped (machine : Machine) : Machine :=
  { machine with cpu := machine.cpu.set .esp (machine.cpu.reg .esp + 4) }

/-- The machine with another word of `ScratchProc`. -/
def Machine.stored (machine : Machine) (slot : Fin 16) (value : BitVec 32) : Machine :=
  { machine with kernel := { machine.kernel with
      scratchProc := Function.update machine.kernel.scratchProc slot value } }

/-! ## Instructions -/

/-- The instructions of the code. `slot(%edi)` is the word of `ScratchProc` behind EDI. -/
inductive Instr
  /-- `cli`. -/
  | cli
  /-- `sti`. -/
  | sti
  /-- `movl %register, slot*4+ScratchProc`. -/
  | storeReg (register : Reg) (slot : Fin 16)
  /-- `movl %register, slot*4(%edi)`. -/
  | storeBased (register : Reg) (slot : Fin 16)
  /-- `movl slot*4(%edi), %register`. -/
  | loadBased (slot : Fin 16) (register : Reg)
  /-- `popl slot*4(%edi)`. -/
  | popBased (slot : Fin 16)
  /-- `pushl slot*4+ScratchProc`. -/
  | pushSlot (slot : Fin 16)
  /-- `orl $value, slot*4(%edi)`. -/
  | orBased (value : BitVec 32) (slot : Fin 16)
  /-- `movl $ScratchProc, %edi`. -/
  | baseScratch
  /-- `movl $(InterruptStackTop-16), %esp`. -/
  | interruptStack
  /-- `xorl %register, %register`. -/
  | clear (register : Reg)
  /-- `movw $value, %register`. -/
  | moveWord (value : BitVec 16) (register : Reg)
  /-- `movw %segment, %register`. -/
  | fromSeg (segment : Seg) (register : Reg)
  /-- `movw %register, %segment`. -/
  | toSeg (register : Reg) (segment : Seg)

/-- A register with another low word. -/
def withLow (value : BitVec 32) (low : BitVec 16) : BitVec 32 :=
  value.extractLsb' 16 16 ++ low

/-- The instruction is allowed: a write goes through a writable DS, and so do the loads, which
follow one; EDI points to `ScratchProc`; a segment register takes the selector. -/
def Instr.allowed (symbols : Symbols) (machine : Machine) : Instr → Bool
  | .storeReg _ _ | .pushSlot _ => isWritable (machine.cpu.seg .ds)
  | .storeBased _ _ | .loadBased _ _ | .popBased _ | .orBased _ _ =>
    isWritable (machine.cpu.seg .ds) && machine.cpu.reg .edi = symbols.scratchProc
  | .toSeg register segment => isLoadable segment ((machine.cpu.reg register).setWidth 16)
  | _ => true

/-- What an instruction does that is allowed. -/
def Instr.effect (symbols : Symbols) (machine : Machine) : Instr → Machine
  | .cli => { machine with cpu := { machine.cpu with
      eflags := machine.cpu.eflags &&& ~~~interruptFlag } }
  | .sti => { machine with cpu := { machine.cpu with
      eflags := machine.cpu.eflags ||| interruptFlag } }
  | .storeReg register slot | .storeBased register slot =>
    machine.stored slot (machine.cpu.reg register)
  | .loadBased slot register =>
    { machine with cpu := machine.cpu.set register (machine.kernel.scratchProc slot) }
  | .popBased slot => machine.popped.stored slot machine.top
  | .pushSlot slot => machine.pushed (machine.kernel.scratchProc slot)
  | .orBased value slot => machine.stored slot (machine.kernel.scratchProc slot ||| value)
  | .baseScratch => { machine with cpu := machine.cpu.set .edi symbols.scratchProc }
  | .interruptStack =>
    { machine with cpu := machine.cpu.set .esp (symbols.interruptStackTop - 16) }
  | .clear register => { machine with cpu := machine.cpu.set register 0 }
  | .moveWord value register =>
    { machine with cpu := machine.cpu.set register (withLow (machine.cpu.reg register) value) }
  | .fromSeg segment register =>
    let value := withLow (machine.cpu.reg register) (machine.cpu.seg segment)
    { machine with cpu := machine.cpu.set register value }
  | .toSeg register segment =>
    { machine with cpu := machine.cpu.setSeg segment ((machine.cpu.reg register).setWidth 16) }

/-- An instruction. -/
def Instr.run (symbols : Symbols) (instr : Instr) : Kernel Machine Unit := do
  let machine ← get
  if instr.allowed symbols machine then set (instr.effect symbols machine) else throw .fault

/-- `call` of a C function. The return address lies on the interrupt stack. -/
def call (function : Kernel (KernelState 32 TaskRegisters) Unit) (unknown : Unknown) :
    Kernel Machine Unit := do
  let machine ← get
  match function machine.kernel with
  | .ok _ kernel =>
    set ({
      cpu := { machine.cpu with
        reg := Function.update unknown.reg .esp (machine.cpu.reg .esp) }
      memory := unknown.memory
      kernel := kernel } : Machine)
  | .error reason _ => throw reason

/-- The stack on which an interrupt pushes its frame: that of the process at level 0; outside it the
one that the task state segment names, on which the stack pointer of the process is pushed first. -/
def Machine.frameStack (machine : Machine) : Machine :=
  if level machine.cpu.cs = 0 then machine
  else
    let switched : Machine := { machine with
      cpu := (machine.cpu.set .esp 0x10000).setSeg .ss 0x10 }
    (switched.pushed ((machine.cpu.seg .ss).setWidth 32)).pushed (machine.cpu.reg .esp)

/-- The machine after an interrupt entered its gate. -/
def Machine.gate (machine : Machine) : Machine :=
  let cpu := machine.cpu
  let framed :=
    ((machine.frameStack.pushed cpu.eflags).pushed (cpu.cs.setWidth 32)).pushed cpu.eip
  { framed with cpu := { framed.cpu with cs := 0x08, eflags := gateFlags cpu.eflags } }

/-- `iret` at level 0: within the level, or to level 3 with another stack. A return to virtual 8086
mode or from a nested task is no part of this model. -/
def iret : Kernel Machine Unit := do
  let machine ← get
  let eip := machine.top
  let cs := machine.popped.top
  let flags := machine.popped.popped.top
  let rest := machine.popped.popped.popped
  let returned : Cpu :=
    { rest.cpu with eip := eip, cs := cs.setWidth 16, eflags := loadedFlags flags }
  if machine.cpu.eflags &&& nestedFlag ≠ 0 ∨ flags &&& virtualFlag ≠ 0 then throw .fault
  else if cs.setWidth 16 = (0x08 : BitVec 16) then set { rest with cpu := returned }
  else if cs.setWidth 16 = (0x1B : BitVec 16) ∧
      rest.popped.top.setWidth 16 = (0x23 : BitVec 16) then
    set { rest with cpu := { returned with
      reg := Function.update returned.reg .esp rest.top
      seg := fun segment =>
        if segment = Seg.ss then 0x23 else forUser (returned.seg segment) } }
  else throw .fault

end Unarddeg.Ia32
