import Unarddeg.Arch.Ia32.Machine
import Unarddeg.Kernel.Sched.Switch

/-!
# The ia32 switch

`IdtTimer` of `ia32/sched/trap.s` and `NextProcess` of `ia32/sched/switch.s`, instruction by
instruction. A process at level 0 is interrupted on its own stack, and all that `NextProcess` stores
for it is what it continues with. For a process at level 3 the processor pushes its stack pointer
as well, which `NextProcess` leaves on the stack of the kernel, so nothing is said about what such
a process continues with (`Cpu.kernelView`).
-/

namespace Unarddeg.Ia32

open Library

/-- `NextProcess` up to its calls. -/
def saveCode : List Instr :=
  [.cli,
    .storeReg .eax 0, .storeReg .ecx 1, .storeReg .edx 2, .storeReg .ebx 3, .storeReg .ebp 5,
    .storeReg .esi 6, .storeReg .edi 7, .baseScratch, .popBased 8, .popBased 9, .popBased 15,
    .storeReg .esp 4,
    -- The segment registers.
    .fromSeg .ds .eax, .fromSeg .es .ebx, .fromSeg .ss .ecx, .fromSeg .fs .edx, .fromSeg .gs .esi,
    .storeBased .eax 10, .storeBased .ebx 11, .storeBased .ecx 12, .storeBased .edx 13,
    .storeBased .esi 14,
    .moveWord 0x10 .eax, .toSeg .eax .ds, .toSeg .eax .es, .toSeg .eax .ss, .toSeg .eax .fs,
    .toSeg .eax .gs, .interruptStack, .clear .ebp]

/-- `NextProcess` from its calls to the last register. -/
def loadCode : List Instr :=
  [.baseScratch,
    .loadBased 10 .eax, .loadBased 11 .ebx, .loadBased 12 .ecx, .loadBased 13 .edx,
    .loadBased 14 .esi, .toSeg .eax .ds, .toSeg .ebx .es, .toSeg .ecx .ss, .toSeg .edx .fs,
    .toSeg .esi .gs,
    .orBased 0x0202 15,
    -- The general registers, EDI last.
    .loadBased 0 .eax, .loadBased 1 .ecx, .loadBased 2 .edx, .loadBased 3 .ebx, .loadBased 4 .esp,
    .loadBased 5 .ebp, .loadBased 6 .esi, .loadBased 7 .edi]

/-- The frame that `NextProcess` pushes for `iret`. -/
def frameCode : List Instr := [.pushSlot 15, .pushSlot 9, .pushSlot 8, .sti]

/-- `NextProcess`. -/
def nextProcess (symbols : Symbols) (fuel : Nat) (afterSave afterNext : Unknown) :
    Kernel Machine Unit := do
  saveCode.forM (Instr.run symbols)
  call commitProcessSave afterSave
  call (commitNextProcess fuel) afterNext
  loadCode.forM (Instr.run symbols)
  frameCode.forM (Instr.run symbols)
  iret

/-- The timer interrupts the process: `IdtTimer`. -/
def timerInterrupt (symbols : Symbols) (fuel : Nat) (afterSave afterNext : Unknown) :
    Kernel Machine Unit := do
  modify Machine.gate
  Instr.run symbols .cli
  nextProcess symbols fuel afterSave afterNext

/-! ## Stacks -/

section Stacks

variable {machine : Machine} {memory : Memory 32} {address value first second third : BitVec 32}

/-- A word above one that is stored is read as before. -/
theorem loadAt_above {distance : Nat} (above : 4 ≤ distance) (below : distance + 4 ≤ 2 ^ 32) :
    loadAt 32 (storeAt memory address value) (address + .ofNat 32 distance) =
      loadAt 32 memory (address + .ofNat 32 distance) := by
  apply loadAt_storeAt_apart (by decide)
  intro place inside other
  unfold Within at inside other
  bv_omega

/-- The word pushed last lies on the top. -/
theorem top_pushed : (machine.pushed value).top = value := by
  show loadAt 32 (storeAt _ _ value) (Function.update machine.cpu.reg .esp _ .esp) = value
  rw [Function.update_self]
  exact loadAt_storeAt (by decide) (by decide) value

/-- Pushing moves the stack pointer down. -/
theorem esp_pushed : (machine.pushed value).cpu.reg .esp = machine.cpu.reg .esp - 4 := by
  simp [Machine.pushed, Cpu.set]

/-- Popping moves the stack pointer up. -/
theorem esp_popped : machine.popped.cpu.reg .esp = machine.cpu.reg .esp + 4 := by
  simp [Machine.popped, Cpu.set]

/-- Below the word pushed last lies the one that was on the top before. -/
theorem top_popped_pushed : (machine.pushed value).popped.top = machine.top := by
  unfold Machine.top
  rw [esp_popped, esp_pushed, BitVec.sub_add_cancel]
  have above := @loadAt_above machine.memory (machine.cpu.reg .esp - 4) value 4 (by decide)
    (by decide)
  rwa [show machine.cpu.reg .esp - 4 + .ofNat 32 4 = machine.cpu.reg .esp from
    BitVec.sub_add_cancel ..] at above

/-- And below that one the next. -/
theorem top_popped_popped_pushed :
    (machine.pushed value).popped.popped.top = machine.popped.top := by
  unfold Machine.top
  rw [esp_popped, esp_popped, esp_popped, esp_pushed, BitVec.sub_add_cancel]
  have above := @loadAt_above machine.memory (machine.cpu.reg .esp - 4) value 8 (by decide)
    (by decide)
  rwa [show machine.cpu.reg .esp - 4 + .ofNat 32 8 = machine.cpu.reg .esp + 4 by bv_omega] at above

/-- Popping a word that was pushed leaves the registers as they were. -/
theorem cpu_popped_pushed : (machine.pushed value).popped.cpu = machine.cpu := by
  have back : machine.cpu.reg .esp - 4 + 4 = machine.cpu.reg .esp := BitVec.sub_add_cancel ..
  show (machine.pushed value).cpu.set .esp ((machine.pushed value).cpu.reg .esp + 4) = machine.cpu
  rw [esp_pushed, back]
  simp only [Machine.pushed, Cpu.set, Function.update_idem, Function.update_eq_self]

/-- The three words of a frame lie on the top of the stack, the last one first. -/
theorem frame_tops (machine : Machine) (first second third : BitVec 32) :
    (((machine.pushed first).pushed second).pushed third).top = third ∧
      (((machine.pushed first).pushed second).pushed third).popped.top = second ∧
      (((machine.pushed first).pushed second).pushed third).popped.popped.top = first := by
  refine ⟨top_pushed, ?_, ?_⟩
  · rw [top_popped_pushed, top_pushed]
  · rw [top_popped_popped_pushed, top_popped_pushed, top_pushed]

/-- Popping only looks at the registers. -/
theorem cpu_popped {other : Machine} (same : machine.cpu = other.cpu) :
    machine.popped.cpu = other.popped.cpu := by
  simp only [Machine.popped, same]

/-- Popping a frame leaves the registers as they were. -/
theorem frame_cpu (machine : Machine) (first second third : BitVec 32) :
    (((machine.pushed first).pushed second).pushed third).popped.popped.popped.cpu =
      machine.cpu := by
  have last := @cpu_popped_pushed ((machine.pushed first).pushed second) third
  have middle := @cpu_popped_pushed (machine.pushed first) second
  rw [cpu_popped (cpu_popped last), cpu_popped middle, cpu_popped_pushed]

/-- Two machines with the same memory, general registers and segment registers: they differ in the
code segment, the flags and the kernel at most. -/
structure SameStack (machine other : Machine) : Prop where
  /-- The memory. -/
  memory : machine.memory = other.memory
  /-- The general registers. -/
  reg : machine.cpu.reg = other.cpu.reg
  /-- The segment registers. -/
  seg : machine.cpu.seg = other.cpu.seg

variable {other : Machine}

/-- The same word lies on the top. -/
theorem SameStack.top (same : SameStack machine other) : machine.top = other.top := by
  unfold Machine.top
  rw [same.memory, same.reg]

/-- Popping keeps the stacks the same. -/
theorem SameStack.popped (same : SameStack machine other) :
    SameStack machine.popped other.popped where
  memory := same.memory
  reg := by simp only [Machine.popped, Cpu.set, same.reg]
  seg := same.seg

end Stacks

/-! ## Saving -/

/-- The slot of a general register. -/
def regSlot : Reg → Fin 16
  | .eax => 0
  | .ecx => 1
  | .edx => 2
  | .ebx => 3
  | .esp => 4
  | .ebp => 5
  | .esi => 6
  | .edi => 7

/-- The slot of a segment register. -/
def segSlot : Seg → Fin 16
  | .ds => 10
  | .es => 11
  | .ss => 12
  | .fs => 13
  | .gs => 14

/-- What the code stores for a machine with a frame on its stack. The words of the segment registers
keep the high halves of the registers that they went through. -/
def Machine.saved (machine : Machine) : TaskRegisters :=
  let reg := machine.cpu.reg
  let seg := machine.cpu.seg
  ![reg .eax, reg .ecx, reg .edx, reg .ebx, machine.popped.popped.popped.cpu.reg .esp, reg .ebp,
    reg .esi, reg .edi, machine.top, machine.popped.top, withLow (reg .eax) (seg .ds),
    withLow (reg .ebx) (seg .es), withLow (reg .ecx) (seg .ss), withLow (reg .edx) (seg .fs),
    withLow (reg .esi) (seg .gs), machine.popped.popped.top]

/-- An instruction that returns had its effect. -/
theorem run_ok {symbols : Symbols} {instr : Instr} {before after : Machine} {result : Unit}
    (returned : instr.run symbols before = .ok result after) :
    after = instr.effect symbols before := by
  rw [Instr.run, bind_of_ok (get_ok.mpr ⟨rfl, rfl⟩)] at returned
  rcases ite_ok.mp returned with ⟨_, done⟩ | ⟨_, stopped⟩
  · exact (set_ok.mp done).symm
  · exact (throw_ok.mp stopped).elim

/-- Code that returns had the effects of its instructions. -/
theorem code_ok {symbols : Symbols} {code : List Instr} {before after : Machine} {result : Unit}
    (returned : code.forM (Instr.run symbols) before = .ok result after) :
    after = code.foldl (fun machine instr => instr.effect symbols machine) before :=
  forM_ok (fun _ _ _ done => run_ok done) returned

/-- Code only changes the kernel in `ScratchProc`. -/
theorem code_kernel {symbols : Symbols} {code : List Instr} (machine : Machine) :
    (code.foldl (fun machine instr => instr.effect symbols machine) machine).kernel =
      { machine.kernel with scratchProc := (code.foldl
          (fun machine instr => instr.effect symbols machine) machine).kernel.scratchProc } := by
  induction code generalizing machine with
  | nil => rfl
  | cons instr code ih =>
    rw [List.foldl_cons, ih]
    cases instr <;> rfl

/-- What `NextProcess` saves. -/
theorem saveCode_scratch (symbols : Symbols) (machine : Machine) :
    (saveCode.foldl (fun machine instr => instr.effect symbols machine)
      machine).kernel.scratchProc = machine.saved := by
  simp only [saveCode, List.foldl_cons, List.foldl_nil, Instr.effect, Machine.stored,
    Machine.popped, Machine.top, Cpu.set, Cpu.setSeg, Machine.saved, Function.update_self,
    Function.update_apply, reduceCtorEq, if_false]
  funext slot
  fin_cases slot <;> simp

/-! ## Loading -/

/-- The registers that `NextProcess` loads. -/
def loadedCpu (slots : TaskRegisters) : Cpu where
  reg register := slots (regSlot register)
  eip := slots 8
  cs := (slots 9).setWidth 16
  seg segment := (slots (segSlot segment)).setWidth 16
  eflags := loadedFlags (slots 15 ||| 0x202)

/-- A machine with a frame on its stack that returns to a process with some registers. -/
structure Machine.Returning (machine : Machine) (cpu : Cpu) (cs flags : BitVec 32) : Prop where
  /-- The instruction pointer is on the top. -/
  eip : machine.top = cpu.eip
  /-- The code segment is behind it. -/
  cs : machine.popped.top = cs
  /-- The flags are the last word. -/
  flags : machine.popped.popped.top = flags
  /-- The general registers after the frame. -/
  reg : machine.popped.popped.popped.cpu.reg = cpu.reg
  /-- The segment registers. -/
  seg : machine.popped.popped.popped.cpu.seg = cpu.seg

/-- The code that pushes the frame leaves it below the registers. -/
theorem frameCode_returning (symbols : Symbols) (machine : Machine) :
    (frameCode.foldl (fun machine instr => instr.effect symbols machine) machine).Returning
      { machine.cpu with eip := machine.kernel.scratchProc 8 } (machine.kernel.scratchProc 9)
      (machine.kernel.scratchProc 15) := by
  obtain ⟨eip, cs, flags⟩ := frame_tops machine (machine.kernel.scratchProc 15)
    (machine.kernel.scratchProc 9) (machine.kernel.scratchProc 8)
  have registers := frame_cpu machine (machine.kernel.scratchProc 15)
    (machine.kernel.scratchProc 9) (machine.kernel.scratchProc 8)
  -- The interrupts are enabled behind the pushes.
  have same : SameStack
      (frameCode.foldl (fun machine instr => instr.effect symbols machine) machine)
      (((machine.pushed (machine.kernel.scratchProc 15)).pushed
        (machine.kernel.scratchProc 9)).pushed (machine.kernel.scratchProc 8)) := ⟨rfl, rfl, rfl⟩
  exact {
    eip := same.top.trans eip
    cs := same.popped.top.trans cs
    flags := same.popped.popped.top.trans flags
    reg := by rw [same.popped.popped.popped.reg, registers]
    seg := by rw [same.popped.popped.popped.seg, registers] }

/-- The last part of `NextProcess` loads the registers from `ScratchProc`. -/
theorem loadCode_cpu (symbols : Symbols) (machine : Machine) :
    let loaded := loadCode.foldl (fun machine instr => instr.effect symbols machine) machine
    loaded.cpu.reg = (loadedCpu machine.kernel.scratchProc).reg ∧
      loaded.cpu.seg = (loadedCpu machine.kernel.scratchProc).seg ∧
      loaded.kernel.scratchProc = Function.update machine.kernel.scratchProc 15
        (machine.kernel.scratchProc 15 ||| 0x202) := by
  simp only [loadCode, List.foldl_cons, List.foldl_nil, Instr.effect, Machine.stored,
    Cpu.set, Cpu.setSeg, Function.update_self, Function.update_apply, reduceCtorEq, if_false]
  refine ⟨funext fun register => ?_, funext fun segment => ?_, trivial⟩
  · cases register <;> simp [loadedCpu, regSlot]
  · cases segment <;> simp [loadedCpu, segSlot]

/-- What a process at level 0 sees; nothing is said about other processes. -/
def Cpu.kernelView (cpu : Cpu) : Option Cpu := if level cpu.cs = 0 then some cpu else none

/-- What a process at level 0 continues with when registers are loaded. -/
def loads (slots : TaskRegisters) : Option Cpu := (loadedCpu slots).kernelView

/-- `iret` returns to the process of the frame, if its level is 0. -/
theorem iret_ok {machine after : Machine} {cpu : Cpu} {cs flags : BitVec 32} {result : Unit}
    (returning : machine.Returning cpu cs flags) (returned : iret machine = .ok result after) :
    after.kernel = machine.kernel ∧ after.cpu.kernelView =
      ({ cpu with cs := cs.setWidth 16, eflags := loadedFlags flags } : Cpu).kernelView := by
  rw [iret, bind_of_ok (get_ok.mpr ⟨rfl, rfl⟩)] at returned
  dsimp only at returned
  rw [returning.eip, returning.cs, returning.flags, returning.reg, returning.seg] at returned
  rcases ite_ok.mp returned with ⟨_, stopped⟩ | ⟨_, returned⟩
  · exact (throw_ok.mp stopped).elim
  · rcases ite_ok.mp returned with ⟨kernelCode, done⟩ | ⟨_, returned⟩
    · obtain rfl := set_ok.mp done
      exact ⟨rfl, rfl⟩
    · rcases ite_ok.mp returned with ⟨userCode, done⟩ | ⟨_, stopped⟩
      · obtain rfl := set_ok.mp done
        refine ⟨rfl, ?_⟩
        have outer : level (cs.setWidth 16) ≠ 0 := by
          rw [userCode.1]
          decide
        simp only [Cpu.kernelView, if_neg outer]
      · exact (throw_ok.mp stopped).elim

/-! ## The whole switch -/

/-- A call returns as its C function. -/
theorem call_ok {function : Kernel (KernelState 32 TaskRegisters) Unit} {unknown : Unknown}
    {before after : Machine} {result : Unit}
    (returned : call function unknown before = .ok result after) :
    function before.kernel = .ok () after.kernel := by
  rw [call, bind_of_ok (get_ok.mpr ⟨rfl, rfl⟩)] at returned
  cases done : function before.kernel with
  | ok value kernel =>
    rw [done] at returned
    obtain rfl := set_ok.mp returned
    rfl
  | error reason kernel =>
    rw [done] at returned
    exact absurd returned (by simp [throw_ok])

/-- `NextProcess` saves the registers, selects a process, and continues with its registers. Of
`ScratchProc` it changes the flags when it loads them. -/
theorem nextProcess_ok {symbols : Symbols} {fuel : Nat} {afterSave afterNext : Unknown}
    {before after : Machine} {result : Unit}
    (returned : nextProcess symbols fuel afterSave afterNext before = .ok result after) :
    ∃ middle last scratchProc, commitProcessSave
        { before.kernel with scratchProc := before.saved } = .ok () middle ∧
      commitNextProcess fuel middle = .ok () last ∧
      after.kernel = { last with scratchProc } ∧
      after.cpu.kernelView = loads last.scratchProc := by
  obtain ⟨_, first, saving, returned⟩ := bind_ok.mp returned
  obtain ⟨_, second, stored, returned⟩ := bind_ok.mp returned
  obtain ⟨_, third, advanced, returned⟩ := bind_ok.mp returned
  obtain ⟨_, fourth, loading, returned⟩ := bind_ok.mp returned
  obtain ⟨_, fifth, framing, returned⟩ := bind_ok.mp returned
  have saved : first.kernel = { before.kernel with scratchProc := before.saved } := by
    rw [code_ok saving, code_kernel, saveCode_scratch]
  obtain ⟨reg, seg, scratch⟩ := loadCode_cpu symbols third
  rw [← code_ok loading] at reg seg scratch
  have returning := frameCode_returning symbols fourth
  rw [← code_ok framing] at returning
  obtain ⟨kernel, view⟩ := iret_ok returning returned
  refine ⟨second.kernel, third.kernel, fifth.kernel.scratchProc, ?_, call_ok advanced, ?_, ?_⟩
  · rw [← saved]
    exact call_ok stored
  · rw [kernel, code_ok framing, code_kernel, ← code_ok framing, code_ok loading, code_kernel]
  · rw [view, scratch, reg, seg]
    rfl

end Unarddeg.Ia32
