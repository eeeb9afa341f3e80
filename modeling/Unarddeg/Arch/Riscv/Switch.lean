import Unarddeg.Arch.Riscv.Machine

/-!
# The RISC-V switch

`TrapVector` of `riscv/sched/trap.s` and `NextProcess` of `riscv/sched/switch.s`, instruction by
instruction. The stages are functions of their own, named after the comments of the code.
-/

namespace Unarddeg.Riscv

open Library

/-- The integer registers in the order of the code, without `t0`. -/
def gprs : List (Fin 32) :=
  [1, 2, 3, 4, 6, 7, 8, 9, 10, 11, 12, 13, 14, 15, 16, 17, 18, 19, 20, 21, 22, 23, 24, 25, 26, 27,
    28, 29, 30, 31]

/-- The floating-point registers in the order of the code. -/
def fprs : List (Fin 32) := List.finRange 32

/-- The slot of an integer register. -/
def gprSlot (register : Fin 32) : Fin 67 := register.castLE (by decide)

/-- The slot of a floating-point register. -/
def fprSlot (register : Fin 32) : Fin 67 := ⟨32 + register, by omega⟩

/-- The first stage of `NextProcess`: the registers are saved to `ScratchProc`. -/
def saveStage (symbols : Symbols) : Kernel Machine Unit := do
  li t0 symbols.scratchProc
  gprs.forM fun register => sd symbols register (gprSlot register) t0
  csrr t1 .mscratch
  sd symbols t1 5 t0
  csrr t1 .mepc
  sd symbols t1 0 t0
  csrr t1 .mstatus
  sd symbols t1 64 t0
  csrr t1 .satp
  sd symbols t1 66 t0
  li t1 0x6000
  csrs .mstatus t1
  fprs.forM fun register => fsd symbols register (fprSlot register) t0
  frcsr t1
  sd symbols t1 65 t0

/-- The last stage of `NextProcess` before `mret`: the registers are loaded from `ScratchProc`. -/
def loadStage (symbols : Symbols) : Kernel Machine Unit := do
  li t0 symbols.scratchProc
  ld symbols t1 66 t0
  csrw .satp t1
  -- `sfence.vma` changes no register.
  ld symbols t1 0 t0
  csrw .mepc t1
  ld symbols t1 65 t0
  fscsr t1
  fprs.forM fun register => fld symbols register (fprSlot register) t0
  gprs.forM fun register => ld symbols register (gprSlot register) t0
  ld symbols t1 64 t0
  csrw .mstatus t1
  ld symbols t0 5 t0

/-- `NextProcess`. -/
def nextProcess (symbols : Symbols) (fuel : Nat) (afterSave afterNext : Unknown) :
    Kernel Machine Unit := do
  saveStage symbols
  li sp (symbols.interruptStack + 4096)
  call commitProcessSave afterSave
  call (commitNextProcess fuel) afterNext
  loadStage symbols
  mret

/-- `TrapVector`: interrupts go to `NextProcess`, all other traps hang. -/
def trapVector (symbols : Symbols) (fuel : Nat) (afterSave afterNext : Unknown) :
    Kernel Machine Unit := do
  csrci .mstatus 0x8
  csrw .mscratch t0
  csrr t0 .mcause
  let machine ← get
  if (machine.cpu.get t0).msb then nextProcess symbols fuel afterSave afterNext
  else throw .hang

/-- The timer interrupts the process. -/
def timerInterrupt (symbols : Symbols) (fuel : Nat) (afterSave afterNext : Unknown) :
    Kernel Machine Unit := do
  onCpu Cpu.interrupted
  trapVector symbols fuel afterSave afterNext

/-! ## Saving -/

/-- The slots of different integer registers are different. -/
theorem gprSlot_injective : Function.Injective gprSlot := fun _ _ same =>
  Fin.ext (Fin.mk.inj same)

/-- The slots of different floating-point registers are different. -/
theorem fprSlot_injective : Function.Injective fprSlot := fun left right same => by
  have equal : 32 + left.val = 32 + right.val := Fin.mk.inj same
  exact Fin.ext (by omega)

/-- Every slot is one of those that the code names or the slot of a register that it saves. -/
theorem slot_cases : ∀ slot : Fin 67, slot ∈ ([0, 5, 64, 65, 66] : List (Fin 67)) ∨
    (∃ register ∈ gprs, gprSlot register = slot) ∨ ∃ register, fprSlot register = slot := by
  decide

/-- The slots in front of the status are those of the 32 floating-point registers. -/
theorem fprIndex_lt {slot : Fin 67} (middle : slot < 64) : (slot : Nat) - 32 < 32 := by
  omega

/-- What `NextProcess` stores in the slots. -/
def Cpu.saved (cpu : Cpu) (slot : Fin 67) : BitVec 64 :=
  if slot = 0 then cpu.mepc
  else if slot = 5 then cpu.mscratch
  else if small : slot < 32 then cpu.x (slot.castLT small)
  else if middle : slot < 64 then cpu.f ⟨slot - 32, fprIndex_lt middle⟩
  else if slot = 64 then cpu.mstatus
  else if slot = 65 then cpu.fcsr.setWidth 64
  else cpu.satp

section Save

variable (symbols : Symbols) (before : Machine)

/-- The registers in the first stage: `t0` points to `ScratchProc` and `t1` holds a value. -/
def savingCpu (value status : BitVec 64) : Cpu :=
  { before.cpu with
    x := Function.update (Function.update before.cpu.x t0 symbols.scratchProc) t1 value
    mstatus := status }

/-- The machine in the first stage, with what was stored. -/
def saving (value status : BitVec 64) (slots : TaskRegisters) : Machine where
  cpu := savingCpu symbols before value status
  kernel := { before.kernel with scratchProc := slots }

variable {value status : BitVec 64} {slots : TaskRegisters}

/-- The first stage begins with `t0`. -/
theorem li_saving : li t0 symbols.scratchProc before = .ok ()
    (saving symbols before (before.cpu.x t1) before.cpu.mstatus before.kernel.scratchProc) := by
  have same : Function.update (Function.update before.cpu.x t0 symbols.scratchProc) t1
      (before.cpu.x t1) = Function.update before.cpu.x t0 symbols.scratchProc := by
    rw [Function.update_comm (by decide : t0 ≠ t1), Function.update_eq_self]
  rw [saving, savingCpu, same]
  rfl

/-- `t1` takes another value. -/
theorem set_saving (new : BitVec 64) :
    ({ saving symbols before value status slots with
      cpu := (saving symbols before value status slots).cpu.set t1 new } : Machine) =
        saving symbols before new status slots := by
  simp [saving, savingCpu, Cpu.set, show t1 ≠ 0 by decide]

/-- The base of the stores is `ScratchProc`. -/
theorem base_saving :
    (saving symbols before value status slots).cpu.get t0 = symbols.scratchProc := by
  simp [saving, savingCpu, Cpu.get, show t0 ≠ 0 by decide, show t0 ≠ t1 by decide]

/-- The value in `t1`. -/
theorem t1_saving : (savingCpu symbols before value status).get t1 = value := by
  simp [savingCpu, Cpu.get, show t1 ≠ 0 by decide]

/-- `li` takes a value to `t1`. -/
theorem li_t1_saving (new : BitVec 64) : li t1 new (saving symbols before value status slots) =
    .ok () (saving symbols before new status slots) :=
  congrArg (EStateM.Result.ok ()) (set_saving symbols before new)

/-- `csrr` takes a control register to `t1`. -/
theorem csrr_saving (csr : Csr) : csrr t1 csr (saving symbols before value status slots) =
    .ok () (saving symbols before ((savingCpu symbols before value status).getCsr csr) status
      slots) :=
  congrArg (EStateM.Result.ok ()) (set_saving symbols before _)

/-- `sd` stores a register in a slot. -/
theorem sd_saving (register : Fin 32) (slot : Fin 67) :
    sd symbols register slot t0 (saving symbols before value status slots) =
      .ok () (saving symbols before value status (Function.update slots slot
        ((savingCpu symbols before value status).get register))) := by
  have here : operand symbols t0 (saving symbols before value status slots) =
      .ok () (saving symbols before value status slots) := by
    rw [operand, bind_of_ok (get_ok.mpr ⟨rfl, rfl⟩), if_pos (base_saving symbols before)]
    rfl
  rw [sd, bind_of_ok here]
  rfl

/-- `sd` stores the value in `t1`. -/
theorem sd_t1_saving (slot : Fin 67) :
    sd symbols t1 slot t0 (saving symbols before value status slots) =
    .ok () (saving symbols before value status (Function.update slots slot value)) := by
  rw [sd_saving, t1_saving]

/-- The stores of a list of integer registers. -/
theorem forM_sd_saving (slotOf : Fin 32 → Fin 67) (registers : List (Fin 32)) :
    registers.forM (fun register => sd symbols register (slotOf register) t0)
        (saving symbols before value status slots) =
      .ok () (saving symbols before value status (registers.foldl (fun slots register =>
        Function.update slots (slotOf register)
          ((savingCpu symbols before value status).get register)) slots)) := by
  induction registers generalizing slots with
  | nil => rfl
  | cons register registers ih =>
    exact (bind_of_ok (sd_saving symbols before register (slotOf register))).trans ih

/-- `csrs mstatus, t1`. -/
theorem csrs_saving : csrs .mstatus t1 (saving symbols before value status slots) =
    .ok () (saving symbols before value (status ||| value) slots) := by
  exact congrArg (fun mask => EStateM.Result.ok ()
    (saving symbols before value (status ||| mask) slots)) (t1_saving symbols before)

variable (on : (saving symbols before value status slots).cpu.fpOn = true)

include on

/-- With the floating-point unit on a floating-point instruction goes on. -/
theorem floating_saving : floating (saving symbols before value status slots) =
    .ok () (saving symbols before value status slots) := by
  rw [floating, bind_of_ok (get_ok.mpr ⟨rfl, rfl⟩), if_pos on]
  rfl

/-- The stores of a list of floating-point registers. -/
theorem forM_fsd_saving (slotOf : Fin 32 → Fin 67) (registers : List (Fin 32)) :
    registers.forM (fun register => fsd symbols register (slotOf register) t0)
        (saving symbols before value status slots) =
      .ok () (saving symbols before value status (registers.foldl (fun slots register =>
        Function.update slots (slotOf register) (before.cpu.f register)) slots)) := by
  induction registers generalizing slots with
  | nil => rfl
  | cons register registers ih =>
    have here : operand symbols t0 (saving symbols before value status slots) =
        .ok () (saving symbols before value status slots) := by
      rw [operand, bind_of_ok (get_ok.mpr ⟨rfl, rfl⟩), if_pos (base_saving symbols before)]
      rfl
    have first : fsd symbols register (slotOf register) t0
        (saving symbols before value status slots) = .ok () (saving symbols before value status
          (Function.update slots (slotOf register) (before.cpu.f register))) := by
      rw [fsd, bind_of_ok (floating_saving symbols before on), bind_of_ok here]
      rfl
    exact (bind_of_ok first).trans (ih on)

/-- `frcsr` takes the floating-point control register to `t1`. -/
theorem frcsr_saving : frcsr t1 (saving symbols before value status slots) =
    .ok () (saving symbols before (before.cpu.fcsr.setWidth 64) status slots) := by
  rw [frcsr, bind_of_ok (floating_saving symbols before on)]
  exact congrArg (EStateM.Result.ok ()) (set_saving symbols before _)

end Save

/-- The slots of the code are none of those of the floating-point registers. -/
theorem fprSlot_ne : ∀ slot ∈ ([0, 5, 64, 65, 66] : List (Fin 67)), ∀ register,
    fprSlot register ≠ slot := by
  decide

/-- The slots of the code are none of those of the integer registers that it saves. -/
theorem gprSlot_ne : ∀ slot ∈ ([0, 5, 64, 65, 66] : List (Fin 67)), ∀ register ∈ gprs,
    gprSlot register ≠ slot := by
  decide

/-- The slots of integer registers are none of those of floating-point registers. -/
theorem fprSlot_ne_gprSlot (left right : Fin 32) : fprSlot left ≠ gprSlot right := fun same => by
  have equal : 32 + left.val = right.val := Fin.mk.inj same
  omega

/-- The slots of the floating-point registers lie behind those of the integer registers. -/
theorem fprSlot_place (register : Fin 32) :
    fprSlot register ≠ 0 ∧ ¬ fprSlot register < 32 ∧ fprSlot register < 64 := by
  have low : 32 ≤ (fprSlot register).val := Nat.le_add_right 32 register.val
  have high : (fprSlot register).val < 64 := Nat.add_lt_add_left register.isLt 32
  refine ⟨fun same => ?_, not_lt.mpr low, high⟩
  rw [same] at low
  exact absurd low (by decide)

/-- Every floating-point register is saved. -/
theorem mem_fprs (register : Fin 32) : register ∈ fprs := List.mem_finRange register

/-- The stores of the first stage fill every slot. -/
theorem storedSlots (cpu : Cpu) {values : Fin 32 → BitVec 64}
    (agree : ∀ register ∈ gprs, values register = cpu.x register) (slots : TaskRegisters) :
    Function.update (fprs.foldl (fun slots register =>
        Function.update slots (fprSlot register) (cpu.f register))
      (Function.update (Function.update (Function.update (Function.update (gprs.foldl
        (fun slots register => Function.update slots (gprSlot register) (values register)) slots)
          5 cpu.mscratch) 0 cpu.mepc) 64 cpu.mstatus) 66 cpu.satp))
      65 (cpu.fcsr.setWidth 64) = cpu.saved := by
  funext slot
  rcases slot_cases slot with named | ⟨register, member, rfl⟩ | ⟨register, rfl⟩
  · by_cases last : slot = 65
    · subst last
      rw [Function.update_self]
      rfl
    · rw [Function.update_of_ne last, foldl_update_of_ne fun register _ => fprSlot_ne slot named _]
      simp only [List.mem_cons, List.not_mem_nil, or_false] at named
      rcases named with rfl | rfl | rfl | rfl | rfl <;> first | rfl | exact absurd rfl last
  · have apart := fun slot named => gprSlot_ne slot named register member
    rw [Function.update_of_ne (apart 65 (by decide)),
      foldl_update_of_ne fun other _ => fprSlot_ne_gprSlot other register,
      Function.update_of_ne (apart 66 (by decide)), Function.update_of_ne (apart 64 (by decide)),
      Function.update_of_ne (apart 0 (by decide)), Function.update_of_ne (apart 5 (by decide)),
      foldl_update_of_mem gprSlot_injective member, agree register member]
    have small : gprSlot register < 32 := register.isLt
    rw [Cpu.saved, if_neg (apart 0 (by decide)), if_neg (apart 5 (by decide)), dif_pos small]
    rfl
  · have apart := fun slot named => fprSlot_ne slot named register
    rw [Function.update_of_ne (apart 65 (by decide)),
      foldl_update_of_mem fprSlot_injective (mem_fprs register)]
    obtain ⟨_, notSmall, middle⟩ := fprSlot_place register
    rw [Cpu.saved, if_neg (apart 0 (by decide)), if_neg (apart 5 (by decide)), dif_neg notSmall,
      dif_pos middle]
    congr 1
    exact Fin.ext (Nat.add_sub_cancel_left 32 register.val).symm

/-- The floating-point unit is on once its bits are set. -/
theorem fpOn_or (status : BitVec 64) : ((status ||| 0x6000) &&& 0x6000 != 0) = true := by
  have absorbed : ∀ mask : BitVec 64, (status ||| mask) &&& mask = mask := by grind
  rw [absorbed]
  decide

/-- The first stage stores every register and leaves the floating-point unit on. -/
theorem saveStage_eq (symbols : Symbols) (before : Machine) :
    saveStage symbols before = .ok () (saving symbols before (before.cpu.fcsr.setWidth 64)
      (before.cpu.mstatus ||| 0x6000) before.cpu.saved) := by
  rw [saveStage, bind_of_ok (li_saving symbols before),
    bind_of_ok (forM_sd_saving symbols before gprSlot gprs),
    bind_of_ok (csrr_saving symbols before .mscratch), bind_of_ok (sd_t1_saving symbols before 5),
    bind_of_ok (csrr_saving symbols before .mepc), bind_of_ok (sd_t1_saving symbols before 0),
    bind_of_ok (csrr_saving symbols before .mstatus), bind_of_ok (sd_t1_saving symbols before 64),
    bind_of_ok (csrr_saving symbols before .satp), bind_of_ok (sd_t1_saving symbols before 66),
    bind_of_ok (li_t1_saving symbols before 0x6000), bind_of_ok (csrs_saving symbols before),
    bind_of_ok (forM_fsd_saving symbols before (fpOn_or _) fprSlot fprs),
    bind_of_ok (frcsr_saving symbols before (fpOn_or _)), sd_t1_saving symbols before 65]
  refine congrArg (fun slots => EStateM.Result.ok () (saving symbols before _ _ slots)) ?_
  refine storedSlots before.cpu (fun register member => ?_) before.kernel.scratchProc
  have proper : register ≠ 0 ∧ register ≠ t0 := by
    revert register
    decide
  simp only [savingCpu, Cpu.get, if_neg proper.1]
  by_cases same : register = t1
  · rw [same, Function.update_self]
  · rw [Function.update_of_ne same, Function.update_of_ne proper.2]

/-! ## Loading -/

section Load

variable (symbols : Symbols) (before : Machine)

/-- The machine in the last stage: `t0` points to `ScratchProc`, `t1` holds a value, and some
registers were loaded. -/
def loading (value satp mepc : BitVec 64) (fcsr : BitVec 8) (f : Fin 32 → BitVec 64) : Machine :=
  { before with
    cpu := { before.cpu with
      x := Function.update (Function.update before.cpu.x t0 symbols.scratchProc) t1 value
      f := f
      fcsr := fcsr
      mepc := mepc
      satp := satp } }

variable {value satp mepc : BitVec 64} {fcsr : BitVec 8} {f : Fin 32 → BitVec 64}

/-- The last stage begins with `t0`. -/
theorem li_loading : li t0 symbols.scratchProc before = .ok ()
    (loading symbols before (before.cpu.x t1) before.cpu.satp before.cpu.mepc before.cpu.fcsr
      before.cpu.f) := by
  have same : Function.update (Function.update before.cpu.x t0 symbols.scratchProc) t1
      (before.cpu.x t1) = Function.update before.cpu.x t0 symbols.scratchProc := by
    rw [Function.update_comm (by decide : t0 ≠ t1), Function.update_eq_self]
  rw [loading, same]
  rfl

/-- A base of the last stage is `ScratchProc`. -/
theorem operand_of_base {machine : Machine} (base : machine.cpu.get t0 = symbols.scratchProc) :
    operand symbols t0 machine = .ok () machine := by
  rw [operand, bind_of_ok (get_ok.mpr ⟨rfl, rfl⟩), if_pos base]
  rfl

/-- `csrw` takes a register to a control register. -/
theorem csrw_eq {csr : Csr} {register : Fin 32} {machine : Machine} : csrw csr register machine =
    .ok () { machine with cpu := machine.cpu.setCsr (machine.cpu.get register) csr } :=
  rfl

/-- `ld` takes a slot to a register. -/
theorem ld_of_base {machine : Machine} (base : machine.cpu.get t0 = symbols.scratchProc)
    (register : Fin 32) (slot : Fin 67) : ld symbols register slot t0 machine =
      .ok () { machine with
        cpu := machine.cpu.set register (machine.kernel.scratchProc slot) } := by
  rw [ld, bind_of_ok (operand_of_base symbols base)]
  rfl

/-- The base of the loads is `ScratchProc`. -/
theorem base_loading :
    (loading symbols before value satp mepc fcsr f).cpu.get t0 = symbols.scratchProc := by
  simp [loading, Cpu.get, show t0 ≠ 0 by decide, show t0 ≠ t1 by decide]

/-- The value in `t1`. -/
theorem t1_loading : (loading symbols before value satp mepc fcsr f).cpu.get t1 = value := by
  simp [loading, Cpu.get, show t1 ≠ 0 by decide]

/-- `ld` takes a slot to `t1`. -/
theorem ld_t1_loading (slot : Fin 67) :
    ld symbols t1 slot t0 (loading symbols before value satp mepc fcsr f) =
      .ok () (loading symbols before (before.kernel.scratchProc slot) satp mepc fcsr f) := by
  rw [ld_of_base symbols (base_loading symbols before)]
  simp [loading, Cpu.set, show t1 ≠ 0 by decide]

/-- `csrw satp, t1`. -/
theorem csrw_satp_loading : csrw .satp t1 (loading symbols before value satp mepc fcsr f) =
    .ok () (loading symbols before value value mepc fcsr f) :=
  congrArg (fun new => EStateM.Result.ok () (loading symbols before value new mepc fcsr f))
    (t1_loading symbols before)

/-- `csrw mepc, t1`. -/
theorem csrw_mepc_loading : csrw .mepc t1 (loading symbols before value satp mepc fcsr f) =
    .ok () (loading symbols before value satp (value &&& ~~~1) fcsr f) :=
  congrArg (fun new => EStateM.Result.ok ()
    (loading symbols before value satp (new &&& ~~~1) fcsr f)) (t1_loading symbols before)

variable (on : before.cpu.fpOn = true)

include on

/-- The floating-point unit stays on in the last stage. -/
theorem floating_loading : floating (loading symbols before value satp mepc fcsr f) =
    .ok () (loading symbols before value satp mepc fcsr f) := by
  rw [floating, bind_of_ok (get_ok.mpr ⟨rfl, rfl⟩),
    if_pos (show (loading symbols before value satp mepc fcsr f).cpu.fpOn = true from on)]
  rfl

/-- `fscsr t1`. -/
theorem fscsr_loading : fscsr t1 (loading symbols before value satp mepc fcsr f) =
    .ok () (loading symbols before value satp mepc (value.setWidth 8) f) := by
  rw [fscsr, bind_of_ok (floating_loading symbols before on)]
  exact congrArg (fun new => EStateM.Result.ok ()
    (loading symbols before value satp mepc (new.setWidth 8) f)) (t1_loading symbols before)

/-- The loads of a list of floating-point registers. -/
theorem forM_fld_loading (slotOf : Fin 32 → Fin 67) (registers : List (Fin 32)) :
    registers.forM (fun register => fld symbols register (slotOf register) t0)
        (loading symbols before value satp mepc fcsr f) =
      .ok () (loading symbols before value satp mepc fcsr (registers.foldl
        (fun values register => Function.update values (id register)
          (before.kernel.scratchProc (slotOf register))) f)) := by
  induction registers generalizing f with
  | nil => rfl
  | cons register registers ih =>
    have first : fld symbols register (slotOf register) t0
        (loading symbols before value satp mepc fcsr f) =
          .ok () (loading symbols before value satp mepc fcsr
            (Function.update f register (before.kernel.scratchProc (slotOf register)))) := by
      rw [fld, bind_of_ok (floating_loading symbols before on),
        bind_of_ok (operand_of_base symbols (base_loading symbols before))]
      rfl
    exact (bind_of_ok first).trans ih

end Load

/-- The loads of a list of integer registers, none of which is the base. -/
theorem forM_ld (symbols : Symbols) (slotOf : Fin 32 → Fin 67) {registers : List (Fin 32)}
    (proper : ∀ register ∈ registers, register ≠ 0 ∧ register ≠ t0) {machine : Machine}
    (base : machine.cpu.get t0 = symbols.scratchProc) :
    registers.forM (fun register => ld symbols register (slotOf register) t0) machine =
      .ok () { machine with
        cpu := { machine.cpu with
          x := registers.foldl (fun values register => Function.update values (id register)
            (machine.kernel.scratchProc (slotOf register))) machine.cpu.x } } := by
  induction registers generalizing machine with
  | nil => rfl
  | cons register registers ih =>
    obtain ⟨nonzero, notBase⟩ := proper register List.mem_cons_self
    have kept : (machine.cpu.set register (machine.kernel.scratchProc (slotOf register))).get t0 =
        symbols.scratchProc := by
      rw [Cpu.get_set _ _ _ _ nonzero, if_neg (Ne.symm notBase), base]
    refine (bind_of_ok (ld_of_base symbols base register (slotOf register))).trans
      ((ih (fun later member => proper later (List.mem_cons_of_mem _ member)) kept).trans ?_)
    simp only [Cpu.set, if_neg nonzero, List.foldl_cons, id]

/-- The loads of registers other than the base keep the base. -/
theorem get_foldl (cpu : Cpu) (values : Fin 32 → BitVec 64) {registers : List (Fin 32)}
    (apart : ∀ register ∈ registers, id register ≠ t0) :
    ({ cpu with x := registers.foldl (fun x register =>
      Function.update x (id register) (values register)) cpu.x } : Cpu).get t0 = cpu.get t0 := by
  simp only [Cpu.get, show t0 ≠ 0 by decide, if_false]
  exact foldl_update_of_ne apart

/-- The registers after the last stage. -/
def Cpu.loaded (cpu : Cpu) (slots : TaskRegisters) : Cpu :=
  { cpu with
    x := fun register =>
      if register = 0 then cpu.x 0
      else if register = t1 then slots 64
      else slots (gprSlot register)
    f := fun register => slots (fprSlot register)
    fcsr := (slots 65).setWidth 8
    mstatus := slots 64
    mepc := slots 0 &&& ~~~1
    satp := slots 66 }

/-- The loads of the last stage fill every register; `t1` keeps the last value that went through
it. -/
theorem loadedRegisters (cpu : Cpu) (base value : BitVec 64) (slots : TaskRegisters) :
    Function.update (Function.update (gprs.foldl (fun values register =>
      Function.update values (id register) (slots (gprSlot register)))
        (Function.update (Function.update cpu.x t0 base) t1 value)) t1 (slots 64)) t0 (slots 5) =
      (cpu.loaded slots).x := by
  have named : ∀ register : Fin 32, register = 0 ∨ register = t0 ∨ register = t1 ∨
      register ≠ 0 ∧ register ≠ t0 ∧ register ≠ t1 ∧ register ∈ gprs := by
    decide
  have zero : ∀ register ∈ gprs, id register ≠ 0 := by
    decide
  funext register
  rcases named register with rfl | rfl | rfl | ⟨nonzero, notBase, notLast, member⟩
  · rw [Function.update_of_ne (by decide), Function.update_of_ne (by decide),
      foldl_update_of_ne zero, Function.update_of_ne (by decide), Function.update_of_ne (by decide)]
    rfl
  · rw [Function.update_self]
    rfl
  · rw [Function.update_of_ne (by decide), Function.update_self]
    rfl
  · rw [Function.update_of_ne notBase, Function.update_of_ne notLast]
    refine (foldl_update_of_mem Function.injective_id member).trans ?_
    exact ((if_neg nonzero).trans (if_neg notLast)).symm

/-- The loads of the last stage fill every floating-point register. -/
theorem loadedFloats (f : Fin 32 → BitVec 64) (slots : TaskRegisters) :
    fprs.foldl (fun values register =>
      Function.update values (id register) (slots (fprSlot register))) f =
        fun register => slots (fprSlot register) :=
  funext fun register => foldl_update_of_mem Function.injective_id (mem_fprs register)

/-- The last stage ends with the machine status and `t0`. -/
theorem loadEnd_eq (symbols : Symbols) {machine : Machine}
    (base : machine.cpu.get t0 = symbols.scratchProc) :
    (do ld symbols t1 64 t0; csrw .mstatus t1; ld symbols t0 5 t0) machine =
      .ok () { machine with
        cpu := { machine.cpu with
          x := Function.update (Function.update machine.cpu.x t1 (machine.kernel.scratchProc 64))
            t0 (machine.kernel.scratchProc 5)
          mstatus := machine.kernel.scratchProc 64 } } := by
  have last : (machine.cpu.set t1 (machine.kernel.scratchProc 64)).get t1 =
      machine.kernel.scratchProc 64 := by
    rw [Cpu.get_set _ _ _ _ (by decide), if_pos rfl]
  have kept : ({ machine.cpu.set t1 (machine.kernel.scratchProc 64) with
      mstatus := machine.kernel.scratchProc 64 } : Cpu).get t0 = symbols.scratchProc := by
    refine Eq.trans ?_ base
    exact (Cpu.get_set machine.cpu t1 t0 (machine.kernel.scratchProc 64) (by decide)).trans
      (if_neg (by decide))
  rw [bind_of_ok (ld_of_base symbols base t1 64), bind_of_ok csrw_eq, last,
    ld_of_base symbols (by exact kept) t0 5]
  rfl

/-- The last stage loads every register. -/
theorem loadStage_eq (symbols : Symbols) {before : Machine} (on : before.cpu.fpOn = true) :
    loadStage symbols before =
      .ok () { before with cpu := before.cpu.loaded before.kernel.scratchProc } := by
  have baseKept : ∀ register ∈ gprs, id register ≠ t0 := by
    decide
  rw [loadStage, bind_of_ok (li_loading symbols before),
    bind_of_ok (ld_t1_loading symbols before 66), bind_of_ok (csrw_satp_loading symbols before),
    bind_of_ok (ld_t1_loading symbols before 0), bind_of_ok (csrw_mepc_loading symbols before),
    bind_of_ok (ld_t1_loading symbols before 65), bind_of_ok (fscsr_loading symbols before on),
    bind_of_ok (forM_fld_loading symbols before on fprSlot fprs),
    bind_of_ok (forM_ld symbols gprSlot (by decide) (base_loading symbols before)),
    loadEnd_eq symbols ?_]
  · exact congrArg₂ (fun x f => EStateM.Result.ok () ({ before with
      cpu := { before.cpu.loaded before.kernel.scratchProc with x := x, f := f } } : Machine))
        (loadedRegisters before.cpu symbols.scratchProc (before.kernel.scratchProc 65) _)
        (loadedFloats before.cpu.f before.kernel.scratchProc)
  · exact (get_foldl _ _ baseKept).trans (base_loading symbols before)

end Unarddeg.Riscv
