import Unarddeg.Kernel.Vfs.Vfd

/-!
# The scheduler core

`kernel/sched/core.c`. The processes are the children of `/proc` before its node `self`; the
registers of a process lie in the task behind its node and are copied to and from `ScratchProc`
through the node's read and write functions. The port's timer code calls `CommitProcessSave` and
`CommitNextProcess` between saving and restoring the processor.

`SchedulerExit` never returns to its process: after the state below is reached it loops until the
next timer interrupt.
-/

namespace Unarddeg

variable {width : Nat} {Registers : Type}

/-- `ProcDir`. -/
def procDir : List UInt8 := cString ['p', 'r', 'o', 'c']

/-- `TaskWriteFunction` from `ScratchProc`, of the size of the registers. -/
def taskWriteFunction (self : VNode) : Kernel (KernelState width Registers) Unit := do
  panicIf (self.driverData = none) .nullPointerDereference
  let data ← deref self.driverData
  let state ← get
  set (state.setTask data { state.task data with registers := state.scratchProc })

/-- `TaskReadFunction` to `ScratchProc`, of the size of the registers. -/
def taskReadFunction (self : VNode) : Kernel (KernelState width Registers) Unit := do
  panicIf (self.driverData = none) .nullPointerDereference
  let data ← deref self.driverData
  let state ← get
  set { state with scratchProc := (state.task data).registers }

/-- A call through `WriteFunction` or `ReadFunction` of a process node. -/
def callRW (function : RWFunction) (taskFunction : Kernel (KernelState width Registers) Unit) :
    Kernel (KernelState width Registers) Unit :=
  match function with
  | .default => panicWith .unintendedCall
  | .task => taskFunction
  | .driver => throw .driver

/-- `CommitProcessSave`. -/
def commitProcessSave : Kernel (KernelState width Registers) Unit := do
  let state ← get
  onlyIf (state.currentProc ≠ none) do
    let node ← readNode state.currentProc
    callRW node.writeFunction (taskWriteFunction node)

/-- `CommitProcessLoad`. -/
def commitProcessLoad : Kernel (KernelState width Registers) Unit := do
  let state ← get
  onlyIf (state.currentProc ≠ none) do
    let node ← readNode state.currentProc
    callRW node.readFunction (taskReadFunction node)

/-- The body of the loop of `CommitNextProcess`: the next sibling, or the first child again. -/
def advanceProc : Kernel (KernelState width Registers) Pointer := do
  let state ← get
  match state.currentProc with
  | none =>
    let proc ← readNode state.proc
    pure proc.firstChild
  | some current =>
    match (state.node current).next with
    | none =>
      let proc ← readNode state.proc
      pure proc.firstChild
    | some next => pure (some next)

/-- The loop of `CommitNextProcess`. -/
def selectProc : (fuel : Nat) → Kernel (KernelState width Registers) Unit
  | 0 => throw .hang
  | fuel + 1 => do
    let selected ← advanceProc
    let state ← get
    set { state with currentProc := selected }
    onlyIf (selected = state.selfProc) do
      selectProc fuel

/-- `CommitNextProcess`. -/
def commitNextProcess (fuel : Nat) : Kernel (KernelState width Registers) Unit := do
  let state ← get
  set { state with ticks := state.ticks + 1 }
  selectProc fuel
  let state ← get
  writeNode state.selfProc fun self => { self with link := state.currentProc }
  commitProcessLoad

/-- `SchedulerCreateProcDir`. -/
def schedulerCreateProcDir (allocator : Allocator) : Kernel (KernelState width Registers) Unit := do
  let proc ← newVNode allocator (vfsSystem ||| vfsRead ||| vfsWrite)
  writeNode (some proc) fun node => { node with name := ⟨procDir, 4⟩ }
  registerChildVNode (some rootVNode) (some proc)
  let self ← newVNode allocator vfsSystem
  writeNode (some self) fun node => { node with name := ⟨cString ['s', 'e', 'l', 'f'], 4⟩ }
  let state ← get
  set { state with selfProc := some self }
  registerChildVNode (some proc) (some self)

/-- `UlToString`: the digits lie in a block of their own, which is never freed. -/
def ulToStringBlock (allocator : Allocator) (number : UInt64) :
    Kernel (KernelState width Registers) (List UInt8) := do
  let _ ← kalloc allocator
  pure (ulToString (width / 8) (number.toNat % 2 ^ width))

/-- The middle of `SchedulerCreateProc`: the new node and its task. -/
def makeProcess (allocator : Allocator) (initialState : Registers) :
    Kernel (KernelState width Registers) Address := do
  let new ← newVNode allocator (vfsSystem ||| vfsRead ||| vfsWrite)
  let data ← kalloc allocator
  writeNode (some new) fun node =>
    { node with driverData := some data, writeFunction := .task, readFunction := .task }
  let state ← get
  let digits ← ulToStringBlock allocator state.programIdentifier
  writeNode (some new) fun node => { node with name := ⟨digits, strnlen digits 32⟩ }
  let state ← get
  set { state.setTask data ⟨initialState, state.programIdentifier, ⟨none, none, -1⟩,
          some rootVNode⟩ with programIdentifier := state.programIdentifier + 1 }
  pure new

/-- `SchedulerCreateProc`. -/
def schedulerCreateProc (allocator : Allocator) (fuel : Nat) (initialState : Registers) :
    Kernel (KernelState width Registers) Address := do
  let state ← get
  let proc ← ofExcept (relativeFind state.node fuel (some rootVNode) procDir)
  set { state with proc := proc }
  let new ← makeProcess allocator initialState
  registerChildVNode proc (some new)
  pure new

/-- `SchedulerInitialise`, given the zero registers. -/
def schedulerInitialise (allocator : Allocator) (fuel : Nat) (zeroState : Registers) :
    Kernel (KernelState width Registers) Unit := do
  schedulerCreateProcDir allocator
  let first ← schedulerCreateProc allocator fuel zeroState
  let state ← get
  set { state with currentProc := some first }

/-- The search of `SchedulerExit` for the process before the current one. -/
def previousProc : (fuel : Nat) → Pointer → Kernel (KernelState width Registers) Pointer
  | 0, _ => throw .hang
  | _ + 1, none => pure none
  | fuel + 1, some prev => do
    let state ← get
    if (state.node prev).next = state.currentProc then pure (some prev)
    else previousProc fuel (state.node prev).next

/-- The first part of `SchedulerExit`: the current process is cut out of the children of
`/proc`. -/
def cutCurrentProc (fuel : Nat) : Kernel (KernelState width Registers) Unit := do
  let state ← get
  let proc ← readNode state.proc
  if proc.firstChild = state.currentProc then
    let current ← readNode state.currentProc
    writeNode state.proc fun proc => { proc with firstChild := current.next }
  else
    let prev ← previousProc fuel proc.firstChild
    onlyIf (prev ≠ none) do
      let current ← readNode state.currentProc
      writeNode prev fun prev => { prev with next := current.next }

/-- The loop of `SchedulerExit` over the descriptors. The link of an entry is read after `close`
has freed it. -/
def closeAll : (fuel : Nat) → Pointer → Kernel (KernelState width Registers) Unit
  | 0, _ => throw .hang
  | _ + 1, none => pure ()
  | fuel + 1, some desc => do
    let state ← get
    close fuel (state.entry desc).fileIndex
    let state ← get
    closeAll fuel (state.entry desc).next

/-- `SchedulerExit`, to the loop at its end. -/
def schedulerExit (fuel : Nat) : Kernel (KernelState width Registers) Unit := do
  cutCurrentProc fuel
  let task ← currentTask
  let state ← get
  closeAll fuel (state.task task).files.next
  kfree (some task)
  unregisterVNode state.currentProc
  deleteVNode fuel state.currentProc
  let state ← get
  set { state with currentProc := none }

end Unarddeg
