import Unarddeg.Kernel.Sched.ProcList

/-!
# The start of the scheduler

What `SchedulerInitialise` makes of the nodes that are there when it runs: `/proc` in front of the
children of the root, `self` below it, and the first process, which is the current one.
-/

namespace Unarddeg

open Library

variable {width : Nat} {Registers : Type}

/-- The nodes that are there before `SchedulerInitialise`. -/
structure Boot (boot : Finset Address) (state : KernelState width Registers) : Prop where
  /-- The root is one of them. -/
  root : rootVNode ∈ boot
  /-- None of them was freed. -/
  live : ∀ address ∈ boot, address ∈ state.live
  /-- The children of the root are in memory. -/
  rootPlain : hasFlag (state.node rootVNode).flags vfsOnDisk = false
  /-- Their first children are among them. -/
  firstChild : ∀ address ∈ boot, ∀ target, (state.node address).firstChild = some target →
    target ∈ boot
  /-- Their next siblings are among them. -/
  next : ∀ address ∈ boot, ∀ target, (state.node address).next = some target → target ∈ boot
  /-- Their previous siblings are among them. -/
  previous : ∀ address ∈ boot, ∀ target, (state.node address).previous = some target →
    target ∈ boot
  /-- The targets of their links are among them. -/
  link : ∀ address ∈ boot, ∀ target, (state.node address).link = some target → target ∈ boot

/-- The root alone is a boot. -/
theorem Boot.bareRoot (width : Nat) (registers : Registers) :
    Boot {rootVNode} (KernelState.bareRoot width registers) := by
  have none : ∀ field : VNode → Pointer, field (vNodeDefault width VNode.zero) = none →
      ∀ address ∈ ({rootVNode} : Finset Address), ∀ target,
        field ((KernelState.bareRoot width registers).node address) = some target →
          target ∈ ({rootVNode} : Finset Address) := by
    intro field null address member target points
    obtain rfl := Finset.mem_singleton.mp member
    rw [KernelState.bareRoot, KernelState.setNode_node, Function.update_self, null] at points
    cases points
  exact {
    root := Finset.mem_singleton_self _
    live := fun _ member => member
    rootPlain := by simp [KernelState.bareRoot, vNodeDefault, VNode.zero, hasFlag]
    firstChild := none VNode.firstChild rfl
    next := none VNode.next rfl
    previous := none VNode.previous rfl
    link := none VNode.link rfl }

/-- `/proc` as it is made. -/
def procNode (width : Nat) : VNode := { freshNode width processFlags with name := ⟨procDir, 4⟩ }

/-- `/proc/self` as it is made. -/
def selfNode (width : Nat) : VNode :=
  { freshNode width vfsSystem with name := ⟨cString ['s', 'e', 'l', 'f'], 4⟩ }

/-- The nodes after `SchedulerCreateProcDir`. -/
def dirNodes (width : Nat) (nodes : Address → VNode) (proc self : Address) : Address → VNode :=
  attach (Function.update
    (attach (Function.update nodes proc (procNode width)) rootVNode proc)
    self (selfNode width)) proc self

/-- The state after `SchedulerCreateProcDir`. -/
def KernelState.withDir (state : KernelState width Registers) (proc self : Address) :
    KernelState width Registers :=
  { state with
    node := dirNodes width state.node proc self
    entry := Function.update (Function.update state.entry proc (FileDescriptor.zero width)) self
      (FileDescriptor.zero width)
    live := insert self (insert proc state.live)
    selfProc := some self }

section Start

variable {before after : KernelState width Registers} {boot : Finset Address}
  {allocator : Allocator} {fuel : Nat} {result : Unit}

/-- `SchedulerCreateProcDir` makes `/proc` and `/proc/self` at two new addresses. -/
theorem schedulerCreateProcDir_ok
    (returned : schedulerCreateProcDir allocator before = .ok result after) :
    ∃ proc self, proc ∉ before.live ∧ self ∉ insert proc before.live ∧
      after = before.withDir proc self := by
  simp only [schedulerCreateProcDir, bind_ok, get_ok, set_ok, writeNode_ok] at returned
  obtain ⟨proc, _, procMade, _, _, ⟨_, here, rfl⟩, _, _, rooted, self, _, selfMade, _, _,
    ⟨_, there, rfl⟩, _, _, ⟨rfl, rfl⟩, _, _, rfl, registered⟩ := returned
  cases here
  cases there
  obtain ⟨procFresh, rfl⟩ := newVNode_ok procMade
  obtain rfl := registerChildVNode_ok rooted
  obtain ⟨selfFresh, rfl⟩ := newVNode_ok selfMade
  obtain rfl := registerChildVNode_ok registered
  refine ⟨proc, self, procFresh, selfFresh, ?_⟩
  simp only [KernelState.withDir, dirNodes, KernelState.setNode, KernelState.allocated,
    Function.update_idem, Function.update_self]
  rfl

/-- The addresses of the two new nodes are none of the nodes of the boot. -/
theorem Boot.apart (booted : Boot boot before) {proc self : Address}
    (procFresh : proc ∉ before.live)
    (selfFresh : self ∉ insert proc before.live) :
    (∀ address ∈ boot, address ≠ proc ∧ address ≠ self) ∧ self ≠ proc := by
  refine ⟨fun address member => ⟨?_, ?_⟩, ?_⟩
  · exact fun same => procFresh (same ▸ booted.live address member)
  · exact fun same => selfFresh (same ▸ Finset.mem_insert_of_mem (booted.live address member))
  · exact fun same => selfFresh (same ▸ Finset.mem_insert_self _ _)

section Dir

variable {proc self : Address}

/-- A node of the boot after `SchedulerCreateProcDir`. -/
theorem withDir_boot (booted : Boot boot before) (procFresh : proc ∉ before.live)
    (selfFresh : self ∉ insert proc before.live) {address : Address} (member : address ∈ boot) :
    (before.withDir proc self).node address =
      { before.node address with
        firstChild := if address = rootVNode then some proc
          else (before.node address).firstChild
        previous := if some address = (before.node rootVNode).firstChild then some proc
          else (before.node address).previous } := by
  obtain ⟨apart, other⟩ := booted.apart procFresh selfFresh
  have root := apart _ booted.root
  simp [KernelState.withDir, dirNodes, attach, apart address member, root.1, root.1.symm,
    other.symm, procNode, freshNode, vNodeDefault]

/-- `/proc` after `SchedulerCreateProcDir`. -/
theorem withDir_proc (booted : Boot boot before) (procFresh : proc ∉ before.live)
    (selfFresh : self ∉ insert proc before.live) :
    (before.withDir proc self).node proc =
      { procNode width with
        firstChild := some self
        next := (before.node rootVNode).firstChild } := by
  obtain ⟨apart, other⟩ := booted.apart procFresh selfFresh
  have root := apart _ booted.root
  have notFirst : some proc ≠ (before.node rootVNode).firstChild := fun same =>
    (apart _ (booted.firstChild _ booted.root _ same.symm)).1 rfl
  simp [KernelState.withDir, dirNodes, attach, root.1, root.1.symm, other.symm, procNode,
    freshNode, vNodeDefault, notFirst]

/-- `/proc/self` after `SchedulerCreateProcDir`. -/
theorem withDir_self (booted : Boot boot before) (procFresh : proc ∉ before.live)
    (selfFresh : self ∉ insert proc before.live) :
    (before.withDir proc self).node self = selfNode width := by
  obtain ⟨apart, other⟩ := booted.apart procFresh selfFresh
  have root := apart _ booted.root
  simp [KernelState.withDir, dirNodes, attach, root.1, root.1.symm, other, other.symm, procNode,
    selfNode, freshNode, vNodeDefault]

/-- After `SchedulerCreateProcDir` the list holds `self` alone. -/
theorem Boot.withDir (booted : Boot boot before) (procFresh : proc ∉ before.live)
    (selfFresh : self ∉ insert proc before.live) :
    Scheduled ⟨boot, proc, self⟩
      { before.withDir proc self with proc := some proc, currentProc := none } [] fun _ => 0 := by
  obtain ⟨apart, other⟩ := booted.apart procFresh selfFresh
  have root := withDir_boot booted procFresh selfFresh booted.root
  have dir := withDir_proc booted procFresh selfFresh
  have own := withDir_self booted procFresh selfFresh
  constructor
  · rfl
  · rfl
  · exact booted.root
  · dsimp only
    rw [root]
    simp
  · dsimp only
    rw [root]
    exact booted.rootPlain
  · dsimp only
    rw [dir]
    rfl
  · dsimp only
    rw [dir]
    exact (by decide : hasFlag processFlags vfsLink = false)
  · dsimp only
    rw [dir]
    exact ⟨rfl, congrArg VNode.next own⟩
  · exact ⟨congrArg VNode.previous own, trivial⟩
  · rintro address (member | rfl | rfl | none)
    · exact Finset.mem_insert_of_mem (Finset.mem_insert_of_mem (booted.live address member))
    · exact Finset.mem_insert_of_mem (Finset.mem_insert_self _ _)
    · exact Finset.mem_insert_self _ _
    · simp at none
  · exact fun member => (apart _ member).1 rfl
  · exact ⟨fun member => (apart _ member).2 rfl, other⟩
  · simp
  · simp
  · simp
  · simp
  · simp

end Dir

/-- After `SchedulerInitialise` the list holds the first process, which is the current one. -/
theorem schedulerInitialise_ok {zeroState : Registers} (booted : Boot boot before)
    (returned : schedulerInitialise allocator fuel zeroState before = .ok result after) :
    ∃ proc self first data block, proc ∉ before.live ∧ self ∉ insert proc before.live ∧
      FreshBlocks (before.withDir proc self).live first data block ∧
      after = { (before.withDir proc self).creating proc first data block zeroState with
        currentProc := some first } := by
  simp only [schedulerInitialise, bind_ok, get_ok, set_ok] at returned
  obtain ⟨_, _, made, first, _, created, _, _, ⟨rfl, rfl⟩, rfl⟩ := returned
  obtain ⟨proc, self, procFresh, selfFresh, rfl⟩ := schedulerCreateProcDir_ok made
  obtain ⟨rootFirst, rootPlain, procName, procPlain⟩ :=
    (booted.withDir procFresh selfFresh).found
  have there : ProcFound (before.withDir proc self) proc :=
    ⟨rootFirst, rootPlain, procName, procPlain⟩
  obtain ⟨data, block, fresh, rfl⟩ := schedulerCreateProc_ok there created
  exact ⟨proc, self, first, data, block, procFresh, selfFresh, fresh, rfl⟩

/-- The scheduler starts with one process. -/
theorem Boot.scheduled {zeroState : Registers} {proc self first data block : Address}
    (booted : Boot boot before) (procFresh : proc ∉ before.live)
    (selfFresh : self ∉ insert proc before.live)
    (fresh : FreshBlocks (before.withDir proc self).live first data block) :
    Scheduled ⟨boot, proc, self⟩
      { (before.withDir proc self).creating proc first data block zeroState with
        currentProc := some first } [first] (Function.update (fun _ => 0) first data) := by
  have made : Scheduled ⟨boot, proc, self⟩ (KernelState.creating { before.withDir proc self with
      proc := some proc, currentProc := none } proc first data block zeroState) [first] _ :=
    (booted.withDir procFresh selfFresh).create fresh
  refine made.congr rfl rfl (fun _ live _ => live) (fun _ _ => .refl _) fun process here => ?_
  exact List.mem_singleton.mpr (Option.some.inj here).symm

end Start

end Unarddeg
