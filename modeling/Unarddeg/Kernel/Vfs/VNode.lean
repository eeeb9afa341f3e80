import Unarddeg.Kernel.Panic
import Unarddeg.Kernel.String

/-!
# The data of the kernel and its node tree

`kernel/vfs/vnode.h`, `kernel/vfs/vfd.h`, `kernel/sched/core.h` and the tree operations of
`kernel/vfs/vnode.c`. Nodes, tasks and descriptor entries lie at addresses of one heap. `kalloc`
returns some address that is not handed out, zeroed; `kfree` only takes an address back and
leaves its bytes. An `Allocator` is any such strategy; every block here fits in one page, where
the page allocator is one.

The functions `ConstructChildren`, `DestroyChildren` and `RelativeFind` of a node are always the
defaults, so the node does not store them.
-/

namespace Unarddeg

/-- An address of the kernel heap or of a static object. -/
abbrev Address := Nat

/-- A pointer; `none` is `NULL`. -/
abbrev Pointer := Option Address

/-- A function stored in `ReadFunction` or `WriteFunction`. -/
inductive RWFunction
  /-- `DefaultReadFunction` or `DefaultWriteFunction`, which panic. -/
  | default
  /-- `TaskReadFunction` or `TaskWriteFunction`. -/
  | task
  /-- A function of a device driver. -/
  | driver
  deriving DecidableEq, Repr

/-- `VNodeFlags`. -/
abbrev VNodeFlags := BitVec 32

/-- `VFS_WRITE`. -/
def vfsWrite : VNodeFlags := 0x01
/-- `VFS_READ`. -/
def vfsRead : VNodeFlags := 0x02
/-- `VFS_SYSTEM`. -/
def vfsSystem : VNodeFlags := 0x08
/-- `VFS_LINK`. -/
def vfsLink : VNodeFlags := 0x10
/-- `VFS_OPENED`. -/
def vfsOpened : VNodeFlags := 0x40
/-- `VFS_ONDISK`. -/
def vfsOnDisk : VNodeFlags := 0x80
/-- `VFS_DELETE`. -/
def vfsDelete : VNodeFlags := 0x100

/-- `Flags & Mask`, as a condition. -/
def hasFlag (flags mask : VNodeFlags) : Bool := flags &&& mask != 0

/-- `VNodeString`. -/
structure VNodeString where
  /-- The bytes behind `Name`. -/
  name : List UInt8
  /-- `Length`. -/
  length : Nat
  deriving DecidableEq, Repr

/-- `VNode`. -/
structure VNode where
  /-- `Name`. -/
  name : VNodeString
  /-- `Parent`. -/
  parent : Pointer
  /-- `FirstChild`. -/
  firstChild : Pointer
  /-- `Next`. -/
  next : Pointer
  /-- `Previous`. -/
  previous : Pointer
  /-- `Link`. -/
  link : Pointer
  /-- `DriverData`. -/
  driverData : Pointer
  /-- `ReadFunction`. -/
  readFunction : RWFunction
  /-- `WriteFunction`. -/
  writeFunction : RWFunction
  /-- `Flags`. -/
  flags : VNodeFlags
  /-- `FileOffset`. -/
  fileOffset : Int
  deriving DecidableEq, Repr

/-- A node of zero bytes. -/
def VNode.zero : VNode :=
  { name := ⟨[], 0⟩, parent := none, firstChild := none, next := none, previous := none,
    link := none, driverData := none, readFunction := .default, writeFunction := .default,
    flags := 0, fileOffset := 0 }

/-- `_FileDescriptor`, an entry of a descriptor list. -/
structure FileDescriptor (width : Nat) where
  /-- `Reference`. -/
  reference : Pointer
  /-- `Next`. -/
  next : Pointer
  /-- `FileIndex`, an `unsigned long`. -/
  fileIndex : BitVec width
  deriving DecidableEq, Repr

/-- An entry of zero bytes. -/
def FileDescriptor.zero (width : Nat) : FileDescriptor width := ⟨none, none, 0⟩

/-- `Task`, over the register block of the architecture. -/
structure Task (width : Nat) (Registers : Type) where
  /-- `Registers`. -/
  registers : Registers
  /-- `ProgramIdentifier`. -/
  programIdentifier : UInt64
  /-- `Files`, the head of the descriptor list. -/
  files : FileDescriptor width
  /-- `BaseDir`. -/
  baseDir : Pointer

/-- The state of the kernel: the heap, the globals and the static counters. -/
structure KernelState (width : Nat) (Registers : Type) where
  /-- The node at an address. -/
  node : Address → VNode
  /-- The task at an address. -/
  task : Address → Task width Registers
  /-- The descriptor entry at an address. -/
  entry : Address → FileDescriptor width
  /-- The addresses handed out, and those of static objects, that were not passed to `kfree`. -/
  live : Finset Address
  /-- `CurrentProc`. -/
  currentProc : Pointer
  /-- `Proc`. -/
  proc : Pointer
  /-- `SelfProc`. -/
  selfProc : Pointer
  /-- The registers of `ScratchProc`. -/
  scratchProc : Registers
  /-- `Ticks`. -/
  ticks : UInt64
  /-- `Current`, the static counter of `CreateEntry`. -/
  current : BitVec width
  /-- `ProgramIdentifier`, the static counter of `SchedulerCreateProc`. -/
  programIdentifier : UInt64

/-- A strategy of `kalloc`: it never returns an address that is handed out. -/
structure Allocator where
  /-- The address returned when the given ones are handed out; none when memory ran out. -/
  pick : Finset Address → Option Address
  /-- The returned address was free. -/
  fresh : ∀ live address, pick live = some address → address ∉ live

/-- The strategy that takes the address after the greatest one handed out. -/
def Allocator.next : Allocator where
  pick live := some (live.sup id + 1)
  fresh live address picked member := by
    obtain rfl := Option.some.inj picked
    have bound : live.sup id + 1 ≤ live.sup id := Finset.le_sup (f := id) member
    exact Nat.not_succ_le_self _ bound

/-- `RootVNode()`: the address of the static `Root`. -/
def rootVNode : Address := 0

/-- The zeroed kernel, before anything runs. -/
def KernelState.zero (width : Nat) {Registers : Type} (registers : Registers) :
    KernelState width Registers where
  node _ := VNode.zero
  task _ := ⟨registers, 0, FileDescriptor.zero width, none⟩
  entry _ := FileDescriptor.zero width
  live := {rootVNode}
  currentProc := none
  proc := none
  selfProc := none
  scratchProc := registers
  ticks := 0
  current := 0
  programIdentifier := 0

variable {width : Nat} {Registers : Type}

/-- The state with another node at an address. -/
def KernelState.setNode (state : KernelState width Registers) (address : Address)
    (node : VNode) : KernelState width Registers :=
  { state with node := Function.update state.node address node }

/-- Another node changes the nodes only. -/
@[simp] theorem KernelState.setNode_node (state : KernelState width Registers)
    (address : Address) (node : VNode) :
    (state.setNode address node).node = Function.update state.node address node := rfl

/-- `VNodeDefault` on a node: every field it assigns. The length is the size of a pointer. -/
def vNodeDefault (width : Nat) (node : VNode) : VNode :=
  { node with
    readFunction := .default
    writeFunction := .default
    name := ⟨cString ['~', 'U', 'n', 'k', 'n', 'o', 'w', 'n', 'V', 'N', 'o', 'd', 'e'], width / 8⟩
    link := none
    parent := none
    next := none
    previous := none
    firstChild := none
    driverData := none }

/-- The kernel whose root is initialised and has no children. -/
def KernelState.bareRoot (width : Nat) {Registers : Type} (registers : Registers) :
    KernelState width Registers :=
  (KernelState.zero width registers).setNode rootVNode (vNodeDefault width VNode.zero)

/-- Follow a pointer. -/
def deref (pointer : Pointer) : Kernel (KernelState width Registers) Address :=
  match pointer with
  | none => throw .nullAccess
  | some address => pure address

/-- Read the node behind a pointer. -/
def readNode (pointer : Pointer) : Kernel (KernelState width Registers) VNode := do
  let address ← deref pointer
  let state ← get
  pure (state.node address)

/-- Assign to fields of the node behind a pointer. -/
def writeNode (pointer : Pointer) (assign : VNode → VNode) :
    Kernel (KernelState width Registers) Unit := do
  let address ← deref pointer
  modify fun state => state.setNode address (assign (state.node address))

/-- The state after `kalloc` hands out an address: the block behind it is zero. -/
def KernelState.allocated (state : KernelState width Registers) (address : Address) :
    KernelState width Registers :=
  { state with
    live := insert address state.live
    node := Function.update state.node address VNode.zero
    entry := Function.update state.entry address (FileDescriptor.zero width) }

/-- `kalloc` of a block that fits in one page. The block is zero; of a task no field is read
before it is assigned. -/
def kalloc (allocator : Allocator) : Kernel (KernelState width Registers) Address := do
  let state ← get
  match allocator.pick state.live with
  | none => panicWith .ranOutOfMemory
  | some address =>
    set (state.allocated address)
    pure address

/-- `kfree`. -/
def kfree (pointer : Pointer) : Kernel (KernelState width Registers) Unit := do
  panicIf (pointer = none) .nullPointerDereference
  let address ← deref pointer
  modify fun state => { state with live := state.live.erase address }

/-- `NewVNode`. -/
def newVNode (allocator : Allocator) (flags : VNodeFlags) :
    Kernel (KernelState width Registers) Address := do
  let newNode ← kalloc allocator
  writeNode (some newNode) fun node => { node with flags := flags }
  writeNode (some newNode) fun node => { node with fileOffset := 0 }
  writeNode (some newNode) (vNodeDefault width)
  pure newNode

/-- `RegisterChildVNode`. -/
def registerChildVNode (parent child : Pointer) : Kernel (KernelState width Registers) Unit := do
  panicIf (parent = none) .nullPointerDereference
  panicIf (child = none) .nullPointerDereference
  let parentNode ← readNode parent
  onlyIf (parentNode.firstChild ≠ none) do
    writeNode parentNode.firstChild fun node => { node with previous := child }
  let parentNode ← readNode parent
  writeNode child fun node => { node with next := parentNode.firstChild }
  writeNode parent fun node => { node with firstChild := child }

/-- `RegisterSiblingVNode`. -/
def registerSiblingVNode (base child : Pointer) : Kernel (KernelState width Registers) Unit := do
  panicIf (base = none) .nullPointerDereference
  panicIf (child = none) .nullPointerDereference
  let baseNode ← readNode base
  onlyIf (baseNode.next ≠ none) do
    writeNode baseNode.next fun node => { node with previous := child }
  let baseNode ← readNode base
  writeNode child fun node => { node with next := baseNode.next }
  writeNode base fun node => { node with next := child }

/-- `SEEK_SET`. -/
def seekSet : Int := 0
/-- `SEEK_CUR`. -/
def seekCur : Int := 1
/-- `SEEK_END`. -/
def seekEnd : Int := 2

/-- `VNodeSeek`. -/
def vNodeSeek (pointer : Pointer) (offset type : Int) : Kernel (KernelState width Registers) Unit :=
  if type = seekSet then
    writeNode pointer fun node => { node with fileOffset := offset }
  else if type = seekCur then
    writeNode pointer fun node => { node with fileOffset := node.fileOffset + offset }
  else if type = seekEnd then
    panicWith .todo
  else
    pure ()

/-- `UnregisterVNode`. -/
def unregisterVNode (pointer : Pointer) : Kernel (KernelState width Registers) Unit := do
  panicIf (pointer = none) .nullPointerDereference
  let node ← readNode pointer
  onlyIf (node.previous ≠ none) do
    writeNode node.previous fun previous => { previous with next := node.next }
  let node ← readNode pointer
  onlyIf (node.next ≠ none) do
    writeNode node.next fun next => { next with previous := node.previous }
  let node ← readNode pointer
  onlyIf (node.parent ≠ none) do
    let parentNode ← readNode node.parent
    onlyIf (parentNode.firstChild = pointer) do
      writeNode node.parent fun parent => { parent with firstChild := node.next }
  writeNode pointer fun node => { node with next := none, previous := none, parent := none }

/-- `DeleteVNode`. The recursion follows `FirstChild` and `Next`; `fuel` bounds the nodes visited
on one path of it, and a longer path does not end within the bound. -/
def deleteVNode : (fuel : Nat) → Pointer → Kernel (KernelState width Registers) Unit
  | 0, _ => throw .hang
  | fuel + 1, pointer => do
    panicIf (pointer = none) .nullPointerDereference
    let node ← readNode pointer
    deleteChildren fuel node.firstChild
    kfree pointer
where
  /-- The loop over the children of a node. -/
  deleteChildren : (fuel : Nat) → Pointer → Kernel (KernelState width Registers) Unit
    | 0, _ => throw .hang
    | _ + 1, none => pure ()
    | fuel + 1, some child => do
      let node ← readNode (some child)
      deleteVNode fuel (some child)
      deleteChildren fuel node.next

/-! ## What the operations return -/

open Library

/-- Following a pointer returns exactly when it is not null. -/
@[simp] theorem deref_ok {pointer : Pointer} {before after : KernelState width Registers}
    {result : Address} :
    deref pointer before = .ok result after ↔ pointer = some result ∧ before = after := by
  cases pointer <;> simp [deref, throw_ok, pure_ok]

/-- Reading a node changes nothing. -/
@[simp] theorem readNode_ok {pointer : Pointer} {before after : KernelState width Registers}
    {result : VNode} :
    readNode pointer before = .ok result after ↔
      ∃ address, pointer = some address ∧ before.node address = result ∧ before = after := by
  simp only [readNode, bind_ok, deref_ok, get_ok, pure_ok]
  constructor
  · rintro ⟨address, _, ⟨rfl, rfl⟩, _, _, ⟨rfl, rfl⟩, rfl, rfl⟩
    exact ⟨address, rfl, rfl, rfl⟩
  · rintro ⟨address, rfl, rfl, rfl⟩
    exact ⟨address, _, ⟨rfl, rfl⟩, _, _, ⟨rfl, rfl⟩, rfl, rfl⟩

/-- Assigning to a node changes that node only. -/
@[simp] theorem writeNode_ok {pointer : Pointer} {assign : VNode → VNode}
    {before after : KernelState width Registers} {result : Unit} :
    writeNode pointer assign before = .ok result after ↔
      ∃ address, pointer = some address ∧
        before.setNode address (assign (before.node address)) = after := by
  simp only [writeNode, bind_ok, deref_ok, modify_ok]
  constructor
  · rintro ⟨address, _, ⟨rfl, rfl⟩, rfl⟩
    exact ⟨address, rfl, rfl⟩
  · rintro ⟨address, rfl, rfl⟩
    exact ⟨address, _, ⟨rfl, rfl⟩, rfl⟩

/-- The nodes after an assignment to the node behind a pointer, if there is one. -/
def assignAt (nodes : Address → VNode) (pointer : Pointer) (assign : VNode → VNode)
    (address : Address) : VNode :=
  if pointer = some address then assign (nodes address) else nodes address

/-- An assignment that a null test guards always returns. -/
theorem guarded_writeNode_ok {pointer : Pointer} {assign : VNode → VNode}
    {before after : KernelState width Registers} {result : Unit} :
    onlyIf (pointer ≠ none) (writeNode pointer assign) before = .ok result after ↔
      { before with node := assignAt before.node pointer assign } = after := by
  cases pointer with
  | none =>
    have same : assignAt before.node none assign = before.node := by
      funext address
      simp [assignAt]
    simp [same]
  | some target =>
    have same : assignAt before.node (some target) assign =
        Function.update before.node target (assign (before.node target)) := by
      funext address
      simp only [assignAt, Option.some.injEq, Function.update_apply, eq_comm (a := target)]
      split_ifs with here
      · rw [here]
      · rfl
    simp [same, KernelState.setNode]

/-- `kalloc` returns a free address and hands it out; the block is zero. -/
theorem kalloc_ok {allocator : Allocator} {before after : KernelState width Registers}
    {address : Address} (returned : kalloc allocator before = .ok address after) :
    address ∉ before.live ∧ before.allocated address = after := by
  simp only [kalloc, bind_ok, get_ok] at returned
  obtain ⟨_, _, ⟨rfl, rfl⟩, picked⟩ := returned
  cases choice : allocator.pick before.live with
  | none => simp [choice] at picked
  | some free =>
    simp only [choice, bind_ok, set_ok, pure_ok] at picked
    obtain ⟨_, _, rfl, rfl, rfl⟩ := picked
    exact ⟨allocator.fresh _ _ choice, rfl⟩

/-- `kfree` takes an address back and keeps its bytes. -/
@[simp] theorem kfree_ok {pointer : Pointer} {before after : KernelState width Registers}
    {result : Unit} :
    kfree pointer before = .ok result after ↔
      ∃ address, pointer = some address ∧
        { before with live := before.live.erase address } = after := by
  simp only [kfree, bind_ok, panicIf_ok, deref_ok, modify_ok]
  constructor
  · rintro ⟨_, _, ⟨_, rfl⟩, address, _, ⟨rfl, rfl⟩, rfl⟩
    exact ⟨address, rfl, rfl⟩
  · rintro ⟨address, rfl, rfl⟩
    exact ⟨(), _, ⟨by simp, rfl⟩, address, _, ⟨rfl, rfl⟩, rfl⟩

/-- The node that `NewVNode` makes. -/
def freshNode (width : Nat) (flags : VNodeFlags) : VNode :=
  vNodeDefault width { VNode.zero with flags := flags }

/-- `NewVNode` returns a new node without any link. -/
theorem newVNode_ok {allocator : Allocator} {flags : VNodeFlags}
    {before after : KernelState width Registers} {address : Address}
    (returned : newVNode allocator flags before = .ok address after) :
    address ∉ before.live ∧
      (before.allocated address).setNode address (freshNode width flags) = after := by
  simp only [newVNode, bind_ok, writeNode_ok, pure_ok] at returned
  obtain ⟨new, made, allocated, _, _, ⟨_, flagged, rfl⟩, _, _, ⟨_, offset, rfl⟩, _, _,
    ⟨_, defaults, rfl⟩, rfl, rfl⟩ := returned
  obtain ⟨free, rfl⟩ := kalloc_ok allocated
  cases flagged
  cases offset
  cases defaults
  refine ⟨free, ?_⟩
  simp only [KernelState.setNode, KernelState.allocated, Function.update_self,
    Function.update_idem]
  rfl

/-- The nodes after `RegisterChildVNode`: the child is put before the first child. -/
def attach (nodes : Address → VNode) (parent child : Address) (address : Address) : VNode :=
  { nodes address with
    firstChild := if address = parent then some child else (nodes address).firstChild
    next := if address = child then (nodes parent).firstChild else (nodes address).next
    previous :=
      if some address = (nodes parent).firstChild then some child
      else (nodes address).previous }

/-- `RegisterChildVNode` puts the child before the first child and changes nothing else. -/
theorem registerChildVNode_ok {parent child : Address}
    {before after : KernelState width Registers} {result : Unit}
    (returned : registerChildVNode (some parent) (some child) before = .ok result after) :
    after = { before with node := attach before.node parent child } := by
  simp only [registerChildVNode, bind_ok, panicIf_ok, readNode_ok, writeNode_ok,
    guarded_writeNode_ok] at returned
  obtain ⟨_, _, ⟨_, rfl⟩, _, _, ⟨_, rfl⟩, _, _, ⟨_, same, rfl, rfl⟩, _, _, rfl, _, _,
    ⟨_, again, rfl, rfl⟩, _, _, ⟨_, here, rfl⟩, _, there, rfl⟩ := returned
  cases same
  cases again
  cases here
  cases there
  simp only [KernelState.setNode]
  congr 1
  funext address
  simp only [attach, assignAt, Function.update_apply]
  split_ifs <;> simp_all

/-- The nodes after `RegisterSiblingVNode`: the child is put behind the base. -/
def attachBehind (nodes : Address → VNode) (base child : Address) (address : Address) : VNode :=
  { nodes address with
    next :=
      if address = base then some child
      else if address = child then (nodes base).next
      else (nodes address).next
    previous :=
      if some address = (nodes base).next then some child
      else (nodes address).previous }

/-- `RegisterSiblingVNode` puts the child behind the base and changes nothing else. -/
theorem registerSiblingVNode_ok {base child : Address}
    {before after : KernelState width Registers} {result : Unit}
    (returned : registerSiblingVNode (some base) (some child) before = .ok result after) :
    after = { before with node := attachBehind before.node base child } := by
  simp only [registerSiblingVNode, bind_ok, panicIf_ok, readNode_ok, writeNode_ok,
    guarded_writeNode_ok] at returned
  obtain ⟨_, _, ⟨_, rfl⟩, _, _, ⟨_, rfl⟩, _, _, ⟨_, same, rfl, rfl⟩, _, _, rfl, _, _,
    ⟨_, again, rfl, rfl⟩, _, _, ⟨_, here, rfl⟩, _, there, rfl⟩ := returned
  cases same
  cases again
  cases here
  cases there
  simp only [KernelState.setNode]
  congr 1
  funext address
  simp only [attachBehind, assignAt, Function.update_apply]
  split_ifs <;> simp_all

/-- The nodes after `UnregisterVNode` of a node without a parent link: its neighbours are linked
to each other. -/
def detach (nodes : Address → VNode) (node : Address) (address : Address) : VNode :=
  { nodes address with
    next :=
      if address = node then none
      else if some address = (nodes node).previous then (nodes node).next
      else (nodes address).next
    previous :=
      if address = node then none
      else if some address = (nodes node).next then (nodes node).previous
      else (nodes address).previous }

/-- `UnregisterVNode` of a node that is not its own neighbour and has no parent link. -/
theorem unregisterVNode_ok {node : Address} {before after : KernelState width Registers}
    {result : Unit} (orphan : (before.node node).parent = none)
    (notPrevious : (before.node node).previous ≠ some node)
    (notNext : (before.node node).next ≠ some node)
    (returned : unregisterVNode (some node) before = .ok result after) :
    after = { before with node := detach before.node node } := by
  simp only [unregisterVNode, bind_ok, panicIf_ok, readNode_ok, writeNode_ok,
    guarded_writeNode_ok] at returned
  obtain ⟨_, _, ⟨_, rfl⟩, _, _, ⟨_, one, rfl, rfl⟩, _, _, rfl, _, _, ⟨_, two, rfl, rfl⟩, _, _,
    rfl, _, _, ⟨_, three, rfl, rfl⟩, _, _, up, _, four, rfl⟩ := returned
  cases one
  cases two
  cases three
  cases four
  -- The neighbours are other nodes, so the node is read unchanged each time.
  have first : assignAt before.node (before.node node).previous
      (fun previous => { previous with next := (before.node node).next }) node =
        before.node node := by
    rw [assignAt, if_neg notPrevious]
  simp only [first] at up
  have second : assignAt (assignAt before.node (before.node node).previous
      (fun previous => { previous with next := (before.node node).next }))
      (before.node node).next
      (fun next => { next with previous := (before.node node).previous }) node =
        before.node node := by
    rw [assignAt, if_neg notNext, first]
  simp only [second, orphan, onlyIf_ok, ne_eq, not_true_eq_false, false_and, not_false_eq_true,
    true_and, false_or] at up
  subst up
  simp only [KernelState.setNode]
  congr 1
  funext address
  by_cases self : address = node
  · subst self
    simp [second, detach, orphan]
  · rw [Function.update_of_ne self]
    simp only [detach, assignAt, if_neg self, eq_comm (b := some address)]
    split_ifs <;> simp_all

end Unarddeg
