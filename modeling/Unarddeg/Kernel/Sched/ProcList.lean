import Unarddeg.Kernel.Sched.Core
import Unarddeg.Library.RoundRobin

/-!
# The process list

What the scheduler keeps about the children of `/proc`, and what each of its functions does to a
state that keeps it. The children are the processes, newest first, and then the node `self`; the
links lead both ways; each process has a task of its own behind its node.

`SchedulerExit` cuts the current process out of the list by hand and unregisters it afterwards;
`schedulerExit_ok` says what the two edits and the closing loop leave.
-/

namespace Unarddeg

open Library

variable {width : Nat} {Registers : Type}

/-- The nodes that stay for a whole run: those of the boot, `/proc` and `/proc/self`. -/
structure Layout where
  /-- The nodes that were there before `SchedulerInitialise`. -/
  boot : Finset Address
  /-- `/proc`. -/
  proc : Address
  /-- `/proc/self`. -/
  self : Address

/-- A node that stays, or the node of a process. -/
def Layout.IsNode (layout : Layout) (procs : List Address) (address : Address) : Prop :=
  address ∈ layout.boot ∨ address = layout.proc ∨ address = layout.self ∨ address ∈ procs

/-- The next sibling of a node. -/
def KernelState.nextOf (state : KernelState width Registers) (address : Address) : Pointer :=
  (state.node address).next

/-- The previous sibling of a node. -/
def KernelState.previousOf (state : KernelState width Registers) (address : Address) : Pointer :=
  (state.node address).previous

/-- The children of `/proc`. -/
def KernelState.ProcChildren (state : KernelState width Registers) (children : List Address) :
    Prop :=
  ∃ proc, state.proc = some proc ∧
    Segment state.nextOf (state.node proc).firstChild children none

/-- `/proc` has one list of children. -/
theorem KernelState.ProcChildren.unique {state : KernelState width Registers}
    {left right : List Address} (first : state.ProcChildren left)
    (second : state.ProcChildren right) : left = right := by
  obtain ⟨proc, here, segment⟩ := first
  obtain ⟨_, there, segment'⟩ := second
  obtain rfl := Option.some.inj (here.symm.trans there)
  exact segment.unique segment'

/-- What `SchedulerCreateProc` gives to the node of a process, and nobody takes away. -/
structure ProcNode (node : VNode) (task : Address) : Prop where
  /-- The node has no children. -/
  firstChild : node.firstChild = none
  /-- The node has no parent link. -/
  parent : node.parent = none
  /-- The node is written as a task. -/
  writeFunction : node.writeFunction = .task
  /-- The node is read as a task. -/
  readFunction : node.readFunction = .task
  /-- The task of the process. -/
  driverData : node.driverData = some task

/-- The invariant of the scheduler: the processes are `procs`, newest first. -/
structure Scheduled (layout : Layout) (state : KernelState width Registers)
    (procs : List Address) (taskOf : Address → Address) : Prop where
  /-- `Proc` points to `/proc`. -/
  proc : state.proc = some layout.proc
  /-- `SelfProc` points to `/proc/self`. -/
  selfProc : state.selfProc = some layout.self
  /-- The root was there at boot. -/
  root : rootVNode ∈ layout.boot
  /-- `/proc` is the first child of the root. -/
  rootFirst : (state.node rootVNode).firstChild = some layout.proc
  /-- The children of the root are in memory. -/
  rootPlain : hasFlag (state.node rootVNode).flags vfsOnDisk = false
  /-- `/proc` has its name. -/
  procName : (state.node layout.proc).name = ⟨procDir, 4⟩
  /-- `/proc` is no link. -/
  procPlain : hasFlag (state.node layout.proc).flags vfsLink = false
  /-- The forward links of the children of `/proc`. -/
  children : Segment state.nextOf (state.node layout.proc).firstChild (procs ++ [layout.self]) none
  /-- The backward links of the children of `/proc`. -/
  back : Backlinked state.previousOf none (procs ++ [layout.self])
  /-- No node was freed. -/
  live : ∀ address, layout.IsNode procs address → address ∈ state.live
  /-- `/proc` was not there at boot. -/
  procApart : layout.proc ∉ layout.boot
  /-- `/proc/self` was not there at boot and is not `/proc`. -/
  selfApart : layout.self ∉ layout.boot ∧ layout.self ≠ layout.proc
  /-- A process is none of the nodes that stay. -/
  procsApart : ∀ process ∈ procs, process ∉ layout.boot ∧ process ≠ layout.proc
  /-- Each process has a node of its kind. -/
  node : ∀ process ∈ procs, ProcNode (state.node process) (taskOf process)
  /-- The task of a process was not freed and is no node. -/
  task : ∀ process ∈ procs, taskOf process ∈ state.live ∧ ¬ layout.IsNode procs (taskOf process)
  /-- No two processes share a task. -/
  distinct : ∀ left ∈ procs, ∀ right ∈ procs, taskOf left = taskOf right → left = right
  /-- The current process, if any, is one of the processes. -/
  current : ∀ process, state.currentProc = some process → process ∈ procs

namespace Scheduled

variable {layout : Layout} {state : KernelState width Registers} {procs : List Address}
  {taskOf : Address → Address}

/-- No process stands twice in the list, and none is `self`. -/
theorem nodup (scheduled : Scheduled layout state procs taskOf) :
    (procs ++ [layout.self]).Nodup :=
  scheduled.children.nodup

/-- No process is `self`. -/
theorem ne_self (scheduled : Scheduled layout state procs taskOf) {process : Address}
    (member : process ∈ procs) : process ≠ layout.self := fun same =>
  (List.nodup_append.mp scheduled.nodup).2.2 process member layout.self
    (List.mem_singleton_self _) same

/-- The children of `/proc` are the processes and `self`. -/
theorem procChildren (scheduled : Scheduled layout state procs taskOf) :
    state.ProcChildren (procs ++ [layout.self]) :=
  ⟨layout.proc, scheduled.proc, scheduled.children⟩

/-- The first child of `/proc`. -/
theorem first (scheduled : Scheduled layout state procs taskOf) :
    (state.node layout.proc).firstChild = some (procs.headD layout.self) := by
  have start := scheduled.children.start_eq
  cases procs <;> simpa using start

/-- The first child is the head of the list. -/
theorem first_iff (scheduled : Scheduled layout state procs taskOf) {address : Address} :
    some address = (state.node layout.proc).firstChild ↔
      (procs ++ [layout.self]).head? = some address := by
  rw [scheduled.first]
  cases procs <;> simp [eq_comm]

/-- The node behind a process. -/
theorem next {front rest : List Address} {process : Address}
    (scheduled : Scheduled layout state (front ++ process :: rest) taskOf) :
    (state.node process).next = some (rest.headD layout.self) := by
  have children := scheduled.children
  rw [List.append_assoc, List.cons_append] at children
  have following : (state.node process).next = ((rest ++ [layout.self]).head?).or none :=
    children.next_eq
  rw [following]
  cases rest <;> rfl

/-- The node `self` is the last child. -/
theorem self_next (scheduled : Scheduled layout state procs taskOf) :
    (state.node layout.self).next = none := scheduled.children.next_eq

end Scheduled

/-! ## Changes that keep the list -/

/-- Two contents of a node that the scheduler does not tell apart. -/
structure SameShape (left right : VNode) : Prop where
  /-- The names agree. -/
  name : right.name = left.name
  /-- The parents agree. -/
  parent : right.parent = left.parent
  /-- The first children agree. -/
  firstChild : right.firstChild = left.firstChild
  /-- The next siblings agree. -/
  next : right.next = left.next
  /-- The previous siblings agree. -/
  previous : right.previous = left.previous
  /-- The tasks agree. -/
  driverData : right.driverData = left.driverData
  /-- The read functions agree. -/
  readFunction : right.readFunction = left.readFunction
  /-- The write functions agree. -/
  writeFunction : right.writeFunction = left.writeFunction
  /-- Both or neither have their children on disk. -/
  onDisk : hasFlag right.flags vfsOnDisk = hasFlag left.flags vfsOnDisk
  /-- Both or neither are links. -/
  isLink : hasFlag right.flags vfsLink = hasFlag left.flags vfsLink

/-- Every node has its own shape. -/
theorem SameShape.refl (node : VNode) : SameShape node node :=
  ⟨rfl, rfl, rfl, rfl, rfl, rfl, rfl, rfl, rfl, rfl⟩

/-- The mark of an opened node is no part of its shape. -/
theorem SameShape.opened (node : VNode) : SameShape node node.opened :=
  ⟨rfl, rfl, rfl, rfl, rfl, rfl, rfl, rfl, hasFlag_opened (by decide) node,
    hasFlag_opened (by decide) node⟩

/-- The mark of an opened node is no part of its shape. -/
theorem SameShape.closed (node : VNode) : SameShape node node.closed :=
  ⟨rfl, rfl, rfl, rfl, rfl, rfl, rfl, rfl, hasFlag_closed (by decide) node,
    hasFlag_closed (by decide) node⟩

/-- The target of a link is no part of its shape. -/
theorem SameShape.linked (node : VNode) (target : Pointer) :
    SameShape node { node with link := target } :=
  ⟨rfl, rfl, rfl, rfl, rfl, rfl, rfl, rfl, rfl, rfl⟩

/-- A child of `/proc` is a node. -/
theorem Layout.isNode_child {layout : Layout} {procs : List Address} {address : Address}
    (member : address ∈ procs ++ [layout.self]) : layout.IsNode procs address := by
  rcases List.mem_append.mp member with process | self
  · exact .inr (.inr (.inr process))
  · exact .inr (.inr (.inl (List.mem_singleton.mp self)))

/-- A change that keeps the shapes of the nodes and frees no node and no task keeps the list. -/
theorem Scheduled.congr {layout : Layout} {before after : KernelState width Registers}
    {procs : List Address} {taskOf : Address → Address}
    (scheduled : Scheduled layout before procs taskOf) (proc : after.proc = before.proc)
    (selfProc : after.selfProc = before.selfProc)
    (live : ∀ address ∈ before.live, layout.IsNode procs address ∨
      (∃ process ∈ procs, taskOf process = address) → address ∈ after.live)
    (nodes : ∀ address, layout.IsNode procs address →
      SameShape (before.node address) (after.node address))
    (current : ∀ process, after.currentProc = some process → process ∈ procs) :
    Scheduled layout after procs taskOf := by
  have rootShape := nodes rootVNode (.inl scheduled.root)
  have procShape := nodes layout.proc (.inr (.inl rfl))
  exact {
    proc := proc.trans scheduled.proc
    selfProc := selfProc.trans scheduled.selfProc
    root := scheduled.root
    rootFirst := rootShape.firstChild.trans scheduled.rootFirst
    rootPlain := rootShape.onDisk.trans scheduled.rootPlain
    procName := procShape.name.trans scheduled.procName
    procPlain := procShape.isLink.trans scheduled.procPlain
    children := by
      rw [procShape.firstChild]
      exact scheduled.children.congr fun _ member => (nodes _ (Layout.isNode_child member)).next
    back := scheduled.back.congr fun _ member => (nodes _ (Layout.isNode_child member)).previous
    live := fun address known => live address (scheduled.live address known) (.inl known)
    procApart := scheduled.procApart
    selfApart := scheduled.selfApart
    procsApart := scheduled.procsApart
    node := fun process member => by
      have shape := nodes process (.inr (.inr (.inr member)))
      have node := scheduled.node process member
      exact ⟨shape.firstChild.trans node.firstChild, shape.parent.trans node.parent,
        shape.writeFunction.trans node.writeFunction, shape.readFunction.trans node.readFunction,
        shape.driverData.trans node.driverData⟩
    task := fun process member =>
      ⟨live _ (scheduled.task process member).1 (.inr ⟨process, member, rfl⟩),
        (scheduled.task process member).2⟩
    distinct := scheduled.distinct
    current := current }

/-! ## Selection -/

section Select

variable {layout : Layout} {before after : KernelState width Registers} {procs : List Address}
  {taskOf : Address → Address} {fuel : Nat} {result : Unit}

/-- From no process, or from `self`, the loop moves to the first child. -/
theorem advanceProc_first (scheduled : Scheduled layout before procs taskOf) {cursor : Pointer}
    (restart : cursor = none ∨ cursor = some layout.self) {selected : Pointer}
    (returned : advanceProc { before with currentProc := cursor } = .ok selected after) :
    { before with currentProc := cursor } = after ∧
      selected = some (procs.headD layout.self) := by
  have first := scheduled.first
  rcases restart with rfl | rfl
  · simp only [advanceProc, bind_ok, get_ok] at returned
    obtain ⟨_, _, ⟨rfl, rfl⟩, moved⟩ := returned
    simp only [bind_ok, readNode_ok, pure_ok] at moved
    obtain ⟨_, _, ⟨proc, points, rfl, rfl⟩, rfl, rfl⟩ := moved
    obtain rfl := Option.some.inj (scheduled.proc.symm.trans points)
    exact ⟨rfl, first⟩
  · simp only [advanceProc, bind_ok, get_ok] at returned
    obtain ⟨_, _, ⟨rfl, rfl⟩, moved⟩ := returned
    simp only [scheduled.self_next, bind_ok, readNode_ok, pure_ok] at moved
    obtain ⟨_, _, ⟨proc, points, rfl, rfl⟩, rfl, rfl⟩ := moved
    obtain rfl := Option.some.inj (scheduled.proc.symm.trans points)
    exact ⟨rfl, first⟩

/-- From no process, or from `self`, the loop selects the first process; without a process it
never ends. -/
theorem selectProc_first (scheduled : Scheduled layout before procs taskOf) {cursor : Pointer}
    (restart : cursor = none ∨ cursor = some layout.self)
    (returned : selectProc fuel { before with currentProc := cursor } = .ok result after) :
    ∃ process, procs.head? = some process ∧
      after = { before with currentProc := some process } := by
  induction fuel generalizing cursor with
  | zero => simp [selectProc, throw_ok] at returned
  | succ fuel ih =>
    simp only [selectProc, bind_ok, get_ok, set_ok, onlyIf_ok] at returned
    obtain ⟨selected, _, advanced, _, _, ⟨rfl, rfl⟩, _, _, rfl, repeated⟩ := returned
    obtain ⟨rfl, rfl⟩ := advanceProc_first scheduled restart advanced
    cases procs with
    | nil =>
      rcases repeated with ⟨_, again⟩ | ⟨other, _⟩
      · exact ih (.inr rfl) again
      · exact absurd scheduled.selfProc.symm other
    | cons process rest =>
      rcases repeated with ⟨same, _⟩ | ⟨_, rfl⟩
      · rw [List.headD_cons, scheduled.selfProc] at same
        exact absurd (Option.some.inj same) (scheduled.ne_self List.mem_cons_self)
      · exact ⟨process, rfl, rfl⟩

/-- The loop of `CommitNextProcess` selects the process behind the current one. -/
theorem selectProc_ok (scheduled : Scheduled layout before procs taskOf)
    (returned : selectProc fuel before = .ok result after) :
    ∃ process, Ring.successor procs before.currentProc = some process ∧
      after = { before with currentProc := some process } := by
  cases here : before.currentProc with
  | none =>
    have same : before = { before with currentProc := none } := by rw [← here]
    rw [same] at returned
    exact selectProc_first scheduled (.inl rfl) returned
  | some current =>
    obtain ⟨front, rest, rfl⟩ := List.append_of_mem (scheduled.current current here)
    have absent : current ∉ front := fun member =>
      (List.nodup_append.mp (List.nodup_append.mp scheduled.nodup).1).2.2 current member current
        List.mem_cons_self rfl
    rw [Ring.successor_append absent]
    have next := scheduled.next
    cases fuel with
    | zero => simp [selectProc, throw_ok] at returned
    | succ fuel =>
      simp only [selectProc, advanceProc, bind_ok, get_ok, set_ok, onlyIf_ok] at returned
      obtain ⟨selected, _, ⟨_, _, ⟨rfl, rfl⟩, moved⟩, _, _, ⟨rfl, rfl⟩, _, _, rfl, repeated⟩ :=
        returned
      simp only [here, next, pure_ok] at moved
      obtain ⟨rfl, rfl⟩ := moved
      cases rest with
      | nil =>
        rcases repeated with ⟨_, again⟩ | ⟨other, _⟩
        · exact selectProc_first scheduled (.inr rfl) again
        · exact absurd scheduled.selfProc.symm other
      | cons later rest =>
        rcases repeated with ⟨same, _⟩ | ⟨_, rfl⟩
        · rw [List.headD_cons, scheduled.selfProc] at same
          exact absurd (Option.some.inj same) (scheduled.ne_self (by simp))
        · exact ⟨later, rfl, rfl⟩

/-- `CommitProcessLoad` copies the registers of the current process. -/
theorem commitProcessLoad_ok {process task : Address} (here : before.currentProc = some process)
    (node : ProcNode (before.node process) task)
    (returned : commitProcessLoad before = .ok result after) :
    after = { before with scratchProc := (before.task task).registers } := by
  simp only [commitProcessLoad, bind_ok, get_ok, onlyIf_ok, readNode_ok] at returned
  obtain ⟨_, _, ⟨rfl, rfl⟩, ⟨_, _, _, ⟨_, same, rfl, rfl⟩, called⟩ | ⟨absent, _⟩⟩ := returned
  · obtain rfl := Option.some.inj (here.symm.trans same)
    simp only [callRW, node.readFunction, taskReadFunction, bind_ok, panicIf_ok, deref_ok, get_ok,
      set_ok, node.driverData] at called
    obtain ⟨_, _, ⟨_, rfl⟩, _, _, ⟨points, rfl⟩, _, _, ⟨rfl, rfl⟩, rfl⟩ := called
    obtain rfl := Option.some.inj points
    rfl
  · exact absurd here (by simp [not_not.mp absent])

/-- `CommitProcessSave` copies to the registers of the current process, if there is one. -/
theorem commitProcessSave_ok (scheduled : Scheduled layout before procs taskOf)
    (returned : commitProcessSave before = .ok result after) :
    (before.currentProc = none ∧ after = before) ∨
      ∃ process, before.currentProc = some process ∧
        after = before.setTask (taskOf process)
          { before.task (taskOf process) with registers := before.scratchProc } := by
  simp only [commitProcessSave, bind_ok, get_ok, onlyIf_ok, readNode_ok] at returned
  obtain ⟨_, _, ⟨rfl, rfl⟩, ⟨_, _, _, ⟨process, here, rfl, rfl⟩, called⟩ | ⟨absent, rfl⟩⟩ :=
    returned
  · right
    have node := scheduled.node process (scheduled.current process here)
    simp only [callRW, node.writeFunction, taskWriteFunction, bind_ok, panicIf_ok, deref_ok, get_ok,
      set_ok, node.driverData] at called
    obtain ⟨_, _, ⟨_, rfl⟩, _, _, ⟨points, rfl⟩, _, _, ⟨rfl, rfl⟩, rfl⟩ := called
    obtain rfl := Option.some.inj points
    exact ⟨process, here, rfl⟩
  · exact .inl ⟨by simpa using absent, rfl⟩

/-- The state after the selection of a process. -/
def KernelState.selecting (state : KernelState width Registers) (self process task : Address) :
    KernelState width Registers :=
  { state with
    ticks := state.ticks + 1
    currentProc := some process
    node := Function.update state.node self { state.node self with link := some process }
    scratchProc := (state.task task).registers }

/-- `CommitNextProcess` selects the next process, links `self` to it and loads its registers. -/
theorem commitNextProcess_ok (scheduled : Scheduled layout before procs taskOf)
    (returned : commitNextProcess fuel before = .ok result after) :
    ∃ process, Ring.successor procs before.currentProc = some process ∧
      after = before.selecting layout.self process (taskOf process) := by
  simp only [commitNextProcess, bind_ok, get_ok, set_ok, writeNode_ok] at returned
  obtain ⟨_, _, ⟨rfl, rfl⟩, _, _, rfl, _, _, selected, _, _, ⟨rfl, rfl⟩, _, _,
    ⟨self, points, rfl⟩, loaded⟩ := returned
  have ticked : Scheduled layout { before with ticks := before.ticks + 1 } procs taskOf :=
    { scheduled with }
  obtain ⟨process, next, rfl⟩ := selectProc_ok ticked selected
  obtain rfl := Option.some.inj (scheduled.selfProc.symm.trans points)
  have member := Ring.successor_mem next
  have other := scheduled.ne_self member
  have node := scheduled.node process member
  refine ⟨process, next, commitProcessLoad_ok rfl ?_ loaded⟩
  simpa only [KernelState.setNode_node, Function.update_of_ne other] using node

/-- A selection keeps the list. -/
theorem Scheduled.select (scheduled : Scheduled layout before procs taskOf) {process : Address}
    (member : process ∈ procs) :
    Scheduled layout (before.selecting layout.self process (taskOf process)) procs taskOf := by
  refine scheduled.congr rfl rfl (fun _ live _ => live) (fun address known => ?_)
    (fun selected here => Option.some.inj here ▸ member)
  by_cases self : address = layout.self
  · subst self
    simpa only [KernelState.selecting, Function.update_self] using SameShape.linked _ _
  · simpa only [KernelState.selecting, Function.update_of_ne self] using SameShape.refl _

/-- Saving the registers of a process keeps the list. -/
theorem Scheduled.setTask (scheduled : Scheduled layout before procs taskOf) (task : Address)
    (content : Task width Registers) :
    Scheduled layout (before.setTask task content) procs taskOf :=
  scheduled.congr rfl rfl (fun _ live _ => live) (fun _ _ => .refl _) scheduled.current

end Select

/-! ## Creation -/

/-- The flags of a process node. -/
def processFlags : VNodeFlags := vfsSystem ||| vfsRead ||| vfsWrite

/-- The name of a process. -/
def processName (width : Nat) (programIdentifier : UInt64) : VNodeString :=
  let digits := ulToString (width / 8) (programIdentifier.toNat % 2 ^ width)
  ⟨digits, strnlen digits 32⟩

/-- The node that `SchedulerCreateProc` registers. -/
def processNode (width : Nat) (programIdentifier : UInt64) (data : Address) : VNode :=
  { freshNode width processFlags with
    name := processName width programIdentifier
    driverData := some data
    readFunction := .task
    writeFunction := .task }

/-- The nodes before the new one is registered. -/
def KernelState.creatingNodes (state : KernelState width Registers) (new data block : Address)
    (address : Address) : VNode :=
  if address = new then processNode width state.programIdentifier data
  else if address = data ∨ address = block then VNode.zero
  else state.node address

/-- The state with the node, the task and the name of a new process at new addresses. -/
def KernelState.making (state : KernelState width Registers) (new data block : Address)
    (initialState : Registers) : KernelState width Registers :=
  { state with
    live := insert block (insert data (insert new state.live))
    node := state.creatingNodes new data block
    task := Function.update state.task data
      ⟨initialState, state.programIdentifier, ⟨none, none, -1⟩, some rootVNode⟩
    entry := fun address =>
      if address = new ∨ address = data ∨ address = block then FileDescriptor.zero width
      else state.entry address
    programIdentifier := state.programIdentifier + 1 }

/-- The state after the creation of a process. -/
def KernelState.creating (state : KernelState width Registers) (proc new data block : Address)
    (initialState : Registers) : KernelState width Registers :=
  { state.making new data block initialState with
    proc := some proc
    node := attach (state.creatingNodes new data block) proc new }

/-- Three new addresses, taken one after the other. -/
structure FreshBlocks (live : Finset Address) (new data block : Address) : Prop where
  /-- The first address was free. -/
  newFree : new ∉ live
  /-- The second address was free. -/
  dataFree : data ∉ insert new live
  /-- The third address was free. -/
  blockFree : block ∉ insert data (insert new live)

section Create

variable {layout : Layout} {before after : KernelState width Registers} {procs : List Address}
  {taskOf : Address → Address} {fuel : Nat}

/-- What the search for `/proc` needs: it is the first child of the root and has its name. -/
structure ProcFound (state : KernelState width Registers) (proc : Address) : Prop where
  /-- `/proc` is the first child of the root. -/
  rootFirst : (state.node rootVNode).firstChild = some proc
  /-- The children of the root are in memory. -/
  rootPlain : hasFlag (state.node rootVNode).flags vfsOnDisk = false
  /-- `/proc` has its name. -/
  procName : (state.node proc).name = ⟨procDir, 4⟩
  /-- `/proc` is no link. -/
  procPlain : hasFlag (state.node proc).flags vfsLink = false

/-- In a scheduled state `/proc` can be found. -/
theorem Scheduled.found (scheduled : Scheduled layout before procs taskOf) :
    ProcFound before layout.proc :=
  ⟨scheduled.rootFirst, scheduled.rootPlain, scheduled.procName, scheduled.procPlain⟩

/-- `/proc` is found. -/
theorem relativeFind_proc {proc : Address} (there : ProcFound before proc) {found : Pointer}
    (returned : relativeFind before.node fuel (some rootVNode) procDir = .ok found) :
    found = some proc := by
  have test : namedAs (before.node proc) procDir = true := by
    rw [namedAs, there.procName]
    decide
  have stepped : stepComponent before.node fuel rootVNode procDir =
      (findChild before.node procDir fuel (some proc)).bind orNotFound := by
    rw [stepComponent_child (by decide) there.rootPlain, there.rootFirst]
  rw [relativeFind_eq, walkStart, if_neg (by decide), walk_single _ (by decide) (by decide),
    stepped] at returned
  cases fuel with
  | zero => simp [findChild, Except.bind] at returned
  | succ fuel =>
    simp only [findChild, if_pos test, Except.bind, orNotFound, followLink,
      there.procPlain] at returned
    simpa using returned.symm

/-- The new node, its task and its name lie at three new addresses. -/
theorem makeProcess_ok {allocator : Allocator} {initialState : Registers} {new : Address}
    (returned : makeProcess allocator initialState before = .ok new after) :
    ∃ data block, FreshBlocks before.live new data block ∧
      after = before.making new data block initialState := by
  simp only [makeProcess, ulToStringBlock, bind_ok, get_ok, set_ok, writeNode_ok,
    pure_ok] at returned
  obtain ⟨node, _, made, data, _, taken, _, _, ⟨_, here, rfl⟩, _, _, ⟨rfl, rfl⟩, digits, _,
    ⟨block, _, named, rfl, rfl⟩, _, _, ⟨_, there, rfl⟩, _, _, ⟨rfl, rfl⟩, _, _, rfl, rfl,
    rfl⟩ := returned
  cases here
  cases there
  obtain ⟨nodeFresh, rfl⟩ := newVNode_ok made
  obtain ⟨dataFresh, rfl⟩ := kalloc_ok taken
  obtain ⟨blockFresh, rfl⟩ := kalloc_ok named
  refine ⟨data, block, ⟨nodeFresh, dataFresh, blockFresh⟩, ?_⟩
  have dataApart : data ≠ node := fun same =>
    dataFresh (same ▸ Finset.mem_insert_self _ _)
  have blockData : block ≠ data := fun same =>
    blockFresh (same ▸ Finset.mem_insert_self _ _)
  have blockApart : block ≠ node := fun same =>
    blockFresh (same ▸ Finset.mem_insert_of_mem (Finset.mem_insert_self _ _))
  simp only [KernelState.making, KernelState.setTask, KernelState.setNode,
    KernelState.allocated]
  congr 1
  · funext address
    simp only [KernelState.creatingNodes, Function.update_apply]
    split_ifs <;> simp_all [processNode, processName, freshNode, processFlags]
  · funext address
    simp only [Function.update_apply]
    split_ifs <;> simp_all

/-- `SchedulerCreateProc` takes three new blocks and puts a new node in front of the processes. -/
theorem schedulerCreateProc_ok {allocator : Allocator} {initialState : Registers}
    {proc new : Address} (there : ProcFound before proc)
    (returned : schedulerCreateProc allocator fuel initialState before = .ok new after) :
    ∃ data block, FreshBlocks before.live new data block ∧
      after = before.creating proc new data block initialState := by
  simp only [schedulerCreateProc, bind_ok, get_ok, set_ok, ofExcept_ok, pure_ok] at returned
  obtain ⟨_, _, ⟨rfl, rfl⟩, found, _, ⟨resolved, rfl⟩, _, _, rfl, node, _, made, _, _, registered,
    rfl, rfl⟩ := returned
  obtain rfl := relativeFind_proc there resolved
  obtain ⟨data, block, fresh, rfl⟩ := makeProcess_ok made
  obtain rfl := registerChildVNode_ok registered
  exact ⟨data, block, fresh, rfl⟩

/-- The new addresses are none of those handed out before. -/
theorem FreshBlocks.ne {live : Finset Address} {new data block address : Address}
    (fresh : FreshBlocks live new data block) (old : address ∈ live) :
    address ≠ new ∧ address ≠ data ∧ address ≠ block :=
  ⟨fun same => fresh.newFree (same ▸ old),
    fun same => fresh.dataFree (same ▸ Finset.mem_insert_of_mem old),
    fun same => fresh.blockFree (same ▸ Finset.mem_insert_of_mem (Finset.mem_insert_of_mem old))⟩

/-- The new task is not the new node. -/
theorem FreshBlocks.data_ne {live : Finset Address} {new data block : Address}
    (fresh : FreshBlocks live new data block) : data ≠ new := fun same =>
  fresh.dataFree (same ▸ Finset.mem_insert_self _ _)

/-- The nodes from before are read unchanged until the new one is registered. -/
theorem creatingNodes_old {state : KernelState width Registers} {new data block address : Address}
    (fresh : FreshBlocks state.live new data block) (old : address ∈ state.live) :
    state.creatingNodes new data block address = state.node address := by
  obtain ⟨notNew, notData, notBlock⟩ := fresh.ne old
  simp [KernelState.creatingNodes, notNew, notData, notBlock]

/-- The nodes that were there before a creation: only the links to the new node are new. -/
theorem creating_node (scheduled : Scheduled layout before procs taskOf)
    {new data block address : Address} (initialState : Registers)
    (fresh : FreshBlocks before.live new data block) (old : address ∈ before.live) :
    (before.creating layout.proc new data block initialState).node address =
      { before.node address with
        firstChild := if address = layout.proc then some new else (before.node address).firstChild
        previous :=
          if some address = (before.node layout.proc).firstChild then some new
          else (before.node address).previous } := by
  have procLive := scheduled.live layout.proc (.inr (.inl rfl))
  simp only [KernelState.creating, attach, creatingNodes_old fresh old,
    creatingNodes_old fresh procLive, if_neg (fresh.ne old).1]

/-- The new node. -/
theorem creating_new (scheduled : Scheduled layout before procs taskOf) {new data block : Address}
    {initialState : Registers} (fresh : FreshBlocks before.live new data block) :
    (before.creating layout.proc new data block initialState).node new =
      { processNode width before.programIdentifier data with
        next := (before.node layout.proc).firstChild } := by
  have procLive := scheduled.live layout.proc (.inr (.inl rfl))
  have other := (fresh.ne procLive).1.symm
  have notFirst : some new ≠ (before.node layout.proc).firstChild := by
    rw [scheduled.first]
    intro same
    have first : layout.IsNode procs new := by
      rw [Option.some.inj same]
      cases procs with
      | nil => exact .inr (.inr (.inl rfl))
      | cons process rest => exact .inr (.inr (.inr List.mem_cons_self))
    exact fresh.newFree (scheduled.live new first)
  have made : before.creatingNodes new data block new =
      processNode width before.programIdentifier data := if_pos rfl
  simp only [KernelState.creating, attach, made, creatingNodes_old fresh procLive, if_neg other,
    if_neg notFirst, if_true]

/-- A node of a longer list is the new process or a node of the list. -/
theorem Layout.isNode_cons {layout : Layout} {procs : List Address} {new address : Address} :
    layout.IsNode (new :: procs) address ↔ address = new ∨ layout.IsNode procs address := by
  simp only [Layout.IsNode, List.mem_cons]
  tauto

/-- The children of `/proc` after a creation. -/
theorem creating_children (scheduled : Scheduled layout before procs taskOf)
    {new data block : Address} {initialState : Registers}
    (fresh : FreshBlocks before.live new data block) :
    Segment (before.creating layout.proc new data block initialState).nextOf
      ((before.creating layout.proc new data block initialState).node layout.proc).firstChild
      (new :: procs ++ [layout.self]) none := by
  have front : ((before.creating layout.proc new data block initialState).node
      layout.proc).firstChild = some new := by
    rw [creating_node scheduled initialState fresh (scheduled.live _ (.inr (.inl rfl)))]
    exact if_pos rfl
  rw [front]
  refine scheduled.children.insert ?_ fun later member => ?_
  · rw [KernelState.nextOf, creating_new scheduled fresh]
  · have known := Layout.isNode_child member
    rw [KernelState.nextOf, creating_node scheduled initialState fresh (scheduled.live _ known)]
    rfl

/-- Their backward links. -/
theorem creating_back (scheduled : Scheduled layout before procs taskOf)
    {new data block : Address} {initialState : Registers}
    (fresh : FreshBlocks before.live new data block) :
    Backlinked (before.creating layout.proc new data block initialState).previousOf none
      (new :: procs ++ [layout.self]) := by
  have kept : ∀ later ∈ procs ++ [layout.self],
      (before.creating layout.proc new data block initialState).previousOf later =
        if some later = (before.node layout.proc).firstChild then some new
        else (before.node later).previous := by
    intro later member
    have known := Layout.isNode_child member
    rw [KernelState.previousOf,
      creating_node scheduled initialState fresh (scheduled.live _ known)]
  refine scheduled.back.insert ?_ (fun later head => ?_) fun later member => ?_
  · rw [KernelState.previousOf, creating_new scheduled fresh]
    rfl
  · rw [kept later (List.mem_of_head? head)]
    exact if_pos (scheduled.first_iff.mpr head)
  · rw [kept later (List.mem_of_mem_tail member)]
    refine if_neg fun first => ?_
    obtain ⟨rest, split⟩ := List.head?_eq_some_iff.mp (scheduled.first_iff.mp first)
    have nodup := scheduled.nodup
    have behind : later ∈ (procs ++ [layout.self]).tail := member
    rw [split] at nodup behind
    exact (List.nodup_cons.mp nodup).1 behind

/-- A creation puts the new process in front of the others. -/
theorem Scheduled.create (scheduled : Scheduled layout before procs taskOf)
    {new data block : Address} {initialState : Registers}
    (fresh : FreshBlocks before.live new data block) :
    Scheduled layout (before.creating layout.proc new data block initialState) (new :: procs)
      (Function.update taskOf new data) := by
  set after := before.creating layout.proc new data block initialState with afterIs
  have kept : ∀ {address}, layout.IsNode procs address → after.node address =
      { before.node address with
        firstChild := if address = layout.proc then some new else (before.node address).firstChild
        previous := if some address = (before.node layout.proc).firstChild then some new
          else (before.node address).previous } := fun {address} known =>
    creating_node scheduled initialState fresh (scheduled.live address known)
  have rootNode : layout.IsNode procs rootVNode := .inl scheduled.root
  have procNode : layout.IsNode procs layout.proc := .inr (.inl rfl)
  have rootOther : rootVNode ≠ layout.proc := fun same =>
      scheduled.procApart (same ▸ scheduled.root)
  have unlisted : ∀ {address}, layout.IsNode procs address → address ≠ new := fun known =>
    (fresh.ne (scheduled.live _ known)).1
  have taskOld : ∀ process ∈ procs, Function.update taskOf new data process = taskOf process :=
    fun process member => Function.update_of_ne (unlisted (.inr (.inr (.inr member)))) _ _
  constructor
  · rfl
  · exact scheduled.selfProc
  · exact scheduled.root
  · rw [kept rootNode]
    simpa [rootOther] using scheduled.rootFirst
  · rw [kept rootNode]
    exact scheduled.rootPlain
  · rw [kept procNode]
    exact scheduled.procName
  · rw [kept procNode]
    exact scheduled.procPlain
  · exact creating_children scheduled fresh
  · exact creating_back scheduled fresh
  · intro address known
    rcases Layout.isNode_cons.mp known with rfl | old
    · simp [afterIs, KernelState.creating, KernelState.making]
    · simp [afterIs, KernelState.creating, KernelState.making, scheduled.live address old]
  · exact scheduled.procApart
  · exact scheduled.selfApart
  · intro process member
    rcases List.mem_cons.mp member with rfl | old
    · exact ⟨fun boot => unlisted (.inl boot) rfl, fun same => unlisted procNode same.symm⟩
    · exact scheduled.procsApart process old
  · intro process member
    rcases List.mem_cons.mp member with rfl | old
    · rw [creating_new scheduled fresh, Function.update_self]
      exact ⟨rfl, rfl, rfl, rfl, rfl⟩
    · have node := scheduled.node process old
      rw [taskOld process old, kept (.inr (.inr (.inr old)))]
      exact ⟨by simpa [(scheduled.procsApart process old).2] using node.firstChild, node.parent,
        node.writeFunction, node.readFunction, node.driverData⟩
  · intro process member
    rcases List.mem_cons.mp member with rfl | old
    · rw [Function.update_self, Layout.isNode_cons, not_or]
      refine ⟨?_, fresh.data_ne, fun known => (fresh.ne (scheduled.live _ known)).2.1 rfl⟩
      simp [afterIs, KernelState.creating, KernelState.making]
    · obtain ⟨live, apart⟩ := scheduled.task process old
      rw [taskOld process old, Layout.isNode_cons, not_or]
      refine ⟨?_, (fresh.ne live).1, apart⟩
      simp [afterIs, KernelState.creating, KernelState.making, live]
  · have newTask : ∀ process ∈ procs, taskOf process ≠ data := fun process member =>
      (fresh.ne (scheduled.task process member).1).2.1
    intro left leftMember right rightMember same
    rcases List.mem_cons.mp leftMember with rfl | leftOld <;>
      rcases List.mem_cons.mp rightMember with rfl | rightOld
    · rfl
    · rw [Function.update_self, taskOld right rightOld] at same
      exact absurd same.symm (newTask right rightOld)
    · rw [Function.update_self, taskOld left leftOld] at same
      exact absurd same (newTask left leftOld)
    · rw [taskOld left leftOld, taskOld right rightOld] at same
      exact scheduled.distinct left leftOld right rightOld same
  · intro process here
    exact List.mem_cons_of_mem _ (scheduled.current process here)

end Create

end Unarddeg
