import Unarddeg.Kernel.Sched.ProcList

/-!
# Process exit

What `SchedulerExit` does to a scheduled state. The current process is cut out of the forward
links by hand, its descriptors are closed one after the other, its task is freed, its node is
unregistered, which writes the same forward link again and the backward link, and then freed. The
closing loop reads the link of each entry after the entry was freed, which is sound because a
freed block keeps its bytes.
-/

namespace Unarddeg

open Library

variable {width : Nat} {Registers : Type}

section Exit

variable {layout : Layout} {before after : KernelState width Registers}
  {procs front rest : List Address}
  {taskOf : Address → Address} {fuel : Nat} {result : Unit} {current task : Address}

/-! ## Cutting the current process out by hand -/

/-- The nodes after the edit at the head of `SchedulerExit`, given the process in front of the
current one. -/
def cutNodes (nodes : Address → VNode) (proc current : Address) (last : Pointer) :
    Address → VNode :=
  match last with
  | none => Function.update nodes proc { nodes proc with firstChild := (nodes current).next }
  | some prev => Function.update nodes prev { nodes prev with next := (nodes current).next }

/-- The search stops at the node in front of the current process. -/
theorem previousProc_ok {start prev : Pointer} (here : before.currentProc = some current)
    (segment : Segment before.nextOf start (front ++ current :: rest) none) (some : front ≠ [])
    (returned : previousProc fuel start before = .ok prev after) :
    before = after ∧ prev = front.getLast? := by
  induction fuel generalizing start front with
  | zero => simp [previousProc, throw_ok] at returned
  | succ fuel ih =>
    have distinct := segment.nodup
    cases front with
    | nil => exact absurd rfl some
    | cons first front =>
      obtain ⟨rfl, tail⟩ := segment
      simp only [previousProc, bind_ok, get_ok] at returned
      obtain ⟨_, _, ⟨rfl, rfl⟩, searched⟩ := returned
      simp only [ite_ok, pure_ok, here] at searched
      cases front with
      | nil =>
        have next : (before.node first).next = .some current := tail.1
        rcases searched with ⟨_, rfl, rfl⟩ | ⟨other, _⟩
        · exact ⟨rfl, rfl⟩
        · exact absurd next other
      | cons second front =>
        have next : (before.node first).next = .some second := tail.1
        rcases searched with ⟨same, _⟩ | ⟨_, later⟩
        · rw [next] at same
          have equal := Option.some.inj same
          subst equal
          simp at distinct
        · obtain ⟨rfl, last⟩ := ih tail (by simp) later
          exact ⟨rfl, by rw [last]; rfl⟩

/-- The search changes nothing. -/
theorem previousProc_same {start prev : Pointer}
    (returned : previousProc fuel start before = .ok prev after) : before = after := by
  induction fuel generalizing start with
  | zero => simp [previousProc, throw_ok] at returned
  | succ fuel ih =>
    cases start with
    | none => exact (pure_ok.mp returned).2
    | some first =>
      simp only [previousProc, bind_ok, get_ok, ite_ok, pure_ok] at returned
      obtain ⟨_, _, ⟨rfl, rfl⟩, ⟨_, _, rfl⟩ | ⟨_, later⟩⟩ := returned
      · rfl
      · exact ih later

/-- The first edit keeps the current process. -/
theorem cutCurrentProc_same (returned : cutCurrentProc fuel before = .ok result after) :
    after.currentProc = before.currentProc := by
  simp only [cutCurrentProc, bind_ok, get_ok, readNode_ok, ite_ok, writeNode_ok,
    onlyIf_ok] at returned
  obtain ⟨_, _, ⟨rfl, rfl⟩, _, _, ⟨_, _, rfl, rfl⟩, edited⟩ := returned
  rcases edited with ⟨_, _, _, ⟨_, _, rfl, rfl⟩, _, _, rfl⟩ | ⟨_, _, _, searched, cut⟩
  · rfl
  · obtain rfl := previousProc_same searched
    rcases cut with ⟨_, _, _, ⟨_, _, rfl, rfl⟩, _, _, rfl⟩ | ⟨_, rfl⟩ <;> rfl

/-- The first edit redirects the link in front of the current process. -/
theorem cutCurrentProc_ok (scheduled : Scheduled layout before (front ++ current :: rest) taskOf)
    (here : before.currentProc = some current)
    (returned : cutCurrentProc fuel before = .ok result after) :
    after = { before with
      node := cutNodes before.node layout.proc current front.getLast? } := by
  have children := scheduled.children
  rw [List.append_assoc, List.cons_append] at children
  simp only [cutCurrentProc, bind_ok, get_ok, readNode_ok] at returned
  obtain ⟨_, _, ⟨rfl, rfl⟩, _, _, ⟨proc, points, rfl, rfl⟩, edited⟩ := returned
  obtain rfl := Option.some.inj (scheduled.proc.symm.trans points)
  simp only [ite_ok, bind_ok, readNode_ok, writeNode_ok, onlyIf_ok, here] at edited
  cases front with
  | nil =>
    have first : (before.node layout.proc).firstChild = some current := children.1
    rcases edited with ⟨_, _, _, ⟨_, same, rfl, rfl⟩, _, points', rfl⟩ | ⟨other, _⟩
    · cases same
      obtain rfl := Option.some.inj (points.symm.trans points')
      rfl
    · exact absurd first other
  | cons first front =>
    have start : (before.node layout.proc).firstChild = some first := children.1
    have distinct := scheduled.nodup
    rcases edited with ⟨same, _⟩ | ⟨_, prev, _, searched, cut⟩
    · rw [start] at same
      have equal := Option.some.inj same
      subst equal
      simp at distinct
    · obtain ⟨rfl, rfl⟩ := previousProc_ok here children (by simp) searched
      rcases cut with ⟨_, _, _, ⟨_, same, rfl, rfl⟩, prev, points', rfl⟩ | ⟨absent, _⟩
      · cases same
        rw [points']
        rfl
      · simp at absent

/-! ## Closing the descriptors -/

/-- The nodes without the marks of those that entries refer to. -/
def closeNodes (nodes : Address → VNode) (references : List Pointer) (address : Address) : VNode :=
  if some address ∈ references then (nodes address).closed else nodes address

/-- The state after the entries of a task are closed. -/
def KernelState.closing (state : KernelState width Registers) (task : Address)
    (entries : List Address) : KernelState width Registers :=
  { state.relinkAt (.files task) none with
    node := closeNodes state.node (entries.map fun entry => (state.entry entry).reference)
    live := state.live \ entries.toFinset }

/-- Closing twice is closing once. -/
theorem VNode.closed_closed (node : VNode) : node.closed.closed = node.closed := by
  simp only [VNode.closed, BitVec.and_assoc, BitVec.and_self]

/-- Closing one node and then others closes them all. -/
theorem closeNodes_cons (nodes : Address → VNode) (node : Address) (references : List Pointer) :
    closeNodes (Function.update nodes node (nodes node).closed) references =
      closeNodes nodes (some node :: references) := by
  funext address
  simp only [closeNodes, Function.update_apply, List.mem_cons, Option.some.injEq]
  by_cases same : address = node
  · subst same
    simp [VNode.closed_closed]
  · simp [same]

/-- Closing no entries changes nothing. -/
theorem closing_nil {state : KernelState width Registers} {task : Address}
    (empty : state.FilesOf task []) : state.closing task [] = state := by
  have stop : (state.task task).files.next = none := empty
  have same : state.relinkAt (.files task) none = state := by
    have files : ({ (state.task task).files with next := none } : FileDescriptor width) =
        (state.task task).files := by
      rw [← stop]
    simp only [KernelState.relinkAt, KernelState.setEntryAt, KernelState.setTask,
      KernelState.entryAt, files]
    rw [show ({ state.task task with files := (state.task task).files } : Task width Registers) =
      state.task task from rfl, Function.update_eq_self]
  have nodes : closeNodes state.node [] = state.node := by
    funext address
    simp [closeNodes]
  simp only [KernelState.closing, same, List.map_nil, nodes, List.toFinset_nil,
    Finset.sdiff_empty]

/-- Closing the first entry and then the others closes them all. -/
theorem closing_cons {state : KernelState width Registers} {task entry node : Address}
    {rest : List Address} (next : Pointer) (reference : (state.entry entry).reference = some node) :
    ({ (state.relinkAt (.files task) next).setNode node (state.node node).closed with
        live := state.live.erase entry } : KernelState width Registers).closing task rest =
      state.closing task (entry :: rest) := by
  have nodes : closeNodes (Function.update state.node node (state.node node).closed)
      (rest.map fun entry => (state.entry entry).reference) =
        closeNodes state.node ((entry :: rest).map fun entry => (state.entry entry).reference) := by
    rw [closeNodes_cons, List.map_cons, reference]
  have live : state.live.erase entry \ rest.toFinset = state.live \ (entry :: rest).toFinset := by
    ext address
    simp only [Finset.mem_sdiff, Finset.mem_erase, List.mem_toFinset, List.mem_cons]
    tauto
  simp only [KernelState.closing, ← nodes, ← live]
  simp [KernelState.relinkAt, KernelState.setEntryAt, KernelState.setTask, KernelState.entryAt,
    KernelState.setNode]

/-- The first with a value is the first of all when that has the value. -/
theorem first_of_split {α β : Type} {value : α → β} {first target : α} {rest front back : List α}
    {wanted : β} (split : first :: rest = front ++ target :: back) (here : value first = wanted)
    (earlier : ∀ other ∈ front, value other ≠ wanted) :
    front = [] ∧ first = target ∧ rest = back := by
  cases front with
  | nil => exact ⟨rfl, List.cons.inj split⟩
  | cons other front =>
    rw [List.cons_append, List.cons.injEq] at split
    exact absurd (split.1 ▸ here) (earlier other List.mem_cons_self)

/-- The loop closes every entry of the current process. -/
theorem closeAll_ok {start : Pointer} {entries : List Address}
    (here : before.currentProc = some current)
    (data : (before.node current).driverData = some task) (files : before.FilesOf task entries)
    (head : start = (before.task task).files.next)
    (kept : ∀ entry ∈ entries, ∀ node, (before.entry entry).reference = some node →
      hasFlag (before.node node).flags vfsDelete = false)
    (returned : closeAll fuel start before = .ok result after) :
    after = before.closing task entries ∧
      ∀ entry ∈ entries, ∃ node, (before.entry entry).reference = some node := by
  induction fuel generalizing start entries before with
  | zero => simp [closeAll, throw_ok] at returned
  | succ fuel ih =>
    cases entries with
    | nil =>
      have stop : (before.task task).files.next = none := files
      rw [head, stop] at returned
      simp only [closeAll, pure_ok] at returned
      obtain ⟨_, rfl⟩ := returned
      exact ⟨(closing_nil files).symm, by simp⟩
    | cons entry rest =>
      have first : (before.task task).files.next = some entry := files.1
      rw [head, first] at returned
      simp only [closeAll, bind_ok, get_ok] at returned
      obtain ⟨_, _, ⟨rfl, rfl⟩, _, middle, closed, _, _, ⟨rfl, rfl⟩, more⟩ := returned
      obtain ⟨front, target, back, node, split, index, earlier, reference, effect⟩ :=
        close_ok here data files closed
      obtain ⟨rfl, rfl, rfl⟩ := first_of_split split rfl earlier
      have left := effect (kept entry List.mem_cons_self node reference)
      change middle = { (before.relinkAt (.files task) (before.entry entry).next).setNode node
        (before.node node).closed with live := before.live.erase entry } at left
      have shape : ∀ address, middle.node address = before.node address ∨
          middle.node address = (before.node address).closed := by
        intro address
        by_cases same : address = node
        · subst same
          simp [left]
        · simp [left, same]
      have next : (middle.task task).files.next = (before.entry entry).next := by
        simp [left, KernelState.relinkAt, KernelState.setEntryAt, KernelState.setTask,
          KernelState.setNode]
      have same : middle.entry = before.entry := by
        rw [left]
        rfl
      have links : middle.entryNext = before.entryNext := by
        rw [left]
        rfl
      have tail : middle.FilesOf task rest := by
        rw [KernelState.FilesOf, links, next]
        exact files.2
      obtain ⟨rfl, references⟩ := ih (by rw [left]; exact here) (by
          rcases shape current with unchanged | closed
          · rwa [unchanged]
          · rwa [closed]) tail (by rw [next, same]) (fun later member node' points => by
          rw [same] at points
          have plain := kept later (List.mem_cons_of_mem _ member) node' points
          rcases shape node' with unchanged | closed
          · rwa [unchanged]
          · rwa [closed, hasFlag_closed (by decide)]) more
      refine ⟨by rw [left]; exact closing_cons _ reference, ?_⟩
      rw [same] at references
      exact List.forall_mem_cons.mpr ⟨⟨node, reference⟩, references⟩

/-! ## The whole exit -/

/-- Deleting a node without children frees it. -/
theorem deleteVNode_leaf {address : Address} (leaf : (before.node address).firstChild = none)
    (returned : deleteVNode fuel (some address) before = .ok result after) :
    after = { before with live := before.live.erase address } := by
  cases fuel with
  | zero => simp [deleteVNode, throw_ok] at returned
  | succ fuel =>
    simp only [deleteVNode, bind_ok, panicIf_ok, readNode_ok, kfree_ok] at returned
    obtain ⟨_, _, ⟨_, rfl⟩, _, _, ⟨_, same, rfl, rfl⟩, _, _, children, _, freed, rfl⟩ := returned
    cases same
    cases freed
    rw [leaf] at children
    cases fuel with
    | zero => simp [deleteVNode.deleteChildren, throw_ok] at children
    | succ fuel =>
      simp only [deleteVNode.deleteChildren, pure_ok] at children
      obtain ⟨_, rfl⟩ := children
      rfl

/-- The state after the exit of the current process. -/
def KernelState.exiting (state : KernelState width Registers) (proc current task : Address)
    (last : Pointer) (entries : List Address) : KernelState width Registers :=
  let closed := ({ state with node := cutNodes state.node proc current last }).closing task entries
  { closed with
    node := detach closed.node current
    live := (closed.live.erase task).erase current
    currentProc := none }

/-- A close keeps everything in a node but its mark. -/
theorem closeNodes_cases (nodes : Address → VNode) (references : List Pointer)
    (address : Address) : closeNodes nodes references address = nodes address ∨
      closeNodes nodes references address = (nodes address).closed := by
  unfold closeNodes
  split_ifs
  · exact .inr rfl
  · exact .inl rfl

/-- The edit by hand keeps everything in a node but one link. -/
theorem cutNodes_flags (nodes : Address → VNode) (proc current address : Address)
    (last : Pointer) :
    (cutNodes nodes proc current last address).flags = (nodes address).flags := by
  cases last with
  | none =>
    by_cases same : address = proc
    · subst same
      simp [cutNodes]
    · simp [cutNodes, same]
  | some prev =>
    by_cases same : address = prev
    · subst same
      simp [cutNodes]
    · simp [cutNodes, same]

/-- The current process is not the node in front of it. -/
theorem ne_last (scheduled : Scheduled layout before (front ++ current :: rest) taskOf) :
    front.getLast? ≠ some current := fun last =>
  (List.nodup_append.mp (List.nodup_append.mp scheduled.nodup).1).2.2 current
    (List.mem_of_getLast? last) current List.mem_cons_self rfl

/-- The edit by hand keeps the node of the current process. -/
theorem cutNodes_current (scheduled : Scheduled layout before (front ++ current :: rest) taskOf) :
    cutNodes before.node layout.proc current front.getLast? current = before.node current := by
  have apart := (scheduled.procsApart current (by simp)).2
  cases last : front.getLast? with
  | none => simp [cutNodes, apart]
  | some prev =>
    have other : current ≠ prev := by
      rintro rfl
      exact ne_last scheduled last
    simp [cutNodes, other]

/-- The node in front of the current process. -/
theorem previous_current (scheduled : Scheduled layout before (front ++ current :: rest) taskOf) :
    (before.node current).previous = front.getLast? := by
  have back := scheduled.back
  rw [List.append_assoc, List.cons_append] at back
  have previous : (before.node current).previous = (front.getLast?).or none := back.previous_eq
  rw [previous, Option.or_none]

/-- The node behind the current process is not the current process. -/
theorem next_ne (scheduled : Scheduled layout before (front ++ current :: rest) taskOf) :
    (before.node current).next ≠ some current := by
  rw [scheduled.next]
  intro same
  have distinct := scheduled.nodup
  cases rest with
  | nil => exact scheduled.ne_self (by simp) (Option.some.inj same).symm
  | cons later rest =>
    have equal : later = current := Option.some.inj same
    subst equal
    simp [List.nodup_append] at distinct

/-- `SchedulerExit` closes the descriptors of the current process, frees its task and its node,
and takes the node out of the list, as long as no descriptor refers to a node that is deleted on
close. -/
theorem schedulerExit_ok {entries : List Address}
    (scheduled : Scheduled layout before (front ++ current :: rest) taskOf)
    (here : before.currentProc = some current) (files : before.FilesOf (taskOf current) entries)
    (kept : ∀ entry ∈ entries, ∀ node, (before.entry entry).reference = some node →
      hasFlag (before.node node).flags vfsDelete = false)
    (returned : schedulerExit fuel before = .ok result after) :
    after = before.exiting layout.proc current (taskOf current) front.getLast? entries ∧
      ∀ entry ∈ entries, ∃ node, (before.entry entry).reference = some node := by
  simp only [schedulerExit, bind_ok, get_ok, set_ok, kfree_ok] at returned
  obtain ⟨_, cut, edited, task, _, located, _, _, ⟨rfl, rfl⟩, _, closed, closing, _, _,
    ⟨_, freed, rfl⟩, _, gone, unregistered, _, deleted, deletion, _, _, ⟨rfl, rfl⟩, rfl⟩ := returned
  cases freed
  have cutIs := cutCurrentProc_ok scheduled here edited
  have node := scheduled.node current (by simp)
  have unchanged : cut.node current = before.node current := by
    rw [cutIs]
    exact cutNodes_current scheduled
  have cutHere : cut.currentProc = some current := by rw [cutIs]; exact here
  have cutFiles : cut.FilesOf (taskOf current) entries := by rw [cutIs]; exact files
  have cutEntry : cut.entry = before.entry := by rw [cutIs]
  obtain ⟨rfl, _, here', data⟩ := currentTask_ok located
  obtain rfl := Option.some.inj (cutHere.symm.trans here')
  obtain rfl := Option.some.inj (node.driverData.symm.trans (unchanged ▸ data))
  have plain : ∀ entry ∈ entries, ∀ node, (cut.entry entry).reference = some node →
      hasFlag (cut.node node).flags vfsDelete = false := by
    rw [cutEntry, cutIs]
    intro entry listed node reference
    rw [cutNodes_flags]
    exact kept entry listed node reference
  obtain ⟨closedIs, references⟩ := closeAll_ok cutHere data cutFiles rfl plain closing
  rw [cutEntry] at references
  refine ⟨?_, references⟩
  obtain ⟨freed, freedIs⟩ : ∃ freed, freed =
      { closed with live := closed.live.erase (taskOf current) } := ⟨_, rfl⟩
  rw [← freedIs, show cut.currentProc = some current from cutHere] at unregistered
  rw [show cut.currentProc = some current from cutHere] at deletion
  -- Closing keeps the links of the current process.
  have links : ∀ {α : Type} (field : VNode → α), (∀ node, field node.closed = field node) →
      field (freed.node current) = field (before.node current) := by
    intro α field same
    rw [freedIs, closedIs, ← unchanged]
    rcases closeNodes_cases cut.node (entries.map fun entry => (cut.entry entry).reference)
      current with still | marked
    · exact congrArg field still
    · exact (congrArg field marked).trans (same _)
  have goneIs := unregisterVNode_ok ((links VNode.parent fun _ => rfl).trans node.parent)
    (by
      rw [links VNode.previous fun _ => rfl, previous_current scheduled]
      exact ne_last scheduled)
    (by
      rw [links VNode.next fun _ => rfl]
      exact next_ne scheduled) unregistered
  have leaf : (gone.node current).firstChild = none := by
    rw [goneIs]
    exact (links VNode.firstChild fun _ => rfl).trans node.firstChild
  have deletedIs := deleteVNode_leaf leaf deletion
  rw [deletedIs, goneIs, freedIs, closedIs, cutIs]
  rfl

/-- An exit returns only when there is a current process. -/
theorem schedulerExit_current (returned : schedulerExit fuel before = .ok result after) :
    ∃ process, before.currentProc = some process := by
  simp only [schedulerExit, bind_ok] at returned
  obtain ⟨_, cut, edited, _, _, located, _⟩ := returned
  obtain ⟨_, process, here, _⟩ := currentTask_ok located
  exact ⟨process, (cutCurrentProc_same edited).symm.trans here⟩

/-! ## The list after an exit -/

/-- A field that no close writes is read through the closes. -/
theorem closeNodes_field {α : Type} (field : VNode → α)
    (closed : ∀ node, field node.closed = field node) (nodes : Address → VNode)
    (references : List Pointer) (address : Address) :
    field (closeNodes nodes references address) = field (nodes address) := by
  rcases closeNodes_cases nodes references address with same | marked
  · exact congrArg field same
  · exact (congrArg field marked).trans (closed _)

/-- An exit keeps the fields that are no sibling or child links and no mark. -/
theorem exiting_field {α : Type} (field : VNode → α)
    (closed : ∀ node, field node.closed = field node)
    (firstChild : ∀ node link, field { node with firstChild := link } = field node)
    (next : ∀ node link, field { node with next := link } = field node)
    (previous : ∀ node link, field { node with previous := link } = field node)
    (proc : Address) (last : Pointer) (entries : List Address) (address : Address) :
    field ((before.exiting proc current task last entries).node address) =
      field (before.node address) := by
  have cut : field (cutNodes before.node proc current last address) =
      field (before.node address) := by
    cases last with
    | none =>
      by_cases same : address = proc
      · subst same
        rw [cutNodes, Function.update_self, firstChild]
      · rw [cutNodes, Function.update_of_ne same]
    | some prev =>
      by_cases same : address = prev
      · subst same
        rw [cutNodes, Function.update_self, next]
      · rw [cutNodes, Function.update_of_ne same]
  have detached : ∀ nodes : Address → VNode,
      field (detach nodes current address) = field (nodes address) := by
    intro nodes
    exact (previous { nodes address with next := (detach nodes current address).next } _).trans
      (next (nodes address) _)
  rw [← cut]
  exact (detached _).trans (closeNodes_field field closed _ _ _)

/-- The first child of `/proc` after an exit. -/
theorem exiting_firstChild (entries : List Address) (address : Address) :
    ((before.exiting layout.proc current task front.getLast? entries).node address).firstChild =
      if address = layout.proc ∧ front = [] then (before.node current).next
      else (before.node address).firstChild := by
  have closed : ((before.exiting layout.proc current task front.getLast? entries).node
      address).firstChild =
        (cutNodes before.node layout.proc current front.getLast? address).firstChild :=
    closeNodes_field VNode.firstChild (fun _ => rfl) _ _ _
  rw [closed]
  rcases List.eq_nil_or_concat front with rfl | ⟨earlier, last, rfl⟩
  · by_cases same : address = layout.proc
    · subst same
      simp [cutNodes]
    · simp [cutNodes, same]
  · by_cases same : address = last
    · subst same
      simp [cutNodes]
    · simp [cutNodes, same]

/-- The forward links after the edit by hand. -/
theorem cutNodes_next (nodes : Address → VNode) (proc : Address) (last : Pointer)
    (address : Address) : (cutNodes nodes proc current last address).next =
      if last = some address then (nodes current).next else (nodes address).next := by
  cases last with
  | none =>
    by_cases same : address = proc
    · subst same
      simp [cutNodes]
    · simp [cutNodes, same]
  | some prev =>
    by_cases same : address = prev
    · subst same
      simp [cutNodes]
    · simp [cutNodes, same, Ne.symm same]

/-- The edit by hand writes no backward link. -/
theorem cutNodes_previous (nodes : Address → VNode) (proc : Address) (last : Pointer)
    (address : Address) :
    (cutNodes nodes proc current last address).previous = (nodes address).previous := by
  cases last with
  | none =>
    by_cases same : address = proc
    · subst same
      simp [cutNodes]
    · simp [cutNodes, same]
  | some prev =>
    by_cases same : address = prev
    · subst same
      simp [cutNodes]
    · simp [cutNodes, same]

/-- The forward links after an exit. -/
theorem exiting_next (scheduled : Scheduled layout before (front ++ current :: rest) taskOf)
    (entries : List Address) (address : Address) :
    ((before.exiting layout.proc current task front.getLast? entries).node address).next =
      if address = current then none
      else if front.getLast? = some address then (before.node current).next
      else (before.node address).next := by
  change (detach (closeNodes _ _) current address).next = _
  simp only [detach, closeNodes_field VNode.next fun _ => rfl,
    closeNodes_field VNode.previous fun _ => rfl, cutNodes_current scheduled,
    previous_current scheduled, cutNodes_next, eq_comm (a := some address)]
  split_ifs <;> rfl

/-- The backward links after an exit. -/
theorem exiting_previous (scheduled : Scheduled layout before (front ++ current :: rest) taskOf)
    (entries : List Address) (address : Address) :
    ((before.exiting layout.proc current task front.getLast? entries).node address).previous =
      if address = current then none
      else if (before.node current).next = some address then front.getLast?
      else (before.node address).previous := by
  change (detach (closeNodes _ _) current address).previous = _
  simp only [detach, closeNodes_field VNode.next fun _ => rfl,
    closeNodes_field VNode.previous fun _ => rfl, cutNodes_current scheduled,
    previous_current scheduled, cutNodes_previous, eq_comm (a := some address)]

/-- A node of the shorter list is a node of the longer one, and not the process that left. -/
theorem isNode_of_remaining (scheduled : Scheduled layout before (front ++ current :: rest) taskOf)
    {address : Address} (known : layout.IsNode (front ++ rest) address) :
    layout.IsNode (front ++ current :: rest) address ∧ address ≠ current := by
  have apart := scheduled.procsApart current (by simp)
  have notSelf : current ≠ layout.self := scheduled.ne_self (by simp)
  rcases known with boot | proc | self | member
  · exact ⟨.inl boot, fun same => apart.1 (same ▸ boot)⟩
  · exact ⟨.inr (.inl proc), fun same => apart.2 (same.symm.trans proc)⟩
  · exact ⟨.inr (.inr (.inl self)), fun same => notSelf (same.symm.trans self)⟩
  · have nodup := (List.nodup_append.mp scheduled.nodup).1
    refine ⟨.inr (.inr (.inr ?_)), fun same => ?_⟩
    · simp only [List.mem_append, List.mem_cons] at member ⊢
      tauto
    · subst same
      have split := List.nodup_middle.mp nodup
      exact (List.nodup_cons.mp split).1 member

/-- The processes that are left are the others. -/
theorem mem_remaining (scheduled : Scheduled layout before (front ++ current :: rest) taskOf)
    {process : Address} :
    process ∈ front ++ rest ↔ process ∈ front ++ current :: rest ∧ process ≠ current := by
  constructor
  · intro member
    refine ⟨?_, (isNode_of_remaining scheduled (.inr (.inr (.inr member)))).2⟩
    simp only [List.mem_append, List.mem_cons] at member ⊢
    tauto
  · rintro ⟨member, apart⟩
    simp only [List.mem_append, List.mem_cons] at member ⊢
    tauto

/-- The nodes and the blocks that are in use after an exit. -/
theorem mem_exiting_live {entries : List Address} {address : Address} :
    address ∈ (before.exiting layout.proc current task front.getLast? entries).live ↔
      address ∈ before.live ∧ address ∉ entries ∧ address ≠ task ∧ address ≠ current := by
  change address ∈ ((before.live \ entries.toFinset).erase task).erase current ↔ _
  simp only [Finset.mem_erase, Finset.mem_sdiff, List.mem_toFinset]
  tauto

/-- The children of `/proc` after an exit. -/
theorem exiting_children (scheduled : Scheduled layout before (front ++ current :: rest) taskOf)
    (entries : List Address) :
    Segment (before.exiting layout.proc current task front.getLast? entries).nextOf
      ((before.exiting layout.proc current task front.getLast? entries).node
        layout.proc).firstChild (front ++ rest ++ [layout.self]) none := by
  have children := scheduled.children
  rw [List.append_assoc, List.cons_append] at children
  rw [exiting_firstChild, List.append_assoc]
  simp only [true_and]
  refine children.remove (fun last here => ?_) fun later other notLast => ?_
  · have notCurrent : last ≠ current := fun same => ne_last scheduled (same ▸ here)
    rw [KernelState.nextOf, exiting_next scheduled, if_neg notCurrent, if_pos here]
    rfl
  · rw [KernelState.nextOf, exiting_next scheduled, if_neg other, if_neg notLast]
    rfl

/-- Their backward links. -/
theorem exiting_back (scheduled : Scheduled layout before (front ++ current :: rest) taskOf)
    (entries : List Address) :
    Backlinked (before.exiting layout.proc current task front.getLast? entries).previousOf none
      (front ++ rest ++ [layout.self]) := by
  have back := scheduled.back
  rw [List.append_assoc, List.cons_append] at back
  rw [List.append_assoc]
  have following : (before.node current).next = (rest ++ [layout.self]).head? := by
    rw [scheduled.next]
    cases rest <;> rfl
  have distinct := scheduled.nodup
  rw [List.append_assoc, List.cons_append] at distinct
  have parts := List.nodup_append.mp distinct
  have behind := List.nodup_cons.mp parts.2.1
  refine back.remove (fun later here => ?_) (fun later member => ?_) fun later member => ?_
  · have notCurrent : later ≠ current := fun same => behind.1 (same ▸ List.mem_of_head? here)
    rw [KernelState.previousOf, exiting_previous scheduled, if_neg notCurrent,
      if_pos (following.trans here)]
    exact (previous_current scheduled).symm
  · have notCurrent : later ≠ current := fun same =>
      parts.2.2 later member current List.mem_cons_self same
    have notNext : (before.node current).next ≠ some later := fun here =>
      parts.2.2 later member later (List.mem_cons_of_mem _
        (List.mem_of_head? (following.symm.trans here))) rfl
    rw [KernelState.previousOf, exiting_previous scheduled, if_neg notCurrent, if_neg notNext]
    rfl
  · have notCurrent : later ≠ current := fun same =>
      behind.1 (same ▸ List.mem_of_mem_tail member)
    have notNext : (before.node current).next ≠ some later := fun here => by
      obtain ⟨tail, split⟩ := List.head?_eq_some_iff.mp (following.symm.trans here)
      rw [split] at behind member
      exact (List.nodup_cons.mp behind.2).1 member
    rw [KernelState.previousOf, exiting_previous scheduled, if_neg notCurrent, if_neg notNext]
    rfl

/-- The nodes of the processes that are left are of their kind. -/
theorem exiting_procNode (scheduled : Scheduled layout before (front ++ current :: rest) taskOf)
    (entries : List Address) {process : Address} (member : process ∈ front ++ rest) :
    ProcNode ((before.exiting layout.proc current task front.getLast? entries).node process)
      (taskOf process) := by
  obtain ⟨inside, _⟩ := (mem_remaining scheduled).mp member
  have node := scheduled.node process inside
  have kept : ∀ {α : Type} (field : VNode → α), (∀ node, field node.closed = field node) →
      (∀ node link, field { node with firstChild := link } = field node) →
      (∀ node link, field { node with next := link } = field node) →
      (∀ node link, field { node with previous := link } = field node) →
      field ((before.exiting layout.proc current task front.getLast? entries).node process) =
        field (before.node process) :=
    fun field closed first forward backward =>
      exiting_field field closed first forward backward _ _ _ _
  constructor
  · rw [exiting_firstChild, if_neg fun both => (scheduled.procsApart process inside).2 both.1]
    exact node.firstChild
  · exact (kept VNode.parent (fun _ => rfl) (fun _ _ => rfl) (fun _ _ => rfl)
      (fun _ _ => rfl)).trans node.parent
  · exact (kept VNode.writeFunction (fun _ => rfl) (fun _ _ => rfl) (fun _ _ => rfl)
      (fun _ _ => rfl)).trans node.writeFunction
  · exact (kept VNode.readFunction (fun _ => rfl) (fun _ _ => rfl) (fun _ _ => rfl)
      (fun _ _ => rfl)).trans node.readFunction
  · exact (kept VNode.driverData (fun _ => rfl) (fun _ _ => rfl) (fun _ _ => rfl)
      (fun _ _ => rfl)).trans node.driverData

/-- An exit takes the current process out of the list. -/
theorem Scheduled.exit (scheduled : Scheduled layout before (front ++ current :: rest) taskOf)
    {entries : List Address}
    (apart : ∀ entry ∈ entries, ¬ layout.IsNode (front ++ current :: rest) entry ∧
      ∀ process ∈ front ++ current :: rest, taskOf process ≠ entry) :
    Scheduled layout
      (before.exiting layout.proc current (taskOf current) front.getLast? entries)
      (front ++ rest) taskOf := by
  have remaining := @isNode_of_remaining _ _ layout before front rest taskOf current scheduled
  have inList : ∀ process ∈ front ++ rest, process ∈ front ++ current :: rest := fun _ member =>
    ((mem_remaining scheduled).mp member).1
  have ownTask := scheduled.task current (by simp)
  exact {
    proc := scheduled.proc
    selfProc := scheduled.selfProc
    root := scheduled.root
    rootFirst := by
      have other : rootVNode ≠ layout.proc := fun same =>
        scheduled.procApart (same ▸ scheduled.root)
      rw [exiting_firstChild, if_neg fun both => other both.1]
      exact scheduled.rootFirst
    rootPlain := (exiting_field (fun node => hasFlag node.flags vfsOnDisk)
      (fun node => hasFlag_closed (by decide) node) (fun _ _ => rfl) (fun _ _ => rfl)
      (fun _ _ => rfl) _ _ _ _).trans scheduled.rootPlain
    procName := (exiting_field VNode.name (fun _ => rfl) (fun _ _ => rfl) (fun _ _ => rfl)
      (fun _ _ => rfl) _ _ _ _).trans scheduled.procName
    procPlain := (exiting_field (fun node => hasFlag node.flags vfsLink)
      (fun node => hasFlag_closed (by decide) node) (fun _ _ => rfl) (fun _ _ => rfl)
      (fun _ _ => rfl) _ _ _ _).trans scheduled.procPlain
    children := exiting_children scheduled entries
    back := exiting_back scheduled entries
    live := fun address known => by
      obtain ⟨before, other⟩ := remaining known
      have notTask : address ≠ taskOf current := fun same => ownTask.2 (same ▸ before)
      have notEntry : address ∉ entries := fun member => (apart address member).1 before
      exact mem_exiting_live.mpr ⟨scheduled.live address before, notEntry, notTask, other⟩
    procApart := scheduled.procApart
    selfApart := scheduled.selfApart
    procsApart := fun process member => scheduled.procsApart process (inList process member)
    node := fun _ member => exiting_procNode scheduled entries member
    task := fun process member => by
      obtain ⟨inside, other⟩ := (mem_remaining scheduled).mp member
      obtain ⟨live, noNode⟩ := scheduled.task process inside
      have notTask : taskOf process ≠ taskOf current := fun same =>
        other (scheduled.distinct process inside current (by simp) same)
      have notCurrent : taskOf process ≠ current := fun same =>
        noNode (same ▸ .inr (.inr (.inr (by simp))))
      have notEntry : taskOf process ∉ entries := fun listed =>
        (apart _ listed).2 process inside rfl
      exact ⟨mem_exiting_live.mpr ⟨live, notEntry, notTask, notCurrent⟩, fun known =>
        noNode (remaining known).1⟩
    distinct := fun left leftMember right rightMember =>
      scheduled.distinct left (inList left leftMember) right (inList right rightMember)
    current := by
      intro process here
      cases here }

end Exit

end Unarddeg
