import Unarddeg.Kernel.Sched.Calls

/-!
# Pointers to freed nodes

A node is freed by `close`, when it is deleted on close, and by the exit of its process. `close`
does not unregister the node first, as `SchedulerExit` does, so its parent and siblings still
point to it; an exit leaves the link of `self`, and whatever other processes hold. As long as no
freed node is held so, no pointer of the live state dangles (`no_dangling`).
-/

namespace Unarddeg

open Library

variable {width : Nat} {Registers : Type}

/-- A node that pointers lead to from the root. -/
inductive KernelState.Reachable (state : KernelState width Registers) : Address → Prop
  /-- The root. -/
  | root : state.Reachable rootVNode
  /-- A node that a reachable one points to. -/
  | points {node target : Address} (reached : state.Reachable node)
      (here : (state.node node).Points target) : state.Reachable target

/-- A node that was not freed. -/
def KernelState.IsLiveNode (state : KernelState width Registers) (boot : Finset Address)
    (node : Address) : Prop :=
  state.IsVNode boot node ∧ node ∈ state.live

/-- Every pointer to a node in the live state points to a node that was not freed. -/
structure NoDangling (boot : Finset Address) (state : KernelState width Registers) : Prop where
  /-- The pointers of the nodes that can be reached from the root. -/
  nodes : ∀ node, state.Reachable node → ∀ target, (state.node node).Points target →
    state.IsLiveNode boot target
  /-- The references of the entries of the processes. -/
  references : ∀ process entry target, state.IsProcess process → state.HasEntry process entry →
    (state.entry entry).reference = some target → state.IsLiveNode boot target
  /-- The working directories of the processes. -/
  baseDirs : ∀ process task target, state.IsProcess process →
    (state.node process).driverData = some task → (state.task task).baseDir = some target →
      state.IsLiveNode boot target

/-- Neither the link of `self` nor the working directory of another process is a process. -/
def KernelState.Unheld (state : KernelState width Registers) (process : Address) : Prop :=
  (∀ self, state.selfProc = some self → (state.node self).link ≠ some process) ∧
    ∀ other task, state.IsProcess other → other ≠ process →
      (state.node other).driverData = some task → (state.task task).baseDir ≠ some process

/-- A step that frees no node that the live state still holds. -/
def SafeStep (before : KernelState width Registers) (event : SystemEvent width)
    (after : KernelState width Registers) : Prop :=
  SystemStep before event after ∧ before.Keeps event ∧
    ∀ process, event = .sched (.exit (some process)) → before.Unheld process

/-- The invariant of the link of `self` and of the working directories. -/
structure Held (layout : Layout) (state : KernelState width Registers) (procs : List Address)
    (taskOf : Address → Address) : Prop where
  /-- `self` links to a process. -/
  selfLink : ∀ target, (state.node layout.self).link = some target → target ∈ procs
  /-- The working directories are nodes. -/
  baseDirs : ∀ process ∈ procs, ∀ target, (state.task (taskOf process)).baseDir = some target →
    layout.IsNode procs target

/-- When the scheduler starts, the first process works in the root. -/
theorem Held.start {before : KernelState width Registers} {boot : Finset Address}
    {proc self first data block : Address} {zeroState : Registers} (booted : Boot boot before)
    (procFresh : proc ∉ before.live)
    (selfFresh : self ∉ insert proc before.live)
    (fresh : FreshBlocks (before.withDir proc self).live first data block) :
    Held ⟨boot, proc, self⟩
      { (before.withDir proc self).creating proc first data block zeroState with
        currentProc := some first } [first] (Function.update (fun _ => 0) first data) := by
  refine ⟨fun target points => ?_, fun process member target dir => ?_⟩
  · rw [show _ = none from Pointers.start_selfLink booted procFresh selfFresh fresh] at points
    cases points
  · obtain rfl := List.mem_singleton.mp member
    simp only [Function.update_self, KernelState.creating, KernelState.making,
      Option.some.injEq] at dir
    exact .inl (dir ▸ booted.root)

section Step

variable {layout : Layout} {initial start before after state : KernelState width Registers}
  {procs : List Address} {taskOf : Address → Address} {filesOf : Address → List Address}
  {event : SystemEvent width} {events : List (SystemEvent width)}

/-- An entry for a node changes nothing that is held. -/
theorem Held.opening (held : Held layout before procs taskOf)
    (scheduled : Scheduled layout before procs taskOf) {task node entry : Address}
    {entries : List Address} (fresh : entry ∉ before.live) :
    Held layout (before.opening task entries node entry) procs taskOf := by
  have other : layout.self ≠ entry := fun same =>
    fresh (same ▸ scheduled.live layout.self (.inr (.inr (.inl rfl))))
  refine ⟨fun target points => ?_, fun owner member target dir => ?_⟩
  · simp only [KernelState.opening, relinkAt_node, withEntry_node before other] at points
    split_ifs at points <;> exact held.selfLink target points
  · simp only [KernelState.opening, relinkAt_baseDir] at dir
    exact held.baseDirs owner member target dir

/-- Neither does the end of an entry. -/
theorem Held.dropping (held : Held layout before procs taskOf) {task target node : Address}
    {front : List Address} :
    Held layout (before.dropping task front target node) procs taskOf := by
  refine ⟨fun target link => ?_, fun owner member target dir => ?_⟩
  · simp only [KernelState.dropping, KernelState.setNode, relinkAt_node,
      Function.update_apply] at link
    split_ifs at link with same
    · exact held.selfLink target (same ▸ link)
    · exact held.selfLink target link
  · simp only [KernelState.dropping, KernelState.setNode, relinkAt_baseDir] at dir
    exact held.baseDirs owner member target dir

/-- A process moves to a node. -/
theorem Held.moving (held : Held layout before procs taskOf)
    (scheduled : Scheduled layout before procs taskOf) (pointers : Pointers layout before procs)
    {process : Address} {found : Pointer} {path : List UInt8} {fuel : Nat}
    (here : before.currentProc = some process)
    (resolved : relativeFind before.node fuel (before.task (taskOf process)).baseDir path =
      .ok found) :
    Held layout (before.setTask (taskOf process)
      { before.task (taskOf process) with baseDir := found }) procs taskOf := by
  refine ⟨held.selfLink, fun owner member target dir => ?_⟩
  simp only [KernelState.setTask, Function.update_apply] at dir
  split_ifs at dir
  · subst dir
    exact relativeFind_known (pointers.known scheduled held.selfLink) (.inl scheduled.root)
      (held.baseDirs process (scheduled.current process here)) resolved
  · exact held.baseDirs owner member target dir

/-- A new process works in the root. -/
theorem Held.creating (held : Held layout before procs taskOf)
    (scheduled : Scheduled layout before procs taskOf) {new data block : Address}
    {initialState : Registers} (fresh : FreshBlocks before.live new data block) :
    Held layout (before.creating layout.proc new data block initialState) (new :: procs)
      (Function.update taskOf new data) := by
  refine ⟨fun target points => ?_, fun owner member target dir => ?_⟩
  · have kept := congrArg VNode.link (creating_node scheduled initialState fresh
      (scheduled.live layout.self (.inr (.inr (.inl rfl)))))
    exact List.mem_cons_of_mem _ (held.selfLink target (kept.symm.trans points))
  · rcases List.mem_cons.mp member with rfl | old
    · simp only [KernelState.creating, KernelState.making, Function.update_self,
        Option.some.injEq] at dir
      exact .inl (dir ▸ scheduled.root)
    · have notNew : owner ≠ new :=
        (fresh.ne (scheduled.live owner (.inr (.inr (.inr old))))).1
      have notData : taskOf owner ≠ data := (fresh.ne (scheduled.task owner old).1).2.1
      rw [Function.update_of_ne notNew] at dir
      simp only [KernelState.creating, KernelState.making, Function.update_of_ne notData] at dir
      exact Layout.isNode_cons.mpr (.inr (held.baseDirs owner old target dir))

/-- A process that is not held leaves. -/
theorem Held.exiting {process : Address} {front rest entries : List Address}
    (held : Held layout before (front ++ process :: rest) taskOf)
    (scheduled : Scheduled layout before (front ++ process :: rest) taskOf)
    (unheld : before.Unheld process) :
    Held layout (before.exiting layout.proc process (taskOf process) front.getLast? entries)
      (front ++ rest) taskOf := by
  obtain ⟨unlinked, undirected⟩ := unheld
  refine ⟨fun target points => ?_, fun owner member target dir => ?_⟩
  · have link : (before.node layout.self).link = some target :=
      (exiting_field VNode.link (fun _ => rfl) (fun _ _ => rfl) (fun _ _ => rfl)
        (fun _ _ => rfl) _ _ _ _).symm.trans points
    have member := held.selfLink target link
    have other : target ≠ process := fun same =>
      unlinked layout.self scheduled.selfProc (same ▸ link)
    exact (mem_remaining scheduled).mpr ⟨member, other⟩
  · obtain ⟨old, apart⟩ := (mem_remaining scheduled).mp member
    simp only [KernelState.exiting, KernelState.closing, relinkAt_baseDir] at dir
    refine Descriptors.remaining_isNode (held.baseDirs owner old target dir) fun same => ?_
    exact undirected owner (taskOf owner) (scheduled.isProcess.mpr old) apart
      (scheduled.node owner old).driverData (same ▸ dir)

/-- `self` links to the process that is selected. -/
theorem Held.selecting (held : Held layout before procs taskOf) {process task : Address}
    (member : process ∈ procs) :
    Held layout (before.selecting layout.self process task) procs taskOf := by
  refine ⟨fun target points => ?_, held.baseDirs⟩
  simp only [KernelState.selecting, Function.update_self, Option.some.injEq] at points
  exact points ▸ member

/-- A safe step keeps what the processes hold. -/
theorem SafeStep.held (descriptors : Descriptors layout before procs taskOf filesOf)
    (pointers : Pointers layout before procs) (held : Held layout before procs taskOf)
    (step : SafeStep before event after) :
    ∃ procs' taskOf' filesOf', Descriptors layout after procs' taskOf' filesOf' ∧
      Pointers layout after procs' ∧ Held layout after procs' taskOf' := by
  obtain ⟨step, keeps, unheld⟩ := step
  obtain ⟨procs', taskOf', filesOf', effect⟩ := step.effect descriptors pointers keeps
  have scheduled := descriptors.scheduled
  refine ⟨procs', taskOf', filesOf', effect.descriptors descriptors,
    effect.pointers scheduled pointers, ?_⟩
  cases effect with
  | opening here found unmarked known fresh => exact held.opening scheduled fresh
  | dropping here split points => exact held.dropping
  | moving here resolved => exact held.moving scheduled pointers here resolved
  | creating fresh => exact held.creating scheduled fresh
  | exiting here split unreferenced =>
    subst split
    exact held.exiting scheduled (unheld _ rfl)
  | selecting next => exact held.selecting (Ring.successor_mem next)

/-- With the invariants no pointer dangles. -/
theorem Held.noDangling (descriptors : Descriptors layout state procs taskOf filesOf)
    (pointers : Pointers layout state procs) (held : Held layout state procs taskOf) :
    NoDangling layout.boot state := by
  have scheduled := descriptors.scheduled
  have known := pointers.known scheduled held.selfLink
  have live : ∀ {target}, layout.IsNode procs target → state.IsLiveNode layout.boot target :=
    fun {target} isNode => ⟨scheduled.isVNode.mpr isNode, scheduled.live target isNode⟩
  refine ⟨fun node reached target points => ?_, fun process entry target isProcess has refers => ?_,
    fun process task target isProcess data dir => ?_⟩
  · have isNode : layout.IsNode procs node := by
      clear points
      induction reached with
      | root => exact .inl scheduled.root
      | points _ here ih => exact known _ ih _ here
    exact live (known node isNode target points)
  · have member := scheduled.isProcess.mp isProcess
    obtain ⟨node, points, isNode⟩ :=
      descriptors.reference process member entry ((descriptors.hasEntry member).mp has)
    exact live (Option.some.inj (points.symm.trans refers) ▸ isNode)
  · have member := scheduled.isProcess.mp isProcess
    obtain rfl := Option.some.inj ((scheduled.node process member).driverData.symm.trans data)
    exact live (held.baseDirs process member target dir)

/-- Every safe run keeps what the processes hold. -/
theorem held_run (descriptors : Descriptors layout start procs taskOf filesOf)
    (pointers : Pointers layout start procs) (held : Held layout start procs taskOf)
    (run : Run SafeStep start events state) :
    ∃ procs' taskOf' filesOf', Descriptors layout state procs' taskOf' filesOf' ∧
      Pointers layout state procs' ∧ Held layout state procs' taskOf' := by
  induction run with
  | nil => exact ⟨procs, taskOf, filesOf, descriptors, pointers, held⟩
  | snoc _ step ih =>
    obtain ⟨_, _, _, descriptors, pointers, held⟩ := ih
    exact step.held descriptors pointers held

/-- **No dangling pointers.** In every run whose steps free no node that is still held, no pointer
of the live state dangles. -/
theorem no_dangling {boot : Finset Address} {allocator : Allocator} {fuel : Nat}
    {zeroState : Registers} (booted : Boot boot initial)
    (parents : ∀ address ∈ boot, ∀ target, (initial.node address).parent = some target →
      target ∈ boot)
    (started : schedulerInitialise allocator fuel zeroState initial = .ok () start)
    (run : Run SafeStep start events state) : NoDangling boot state := by
  obtain ⟨proc, self, first, data, block, procFresh, selfFresh, fresh, rfl⟩ :=
    schedulerInitialise_ok booted started
  obtain ⟨procs, taskOf, filesOf, descriptors, pointers, held⟩ :=
    held_run (.start booted procFresh selfFresh fresh)
      (.start booted parents procFresh selfFresh fresh)
      (.start booted procFresh selfFresh fresh) run
  exact held.noDangling descriptors pointers

end Step

/-! ## A node that is deleted on close -/

/-- A child of the root that is deleted on close. -/
def makeDeletable : Kernel (KernelState 32 Unit) Unit := do
  let node ← newVNode .next vfsDelete
  writeNode (some node) fun node => { node with name := ⟨cString ['a'], 1⟩ }
  registerChildVNode (some rootVNode) (some node)

/-- The boot with the child. -/
def sampleDeletable : KernelState 32 Unit := stateAfter makeDeletable (.bareRoot 32 ())

/-- The scheduler after its start over that boot. -/
def sampleDeletableStart : KernelState 32 Unit :=
  stateAfter (schedulerInitialise .next 4 ()) sampleDeletable

/-- The first process opens the child. -/
def sampleDeletableOpened : KernelState 32 Unit :=
  stateAfter (openPath .next 4 (cString ['a'])) sampleDeletableStart

/-- The first process closes the child. -/
def sampleDeletableClosed : KernelState 32 Unit :=
  stateAfter (close 4 0) sampleDeletableOpened

/-- The two nodes of the boot satisfy what each of them does. -/
theorem sampleDeletable_forall {good : Address → Prop} (root : good 0) (child : good 1) :
    ∀ address ∈ ({0, 1} : Finset Address), good address := by
  intro address member
  rcases Finset.mem_insert.mp member with rfl | member
  · exact root
  · rwa [Finset.mem_singleton.mp member]

/-- A null pointer leads nowhere. -/
theorem points_of_none {pointer : Pointer} {good : Address → Prop} (null : pointer = none)
    (target : Address) (points : pointer = some target) : good target := by
  cases null.symm.trans points

/-- The boot with the child is a boot. -/
theorem sampleDeletable_boot : Boot {0, 1} sampleDeletable where
  root := by decide
  live := sampleDeletable_forall (by decide +kernel) (by decide +kernel)
  rootPlain := by decide +kernel
  firstChild := sampleDeletable_forall
    (fun target points => by
      have first : (sampleDeletable.node 0).firstChild = some 1 := by decide +kernel
      obtain rfl := Option.some.inj (first.symm.trans points)
      decide)
    (points_of_none (by decide +kernel))
  next := sampleDeletable_forall (points_of_none (by decide +kernel))
    (points_of_none (by decide +kernel))
  previous := sampleDeletable_forall (points_of_none (by decide +kernel))
    (points_of_none (by decide +kernel))
  link := sampleDeletable_forall (points_of_none (by decide +kernel))
    (points_of_none (by decide +kernel))

/-- No node of the boot has a parent link. -/
theorem sampleDeletable_parents : ∀ address ∈ ({0, 1} : Finset Address), ∀ target,
    (sampleDeletable.node address).parent = some target → target ∈ ({0, 1} : Finset Address) :=
  sampleDeletable_forall (points_of_none (by decide +kernel)) (points_of_none (by decide +kernel))

/-- The start returns. -/
theorem sampleDeletable_started :
    schedulerInitialise .next 4 () sampleDeletable = .ok () sampleDeletableStart :=
  ok_of_resultOf (by decide +kernel)

/-- The process opens the child. -/
theorem sampleDeletable_opens :
    SystemStep sampleDeletableStart (.openPath (cString ['a'])) sampleDeletableOpened :=
  .openPath .next 4 _ (ok_of_resultOf (by decide +kernel : _ = some 0#32))

/-- While the child is open, nothing dangles. -/
theorem no_dangling_opened : NoDangling {0, 1} sampleDeletableOpened :=
  no_dangling sampleDeletable_boot sampleDeletable_parents sampleDeletable_started
    (.snoc (.nil _) ⟨sampleDeletable_opens, trivial, by simp⟩)

/-- A reachable node whose next sibling was freed dangles. -/
theorem NoDangling.next_freed {boot : Finset Address} {state : KernelState width Registers}
    {node target : Address} (sound : NoDangling boot state) (reached : state.Reachable node)
    (next : (state.node node).next = some target) (freed : target ∉ state.live) : False :=
  freed (sound.nodes node reached target (.inr (.inl next))).2

/-- Closing the child frees it, but `/proc` still points to it as its next sibling. -/
theorem closed_node_dangles :
    ¬ ∀ (initial start state : KernelState 32 Unit) (boot : Finset Address)
      (events : List (SystemEvent 32)), Boot boot initial →
      (∀ address ∈ boot, ∀ target, (initial.node address).parent = some target → target ∈ boot) →
      schedulerInitialise .next 4 () initial = .ok () start → Run SystemStep start events state →
      NoDangling boot state := by
  intro claim
  have closes : SystemStep sampleDeletableOpened (.close 0) sampleDeletableClosed :=
    .close 4 0 (ok_of_resultOf (by decide +kernel))
  have sound := claim _ _ _ _ _ sampleDeletable_boot sampleDeletable_parents
    sampleDeletable_started (.snoc (.snoc (.nil _) sampleDeletable_opens) closes)
  have first : (sampleDeletableClosed.node rootVNode).firstChild = some 2 := by decide +kernel
  have next : (sampleDeletableClosed.node 2).next = some 1 := by decide +kernel
  have freed : 1 ∉ sampleDeletableClosed.live := by decide +kernel
  exact sound.next_freed (.points .root (.inl first)) next freed

end Unarddeg
