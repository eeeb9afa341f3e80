import Unarddeg.Kernel.Sched.Calls

/-!
# The mark of an opened node

`VFS_OPENED` lies in the node, the entries lie in the lists of the processes. While no node is
deleted on close and no process node is opened, a node has the mark exactly when one entry of one
process refers to it (`opened_iff`): `open` refuses a marked node, `close` clears the mark of the
only entry, and the exit of a process clears the marks of all its entries.
-/

namespace Unarddeg

open Library

variable {width : Nat} {Registers : Type}

/-- The invariant of the marks. -/
structure Marked (layout : Layout) (state : KernelState width Registers) (procs : List Address)
    (filesOf : Address → List Address) : Prop where
  /-- A node is marked when an entry refers to it. -/
  marked : ∀ node, layout.IsNode procs node →
    (hasFlag (state.node node).flags vfsOpened = true ↔
      ∃ process ∈ procs, ∃ entry ∈ filesOf process, (state.entry entry).reference = some node)
  /-- No two entries refer to the same node. -/
  single : ∀ left ∈ procs, ∀ first ∈ filesOf left, ∀ right ∈ procs, ∀ second ∈ filesOf right,
    (state.entry first).reference = (state.entry second).reference → first = second
  /-- No entry refers to a process. -/
  notProcess : ∀ process ∈ procs, ∀ entry ∈ filesOf process, ∀ other ∈ procs,
    (state.entry entry).reference ≠ some other
  /-- No node is deleted on close. -/
  kept : ∀ node, layout.IsNode procs node → hasFlag (state.node node).flags vfsDelete = false

/-- An opened node is marked. -/
theorem hasFlag_opened_self (node : VNode) : hasFlag node.opened.flags vfsOpened = true := by
  have mask : (node.flags ||| vfsOpened) &&& vfsOpened = vfsOpened := by grind
  simp only [hasFlag, VNode.opened, mask]
  decide

/-- A closed node is not marked. -/
theorem hasFlag_closed_self (node : VNode) : hasFlag node.closed.flags vfsOpened = false := by
  have mask : node.flags &&& ~~~vfsOpened &&& vfsOpened = 0 := by
    rw [BitVec.and_assoc, show ~~~vfsOpened &&& vfsOpened = 0 by decide]
    simp
  simp only [hasFlag, VNode.closed, mask]
  decide

/-- The marks after an exit: those of the nodes with entries of the process are cleared. -/
theorem exiting_flags {state : KernelState width Registers} {proc process task address : Address}
    {last : Pointer} {entries : List Address} :
    ((state.exiting proc process task last entries).node address).flags =
      (closeNodes state.node (entries.map fun entry => (state.entry entry).reference)
        address).flags := by
  have cut := cutNodes_flags state.node proc process address last
  change (closeNodes (cutNodes state.node proc process last) _ address).flags = _
  simp only [closeNodes]
  split_ifs
  · exact congrArg (· &&& ~~~vfsOpened) cut
  · exact cut

namespace Marked

variable {layout : Layout} {before after : KernelState width Registers} {procs : List Address}
  {taskOf : Address → Address} {filesOf : Address → List Address} {process : Address}

/-- Opening an unmarked node that is no process marks it for its new entry. -/
theorem opening (marked : Marked layout before procs filesOf)
    (descriptors : Descriptors layout before procs taskOf filesOf) (member : process ∈ procs)
    {task node entry : Address} {entries : List Address}
    (unmarked : hasFlag (before.node node).flags vfsOpened = false)
    (known : layout.IsNode procs node) (notProcess : node ∉ procs) (fresh : entry ∉ before.live) :
    Marked layout (before.opening task entries node entry) procs
      (Function.update filesOf process (filesOf process ++ [entry])) := by
  set after := before.opening task entries node entry with afterIs
  have scheduled := descriptors.scheduled
  have newRef : (after.entry entry).reference = some node := Descriptors.opening_new ..
  have oldRef : ∀ {owner}, owner ∈ procs → ∀ {old}, old ∈ filesOf owner →
      (after.entry old).reference = (before.entry old).reference := by
    intro owner inside old held
    have other : old ≠ entry := fun same =>
      fresh (same ▸ descriptors.owned owner inside old held)
    exact Descriptors.opening_old _ _ _ other
  have unheld : ∀ owner ∈ procs, ∀ old ∈ filesOf owner,
      (before.entry old).reference ≠ some node := by
    intro owner inside old held points
    rw [(marked.marked node known).mpr ⟨owner, inside, old, held, points⟩] at unmarked
    cases unmarked
  have nodes : ∀ {address}, layout.IsNode procs address → after.node address =
      if address = node then (before.node address).opened else before.node address := by
    intro address isNode
    have other : address ≠ entry := fun same => fresh (same ▸ scheduled.live address isNode)
    simp only [afterIs, KernelState.opening, relinkAt_node, withEntry_node before other]
  exact {
    marked := fun address isNode => by
      rw [nodes isNode]
      by_cases same : address = node
      · subst same
        rw [if_pos rfl]
        refine iff_of_true (hasFlag_opened_self _) ⟨process, member, entry, ?_, newRef⟩
        exact Descriptors.mem_opening.mpr (.inl ⟨rfl, rfl⟩)
      · rw [if_neg same, marked.marked address isNode]
        constructor
        · rintro ⟨owner, inside, old, held, points⟩
          exact ⟨owner, inside, old, Descriptors.mem_opening.mpr (.inr held),
            (oldRef inside held).trans points⟩
        · rintro ⟨owner, inside, old, listed, points⟩
          rcases Descriptors.mem_opening.mp listed with ⟨_, rfl⟩ | held
          · exact absurd (Option.some.inj (newRef.symm.trans points)).symm same
          · exact ⟨owner, inside, old, held, (oldRef inside held).symm.trans points⟩
    single := fun left leftMember first inLeft right rightMember second inRight shared => by
      rcases Descriptors.mem_opening.mp inLeft with ⟨_, newLeft⟩ | oldLeft <;>
        rcases Descriptors.mem_opening.mp inRight with ⟨_, newRight⟩ | oldRight
      · exact newLeft.trans newRight.symm
      · rw [newLeft, newRef, oldRef rightMember oldRight] at shared
        exact absurd shared.symm (unheld right rightMember second oldRight)
      · rw [newRight, newRef, oldRef leftMember oldLeft] at shared
        exact absurd shared (unheld left leftMember first oldLeft)
      · rw [oldRef leftMember oldLeft, oldRef rightMember oldRight] at shared
        exact marked.single left leftMember first oldLeft right rightMember second oldRight shared
    notProcess := fun owner inside old listed other otherMember => by
      rcases Descriptors.mem_opening.mp listed with ⟨_, rfl⟩ | held
      · rw [newRef]
        exact fun same => notProcess (Option.some.inj same ▸ otherMember)
      · rw [oldRef inside held]
        exact marked.notProcess owner inside old held other otherMember
    kept := fun address isNode => by
      rw [nodes isNode]
      split_ifs
      · exact (hasFlag_opened (by decide) _).trans (marked.kept address isNode)
      · exact marked.kept address isNode }

/-- Closing an entry clears the mark of its node, to which no other entry refers. -/
theorem dropping (marked : Marked layout before procs filesOf)
    (descriptors : Descriptors layout before procs taskOf filesOf) (member : process ∈ procs)
    {task target node : Address} {front back : List Address}
    (split : filesOf process = front ++ target :: back)
    (points : (before.entry target).reference = some node) :
    Marked layout (before.dropping task front target node) procs
      (Function.update filesOf process (front ++ back)) := by
  have listed := fun {owner : Address} inside {entry : Address} =>
    @Descriptors.mem_dropping _ _ _ _ _ _ _ _ descriptors member _ _ _ split owner inside entry
  have targetListed : target ∈ filesOf process := by simp [split]
  have nodes : ∀ address, (before.dropping task front target node).node address =
      if address = node then (before.node address).closed else before.node address := by
    intro address
    simp only [KernelState.dropping, KernelState.setNode, relinkAt_node, Function.update_apply]
    split_ifs with same
    · rw [same]
    · rfl
  exact {
    marked := fun address isNode => by
      simp only [Descriptors.dropping_reference, nodes]
      by_cases same : address = node
      · subst same
        rw [if_pos rfl, hasFlag_closed_self]
        refine iff_of_false (by simp) ?_
        rintro ⟨owner, inside, entry, held, shared⟩
        obtain ⟨old, notTarget⟩ := (listed inside).mp held
        exact notTarget (marked.single owner inside entry old process member target targetListed
          (shared.trans points.symm))
      · rw [if_neg same, marked.marked address isNode]
        constructor
        · rintro ⟨owner, inside, entry, held, refers⟩
          refine ⟨owner, inside, entry, (listed inside).mpr ⟨held, ?_⟩, refers⟩
          rintro rfl
          exact same (Option.some.inj (refers.symm.trans points))
        · rintro ⟨owner, inside, entry, held, refers⟩
          exact ⟨owner, inside, entry, ((listed inside).mp held).1, refers⟩
    single := fun left leftMember first inLeft right rightMember second inRight shared => by
      simp only [Descriptors.dropping_reference] at shared
      exact marked.single left leftMember first ((listed leftMember).mp inLeft).1 right rightMember
        second ((listed rightMember).mp inRight).1 shared
    notProcess := fun owner inside entry held other otherMember => by
      rw [Descriptors.dropping_reference]
      exact marked.notProcess owner inside entry ((listed inside).mp held).1 other otherMember
    kept := fun address isNode => by
      rw [nodes]
      split_ifs
      · exact (hasFlag_closed (by decide) _).trans (marked.kept address isNode)
      · exact marked.kept address isNode }

/-- A new process is not marked, and no entry refers to it. -/
theorem create (marked : Marked layout before procs filesOf)
    (descriptors : Descriptors layout before procs taskOf filesOf) {new data block : Address}
    {initialState : Registers} (fresh : FreshBlocks before.live new data block) :
    Marked layout (before.creating layout.proc new data block initialState) (new :: procs)
      (Function.update filesOf new []) := by
  set after := before.creating layout.proc new data block initialState
  have scheduled := descriptors.scheduled
  have notNew : ∀ {address}, layout.IsNode procs address → address ≠ new := fun known =>
    (fresh.ne (scheduled.live _ known)).1
  have listed : ∀ {owner}, owner ∈ new :: procs → ∀ {entry},
      entry ∈ Function.update filesOf new [] owner → owner ∈ procs ∧ entry ∈ filesOf owner :=
    fun inside _ held =>
      Descriptors.mem_creating (fun member => notNew (.inr (.inr (.inr member))) rfl) inside held
  have reference : ∀ {owner}, owner ∈ procs → ∀ {entry}, entry ∈ filesOf owner →
      (after.entry entry).reference = (before.entry entry).reference := by
    intro owner inside entry held
    exact congrArg FileDescriptor.reference (descriptors.creating_entry fresh inside held)
  have flags : ∀ {address}, layout.IsNode procs address →
      (after.node address).flags = (before.node address).flags := fun known =>
    (congrArg VNode.flags
      (creating_node scheduled initialState fresh (scheduled.live _ known))).trans rfl
  have newFlags : (after.node new).flags = processFlags :=
    congrArg VNode.flags (creating_new scheduled fresh)
  have notHeld : ∀ {owner}, owner ∈ procs → ∀ {entry}, entry ∈ filesOf owner →
      (before.entry entry).reference ≠ some new := by
    intro owner inside entry held points
    obtain ⟨node, refers, known⟩ := descriptors.reference owner inside entry held
    exact notNew known (Option.some.inj (refers.symm.trans points))
  exact {
    marked := fun address isNode => by
      rcases Layout.isNode_cons.mp isNode with rfl | old
      · rw [newFlags, show hasFlag processFlags vfsOpened = false by decide]
        refine iff_of_false (by simp) ?_
        rintro ⟨owner, inside, entry, held, points⟩
        obtain ⟨inside, held⟩ := listed inside held
        exact notHeld inside held ((reference inside held).symm.trans points)
      · rw [flags old, marked.marked address old]
        constructor
        · rintro ⟨owner, inside, entry, held, points⟩
          refine ⟨owner, List.mem_cons_of_mem _ inside, entry, ?_,
            (reference inside held).trans points⟩
          rwa [Function.update_of_ne (notNew (.inr (.inr (.inr inside))))]
        · rintro ⟨owner, inside, entry, held, points⟩
          obtain ⟨inside, held⟩ := listed inside held
          exact ⟨owner, inside, entry, held, (reference inside held).symm.trans points⟩
    single := fun left leftMember first inLeft right rightMember second inRight shared => by
      obtain ⟨leftOld, oldLeft⟩ := listed leftMember inLeft
      obtain ⟨rightOld, oldRight⟩ := listed rightMember inRight
      rw [reference leftOld oldLeft, reference rightOld oldRight] at shared
      exact marked.single left leftOld first oldLeft right rightOld second oldRight shared
    notProcess := fun owner inside entry held other otherMember => by
      obtain ⟨ownerOld, heldOld⟩ := listed inside held
      rw [reference ownerOld heldOld]
      rcases List.mem_cons.mp otherMember with rfl | old
      · exact notHeld ownerOld heldOld
      · exact marked.notProcess owner ownerOld entry heldOld other old
    kept := fun address isNode => by
      rcases Layout.isNode_cons.mp isNode with rfl | old
      · rw [newFlags]
        decide
      · rw [flags old]
        exact marked.kept address old }

/-- An exit clears the marks of the nodes that only the entries of the process refer to. -/
theorem exit {front rest : List Address}
    (marked : Marked layout before (front ++ process :: rest) filesOf)
    (descriptors : Descriptors layout before (front ++ process :: rest) taskOf filesOf) :
    Marked layout (before.exiting layout.proc process (taskOf process) front.getLast?
      (filesOf process)) (front ++ rest) filesOf := by
  have scheduled := descriptors.scheduled
  have here : process ∈ front ++ process :: rest := by simp
  have inList : ∀ {other}, other ∈ front ++ rest ↔
      other ∈ front ++ process :: rest ∧ other ≠ process := mem_remaining scheduled
  have isNode : ∀ {address}, layout.IsNode (front ++ rest) address →
      layout.IsNode (front ++ process :: rest) address := fun known =>
    (isNode_of_remaining scheduled known).1
  exact {
    marked := fun address known => by
      rw [exiting_flags]
      change _ ↔ ∃ owner ∈ front ++ rest, ∃ entry ∈ filesOf owner,
        (before.entry entry).reference = some address
      by_cases own : some address ∈ (filesOf process).map fun entry =>
          (before.entry entry).reference
      · rw [closeNodes, if_pos own, hasFlag_closed_self]
        refine iff_of_false (by simp) ?_
        rintro ⟨owner, inside, entry, held, points⟩
        obtain ⟨mine, listed, refers⟩ := List.mem_map.mp own
        obtain ⟨old, apart⟩ := inList.mp inside
        obtain rfl := marked.single owner old entry held process here mine listed
          (points.trans refers.symm)
        exact apart (descriptors.separate owner old process here entry held listed)
      · rw [closeNodes, if_neg own, marked.marked address (isNode known)]
        constructor
        · rintro ⟨owner, inside, entry, held, points⟩
          refine ⟨owner, inList.mpr ⟨inside, ?_⟩, entry, held, points⟩
          rintro rfl
          exact own (List.mem_map.mpr ⟨entry, held, points⟩)
        · rintro ⟨owner, inside, entry, held, points⟩
          exact ⟨owner, (inList.mp inside).1, entry, held, points⟩
    single := fun left leftMember first inLeft right rightMember second inRight shared =>
      marked.single left (inList.mp leftMember).1 first inLeft right (inList.mp rightMember).1
        second inRight shared
    notProcess := fun owner inside entry held other otherMember =>
      marked.notProcess owner (inList.mp inside).1 entry held other (inList.mp otherMember).1
    kept := fun address known => by
      rw [exiting_flags]
      unfold closeNodes
      split_ifs
      · exact (hasFlag_closed (by decide) _).trans (marked.kept address (isNode known))
      · exact marked.kept address (isNode known) }

/-- A selection writes no mark. -/
theorem select (marked : Marked layout before procs filesOf) (task : Address) :
    Marked layout (before.selecting layout.self process task) procs filesOf := by
  have flags : ∀ address, ((before.selecting layout.self process task).node address).flags =
      (before.node address).flags := by
    intro address
    simp only [KernelState.selecting, Function.update_apply]
    split_ifs with same
    · rw [same]
    · rfl
  exact {
    marked := fun address known => by
      rw [flags]
      exact marked.marked address known
    single := marked.single
    notProcess := marked.notProcess
    kept := fun address known => by
      rw [flags]
      exact marked.kept address known }

/-- When the scheduler starts, no node is marked and no process has an entry. -/
theorem start {boot : Finset Address} {proc self first data block : Address}
    {zeroState : Registers} (booted : Boot boot before)
    (plain : ∀ address ∈ boot, hasFlag (before.node address).flags vfsOpened = false ∧
      hasFlag (before.node address).flags vfsDelete = false)
    (procFresh : proc ∉ before.live) (selfFresh : self ∉ insert proc before.live)
    (fresh : FreshBlocks (before.withDir proc self).live first data block) :
    Marked ⟨boot, proc, self⟩
      { (before.withDir proc self).creating proc first data block zeroState with
        currentProc := some first } [first] (Function.update (fun _ => []) first []) := by
  have flags : ∀ address, (⟨boot, proc, self⟩ : Layout).IsNode [] address →
      hasFlag ((before.withDir proc self).node address).flags vfsOpened = false ∧
      hasFlag ((before.withDir proc self).node address).flags vfsDelete = false := by
    rintro address (member | rfl | rfl | none)
    · rw [withDir_boot booted procFresh selfFresh member]
      exact plain address member
    · rw [withDir_proc booted procFresh selfFresh]
      exact (by decide : hasFlag processFlags vfsOpened = false ∧
        hasFlag processFlags vfsDelete = false)
    · rw [withDir_self booted procFresh selfFresh]
      exact (by decide : hasFlag vfsSystem vfsOpened = false ∧ hasFlag vfsSystem vfsDelete = false)
    · simp at none
  have dir : Marked ⟨boot, proc, self⟩
      { before.withDir proc self with proc := some proc, currentProc := none } [] fun _ => [] := {
    marked := fun address known => iff_of_false (by simp [(flags address known).1]) (by simp)
    single := by simp
    notProcess := by simp
    kept := fun address known => (flags address known).2 }
  have made := @create _ _ _ _ _ _ _ dir (Descriptors.dir booted procFresh selfFresh) _ _ _
      zeroState
    fresh
  exact ⟨made.marked, made.single, made.notProcess, made.kept⟩

end Marked

/-- A step that opens no node of a process. -/
def PlainStep (before : KernelState width Registers) (event : SystemEvent width)
    (after : KernelState width Registers) : Prop :=
  SystemStep before event after ∧ ∀ path fuel node, event = .openPath path →
    relativeFind before.node fuel (some rootVNode) (boundedPath path) = .ok (some node) →
      ¬ before.IsProcess node

section Runs

variable {layout : Layout} {initial start before after state : KernelState width Registers}
  {procs : List Address} {taskOf : Address → Address} {filesOf : Address → List Address}
  {event : SystemEvent width} {events : List (SystemEvent width)}

/-- With these marks no step deletes a node, and none leaves an entry for a process that left. -/
theorem Marked.keeps (marked : Marked layout before procs filesOf)
    (descriptors : Descriptors layout before procs taskOf filesOf)
    (step : SystemStep before event after) :
    before.Keeps event := by
  have plain : ∀ {process entry node}, process ∈ procs → entry ∈ filesOf process →
      (before.entry entry).reference = some node →
      hasFlag (before.node node).flags vfsDelete = false := by
    intro process entry node member listed points
    obtain ⟨other, refers, known⟩ := descriptors.reference process member entry listed
    obtain rfl := Option.some.inj (refers.symm.trans points)
    exact marked.kept other known
  cases step with
  | openPath allocator fuel path returned => trivial
  | chdir fuel path returned => trivial
  | close fuel fd returned =>
    rintro target node ⟨process, front, back, here, files, _⟩ points
    obtain ⟨member, _⟩ := descriptors.currentFiles here
    refine plain member ?_ points
    rw [← (descriptors.hasFiles member).mp files]
    simp
  | sched step =>
    cases step with
    | create allocator fuel initialState returned => trivial
    | select fuel returned => trivial
    | exit fuel returned =>
      obtain ⟨process, here⟩ := schedulerExit_current returned
      obtain ⟨member, _⟩ := descriptors.currentFiles here
      rw [here]
      refine ⟨fun entry node listed points => ?_, fun other entry isProcess _ listed => ?_⟩
      · exact plain member ((descriptors.hasEntry member).mp listed) points
      · have inside := descriptors.scheduled.isProcess.mp isProcess
        exact marked.notProcess other inside entry ((descriptors.hasEntry inside).mp listed)
          process member

/-- A step that opens no process keeps the marks. -/
theorem PlainStep.marked (descriptors : Descriptors layout before procs taskOf filesOf)
    (pointers : Pointers layout before procs) (marked : Marked layout before procs filesOf)
    (step : PlainStep before event after) :
    ∃ procs' taskOf' filesOf', Descriptors layout after procs' taskOf' filesOf' ∧
      Pointers layout after procs' ∧ Marked layout after procs' filesOf' := by
  obtain ⟨step, unopened⟩ := step
  obtain ⟨procs', taskOf', filesOf', effect⟩ :=
    step.effect descriptors pointers (marked.keeps descriptors step)
  have scheduled := descriptors.scheduled
  refine ⟨procs', taskOf', filesOf', effect.descriptors descriptors,
    effect.pointers scheduled pointers, ?_⟩
  cases effect with
  | opening here found unmarked known fresh =>
    have notProcess := unopened _ _ _ rfl found
    rw [scheduled.isProcess] at notProcess
    exact marked.opening descriptors (scheduled.current _ here) unmarked known notProcess fresh
  | dropping here split points =>
    exact marked.dropping descriptors (scheduled.current _ here) split points
  | moving here resolved => exact ⟨marked.marked, marked.single, marked.notProcess, marked.kept⟩
  | creating fresh => exact marked.create descriptors fresh
  | exiting here split unreferenced =>
    subst split
    exact marked.exit descriptors
  | selecting next => exact marked.select _

/-- Every run that opens no process keeps the marks. -/
theorem marked_run (descriptors : Descriptors layout start procs taskOf filesOf)
    (pointers : Pointers layout start procs) (marked : Marked layout start procs filesOf)
    (run : Run PlainStep start events state) :
    ∃ procs' taskOf' filesOf', Descriptors layout state procs' taskOf' filesOf' ∧
      Pointers layout state procs' ∧ Marked layout state procs' filesOf' := by
  induction run with
  | nil => exact ⟨procs, taskOf, filesOf, descriptors, pointers, marked⟩
  | snoc _ step ih =>
    obtain ⟨_, _, _, descriptors, pointers, marked⟩ := ih
    exact step.marked descriptors pointers marked

/-- **The mark of an opened node.** While no node is deleted on close and no process node is
opened, a node is marked exactly when exactly one entry of exactly one process refers to it. -/
theorem opened_iff {boot : Finset Address} {allocator : Allocator} {fuel : Nat}
    {zeroState : Registers} (booted : Boot boot initial)
    (parents : ∀ address ∈ boot, ∀ target, (initial.node address).parent = some target →
      target ∈ boot)
    (plain : ∀ address ∈ boot, hasFlag (initial.node address).flags vfsOpened = false ∧
      hasFlag (initial.node address).flags vfsDelete = false)
    (started : schedulerInitialise allocator fuel zeroState initial = .ok () start)
    (run : Run PlainStep start events state) {node : Address} (isNode : state.IsVNode boot node) :
    hasFlag (state.node node).flags vfsOpened = true ↔
      ∃! held : Address × Address, state.IsProcess held.1 ∧ state.HasEntry held.1 held.2 ∧
        (state.entry held.2).reference = some node := by
  obtain ⟨proc, self, first, data, block, procFresh, selfFresh, fresh, rfl⟩ :=
    schedulerInitialise_ok booted started
  obtain ⟨procs, taskOf, filesOf, descriptors, _, marked⟩ :=
    marked_run (.start booted procFresh selfFresh fresh)
      (.start booted parents procFresh selfFresh fresh)
      (.start booted plain procFresh selfFresh fresh) run
  have scheduled := descriptors.scheduled
  have known : (⟨boot, proc, self⟩ : Layout).IsNode procs node := scheduled.isVNode.mp isNode
  have held : ∀ process entry, (state.IsProcess process ∧ state.HasEntry process entry ∧
      (state.entry entry).reference = some node) ↔ process ∈ procs ∧ entry ∈ filesOf process ∧
        (state.entry entry).reference = some node := by
    intro process entry
    rw [scheduled.isProcess]
    refine and_congr_right fun member => ?_
    rw [descriptors.hasEntry member]
  rw [marked.marked node known]
  constructor
  · rintro ⟨process, member, entry, listed, points⟩
    refine ⟨(process, entry), (held _ _).mpr ⟨member, listed, points⟩, ?_⟩
    rintro ⟨other, second⟩ holds
    obtain ⟨otherMember, secondListed, refers⟩ := (held _ _).mp holds
    obtain rfl := marked.single other otherMember second secondListed process member entry listed
      (refers.trans points.symm)
    obtain rfl := descriptors.separate other otherMember process member second secondListed listed
    rfl
  · rintro ⟨⟨process, entry⟩, holds, _⟩
    obtain ⟨member, listed, points⟩ := (held _ _).mp holds
    exact ⟨process, member, entry, listed, points⟩

end Runs

/-! ## A run with an opened node -/

/-- The first process opens `/proc`. -/
def sampleOpened : KernelState 32 Unit := stateAfter (openPath .next 4 procDir) sampleStart

/-- Then it creates a second one. -/
def sampleOpenedPair : KernelState 32 Unit :=
  stateAfter (schedulerCreateProc .next 4 ()) sampleOpened

/-- Two steps of the sample run that open no process. -/
theorem sample_opens : Run PlainStep sampleStart [.openPath procDir, .sched (.create 7)]
    sampleOpenedPair := by
  have opened : SystemStep sampleStart (.openPath procDir) sampleOpened :=
    .openPath .next 4 procDir (ok_of_resultOf (by decide +kernel : _ = some 0#32))
  have created : SystemStep sampleOpened (.sched (.create 7)) sampleOpenedPair :=
    .sched (.create .next 4 () (ok_of_resultOf (by decide +kernel)))
  refine .snoc (.snoc (.nil _) ⟨opened, ?_⟩) ⟨created, by simp⟩
  rintro _ fuel node ⟨⟩ found ⟨⟨children, listed, member⟩, _⟩
  have there : ProcFound sampleStart 1 :=
    ⟨by decide +kernel, by decide +kernel, by decide +kernel, by decide +kernel⟩
  obtain rfl := Option.some.inj
    (relativeFind_proc there (by rwa [show boundedPath procDir = procDir by decide] at found))
  have known : sampleStart.ProcChildren [3, 2] :=
    ⟨1, by decide +kernel, by decide +kernel, by decide +kernel,
      (by decide +kernel : sampleStart.nextOf 2 = none)⟩
  rw [listed.unique known] at member
  simp at member

/-- The opened node of the sample run is marked for its one entry. -/
theorem opened_iff_sample : hasFlag (sampleOpenedPair.node 1).flags vfsOpened = true ↔
    ∃! held : Address × Address, sampleOpenedPair.IsProcess held.1 ∧
      sampleOpenedPair.HasEntry held.1 held.2 ∧
      (sampleOpenedPair.entry held.2).reference = some 1 := by
  have root : ∀ {good : Address → Prop}, good rootVNode →
      ∀ address ∈ ({rootVNode} : Finset Address), good address := by
    intro good holds address member
    rwa [Finset.mem_singleton.mp member]
  refine opened_iff (Boot.bareRoot 32 ()) (root ?_) (root ?_) sample_started sample_opens
      (.inr (.inl ?_))
  · intro target points
    have null : ((KernelState.bareRoot 32 ()).node rootVNode).parent = none := by decide +kernel
    cases null.symm.trans points
  · decide +kernel
  · decide +kernel

end Unarddeg
