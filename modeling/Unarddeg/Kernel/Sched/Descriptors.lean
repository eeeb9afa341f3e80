import Unarddeg.Kernel.Sched.Exit
import Unarddeg.Kernel.Sched.Start

/-!
# The descriptor tables of the processes

Beside the list of the processes, a run keeps one descriptor list per process. The entries of all
lists are different live blocks, none of them a node or a task, and each refers to a node. An
operation on the current process changes its list only; the others are framed by their entries
being other blocks.
-/

namespace Unarddeg

open Library

variable {width : Nat} {Registers : Type}

/-- The invariant of the descriptor lists: the entries of a process are `filesOf` it. -/
structure Descriptors (layout : Layout) (state : KernelState width Registers)
    (procs : List Address) (taskOf : Address → Address) (filesOf : Address → List Address) :
    Prop where
  /-- The processes are scheduled. -/
  scheduled : Scheduled layout state procs taskOf
  /-- The entries of each process. -/
  files : ∀ process ∈ procs, state.FilesOf (taskOf process) (filesOf process)
  /-- No entry was freed. -/
  owned : ∀ process ∈ procs, ∀ entry ∈ filesOf process, entry ∈ state.live
  /-- No entry is a node. -/
  notNode : ∀ process ∈ procs, ∀ entry ∈ filesOf process, ¬ layout.IsNode procs entry
  /-- No entry is a task. -/
  notTask : ∀ process ∈ procs, ∀ entry ∈ filesOf process, ∀ other ∈ procs, taskOf other ≠ entry
  /-- No two processes share an entry. -/
  separate : ∀ left ∈ procs, ∀ right ∈ procs, ∀ entry ∈ filesOf left, entry ∈ filesOf right →
    left = right
  /-- Each entry refers to a node. -/
  reference : ∀ process ∈ procs, ∀ entry ∈ filesOf process, ∃ node,
    (state.entry entry).reference = some node ∧ layout.IsNode procs node

/-- The state after `CreateEntry` appends an entry for a node to the descriptors of a task. -/
def KernelState.opening (state : KernelState width Registers) (task : Address)
    (entries : List Address) (node entry : Address) : KernelState width Registers :=
  { (state.withEntry node entry).relinkAt (lastPlace task entries) (some entry) with
    current := state.current + 1 }

/-- The state after `close` takes the entry behind the front ones out of the descriptors of a
task. -/
def KernelState.dropping (state : KernelState width Registers) (task : Address)
    (front : List Address) (target node : Address) : KernelState width Registers :=
  { (state.relinkAt (lastPlace task front) (state.entry target).next).setNode node
      (state.node node).closed with
    live := state.live.erase target }

/-- Another link changes no other task. -/
theorem relinkAt_task {state : KernelState width Registers} {task other : Address}
    {front : List Address} {next : Pointer} (apart : other ≠ task) :
    (state.relinkAt (lastPlace task front) next).task other = state.task other := by
  unfold lastPlace
  cases front.getLast? with
  | none =>
    simp [KernelState.relinkAt, KernelState.setEntryAt, KernelState.setTask, apart]
  | some last => rfl

namespace Descriptors

variable {layout : Layout} {before after : KernelState width Registers} {procs : List Address}
  {taskOf : Address → Address} {filesOf : Address → List Address} {process : Address}

/-- No entry stands twice in the list of a process. -/
theorem nodup (descriptors : Descriptors layout before procs taskOf filesOf)
    (member : process ∈ procs) : (filesOf process).Nodup :=
  (descriptors.files process member).nodup

/-- The current process has its node, its task and its entries. -/
theorem currentFiles (descriptors : Descriptors layout before procs taskOf filesOf)
    (here : before.currentProc = some process) :
    process ∈ procs ∧ (before.node process).driverData = some (taskOf process) ∧
      before.FilesOf (taskOf process) (filesOf process) ∧ process ∈ before.live := by
  have member := descriptors.scheduled.current process here
  exact ⟨member, (descriptors.scheduled.node process member).driverData,
    descriptors.files process member,
    descriptors.scheduled.live process (.inr (.inr (.inr member)))⟩

/-- A change that keeps the entries, the heads of their lists and the blocks keeps the lists. -/
theorem congr (descriptors : Descriptors layout before procs taskOf filesOf)
    (scheduled : Scheduled layout after procs taskOf)
    (heads : ∀ task, (after.task task).files = (before.task task).files)
    (entries : after.entry = before.entry) (live : after.live = before.live) :
    Descriptors layout after procs taskOf filesOf where
  scheduled := scheduled
  files := fun process member => by
    have links : after.entryNext = before.entryNext := by
      funext address
      rw [KernelState.entryNext, KernelState.entryNext, entries]
    rw [KernelState.FilesOf, links, heads]
    exact descriptors.files process member
  owned := fun process member entry listed => live ▸ descriptors.owned process member entry listed
  notNode := descriptors.notNode
  notTask := descriptors.notTask
  separate := descriptors.separate
  reference := fun process member entry listed =>
    entries ▸ descriptors.reference process member entry listed

/-! ## Opening -/

/-- Opening a node keeps the list of the processes. -/
theorem scheduled_opening (descriptors : Descriptors layout before procs taskOf filesOf)
    {task node entry : Address} {entries : List Address} (fresh : entry ∉ before.live) :
    Scheduled layout (before.opening task entries node entry) procs taskOf := by
  refine descriptors.scheduled.congr (relinkAt_proc ..) (relinkAt_selfProc ..)
    (fun address live _ => ?_) (fun address known => ?_) fun process here => ?_
  · simp [KernelState.opening, KernelState.withEntry, live]
  · have other : address ≠ entry := fun same =>
      fresh (same ▸ descriptors.scheduled.live address known)
    simp only [KernelState.opening, relinkAt_node, withEntry_node before other]
    split_ifs
    · exact .opened _
    · exact .refl _
  · simp only [KernelState.opening, relinkAt_currentProc] at here
    exact descriptors.scheduled.current process here

/-- The entries after an opening: the old ones, and the new one in the list of the process. -/
theorem mem_opening {entry other old : Address} :
    old ∈ Function.update filesOf process (filesOf process ++ [entry]) other ↔
      (other = process ∧ old = entry) ∨ old ∈ filesOf other := by
  rw [Function.update_apply]
  split_ifs with same
  · subst same
    rw [List.mem_append, List.mem_singleton, or_comm]
    simp
  · simp [same]

/-- The new entry refers to the opened node. -/
theorem opening_new (task : Address) (entries : List Address) (node entry : Address) :
    ((before.opening task entries node entry).entry entry).reference = some node := by
  simp [KernelState.opening, KernelState.withEntry]

/-- The old entries keep their references when a node is opened. -/
theorem opening_old (task : Address) (entries : List Address) (node : Address)
    {entry old : Address} (other : old ≠ entry) :
    ((before.opening task entries node entry).entry old).reference =
      (before.entry old).reference := by
  simp [KernelState.opening, KernelState.withEntry, other]

/-- Opening a node appends the new entry to the list of the current process. -/
theorem opening (descriptors : Descriptors layout before procs taskOf filesOf)
    (member : process ∈ procs) {node entry : Address} (known : layout.IsNode procs node)
    (fresh : entry ∉ before.live) :
    Descriptors layout (before.opening (taskOf process) (filesOf process) node entry) procs taskOf
      (Function.update filesOf process (filesOf process ++ [entry])) := by
  have scheduled := descriptors.scheduled
  have absent : ∀ other ∈ procs, entry ∉ filesOf other := fun other inside listed =>
    fresh (descriptors.owned other inside entry listed)
  exact {
    scheduled := descriptors.scheduled_opening fresh
    files := fun other inside => by
      by_cases same : other = process
      · subst same
        have old : Segment (before.withEntry node entry).entryNext
            ((before.withEntry node entry).task (taskOf other)).files.next (filesOf other) none :=
          withEntry_segment (absent other inside) (descriptors.files other inside)
        rw [Function.update_self]
        refine Segment.append_iff.mpr ⟨_, relink_files _ old old.nodup, rfl, ?_⟩
        have unlinked : (before.withEntry node entry).entryNext entry = none := by
          simp [KernelState.entryNext, KernelState.withEntry]
        have last : Segment (before.withEntry node entry).entryNext (some entry) [entry] none :=
          ⟨rfl, unlinked⟩
        exact (relink_other (some entry) (by simpa using absent other inside) last).2
      · have notSame : taskOf other ≠ taskOf process := fun shared =>
          same (scheduled.distinct other inside process member shared)
        have head : (before.opening (taskOf process) (filesOf process) node entry).task
            (taskOf other) = before.task (taskOf other) := relinkAt_task notSame
        rw [Function.update_of_ne same, KernelState.FilesOf, head]
        refine relink_other _ (fun old listed shared => ?_)
          (withEntry_segment (absent other inside) (descriptors.files other inside))
        exact same (descriptors.separate other inside process member old listed shared)
    owned := fun other inside old listed => by
      simp only [KernelState.opening, relinkAt_live, KernelState.withEntry, Finset.mem_insert]
      rcases mem_opening.mp listed with ⟨_, rfl⟩ | held
      · exact .inl rfl
      · exact .inr (descriptors.owned other inside old held)
    notNode := fun other inside old listed => by
      rcases mem_opening.mp listed with ⟨_, rfl⟩ | held
      · exact fun node => fresh (scheduled.live _ node)
      · exact descriptors.notNode other inside old held
    notTask := fun other inside old listed third there => by
      rcases mem_opening.mp listed with ⟨_, rfl⟩ | held
      · exact fun same => fresh (same ▸ (scheduled.task third there).1)
      · exact descriptors.notTask other inside old held third there
    separate := fun left leftMember right rightMember old inLeft inRight => by
      rcases mem_opening.mp inLeft with ⟨leftIs, newLeft⟩ | oldLeft <;>
        rcases mem_opening.mp inRight with ⟨rightIs, newRight⟩ | oldRight
      · exact leftIs.trans rightIs.symm
      · exact absurd (newLeft ▸ oldRight) (absent right rightMember)
      · exact absurd (newRight ▸ oldLeft) (absent left leftMember)
      · exact descriptors.separate left leftMember right rightMember old oldLeft oldRight
    reference := fun other inside old listed => by
      rcases mem_opening.mp listed with ⟨_, rfl⟩ | held
      · exact ⟨node, opening_new .., known⟩
      · have notNew : old ≠ entry := fun same => absent other inside (same ▸ held)
        rw [opening_old _ _ _ notNew]
        exact descriptors.reference other inside old held }

/-! ## Closing -/

/-- Closing an entry keeps the list of the processes. -/
theorem scheduled_dropping (descriptors : Descriptors layout before procs taskOf filesOf)
    (member : process ∈ procs) {front back : List Address} {target node : Address}
    (split : filesOf process = front ++ target :: back) :
    Scheduled layout (before.dropping (taskOf process) front target node) procs taskOf := by
  have listed : target ∈ filesOf process := by simp [split]
  refine descriptors.scheduled.congr (relinkAt_proc ..) (relinkAt_selfProc ..)
    (fun address live owner => ?_) (fun address _ => ?_) fun process here => ?_
  · have other : address ≠ target := by
      rintro rfl
      rcases owner with known | ⟨owner, inside, task⟩
      · exact descriptors.notNode process member address listed known
      · exact descriptors.notTask process member address listed owner inside task
    simp [KernelState.dropping, other, live]
  · simp only [KernelState.dropping, KernelState.setNode, relinkAt_node, Function.update_apply]
    split_ifs with here
    · rw [here]
      exact .closed _
    · exact .refl _
  · simp only [KernelState.dropping, KernelState.setNode, relinkAt_currentProc] at here
    exact descriptors.scheduled.current process here

/-- The entries after a closing: the old ones but for the closed one. -/
theorem mem_dropping (descriptors : Descriptors layout before procs taskOf filesOf)
    (member : process ∈ procs) {front back : List Address} {target : Address}
    (split : filesOf process = front ++ target :: back) {other : Address} (inside : other ∈ procs)
    {entry : Address} : entry ∈ Function.update filesOf process (front ++ back) other ↔
      entry ∈ filesOf other ∧ entry ≠ target := by
  have distinct := descriptors.nodup member
  rw [split] at distinct
  have gone : target ∉ front ++ back := (List.nodup_cons.mp (List.nodup_middle.mp distinct)).1
  rw [Function.update_apply]
  split_ifs with same
  · subst same
    have apart : entry ∈ front ++ back → entry ≠ target := fun held shared => gone (shared ▸ held)
    simp only [split, List.mem_append, List.mem_cons] at apart ⊢
    tauto
  · refine ⟨fun held => ⟨held, fun shared => ?_⟩, And.left⟩
    exact same (descriptors.separate other inside process member target (shared ▸ held)
      (by simp [split]))

/-- A closing changes no reference. -/
theorem dropping_reference (task : Address) (front : List Address) (target node entry : Address) :
    ((before.dropping task front target node).entry entry).reference =
      (before.entry entry).reference := by
  simp only [KernelState.dropping, KernelState.setNode, relinkAt_reference]

/-- Closing an entry takes it out of the list of its process. -/
theorem dropping (descriptors : Descriptors layout before procs taskOf filesOf)
    (member : process ∈ procs) {front back : List Address} {target node : Address}
    (split : filesOf process = front ++ target :: back) :
    Descriptors layout (before.dropping (taskOf process) front target node) procs taskOf
      (Function.update filesOf process (front ++ back)) := by
  have scheduled := descriptors.scheduled
  have distinct := descriptors.nodup member
  have files := descriptors.files process member
  rw [split] at distinct files
  have apart : ∀ entry ∈ back, entry ∉ front := fun entry behind ahead =>
    (List.nodup_append.mp distinct).2.2 entry ahead entry (List.mem_cons_of_mem _ behind) rfl
  have listed : ∀ {other}, other ∈ procs → ∀ {entry},
      entry ∈ Function.update filesOf process (front ++ back) other →
        entry ∈ filesOf other ∧ entry ≠ target := fun inside =>
    (descriptors.mem_dropping member split inside).mp
  exact {
    scheduled := descriptors.scheduled_dropping member split
    files := fun other inside => by
      by_cases same : other = process
      · subst same
        rw [Function.update_self]
        obtain ⟨middle, ahead, rfl, behind⟩ := Segment.append_iff.mp files
        exact Segment.append_iff.mpr ⟨_, relink_files _ ahead (List.nodup_append.mp distinct).1,
          relink_other _ apart behind⟩
      · have notSame : taskOf other ≠ taskOf process := fun shared =>
          same (scheduled.distinct other inside process member shared)
        have head : (before.dropping (taskOf process) front target node).task (taskOf other) =
            before.task (taskOf other) := relinkAt_task notSame
        rw [Function.update_of_ne same, KernelState.FilesOf, head]
        refine relink_other _ (fun entry inOther ahead => ?_) (descriptors.files other inside)
        exact same (descriptors.separate other inside process member entry inOther
          (by simp [split, ahead]))
    owned := fun other inside entry inOther => by
      obtain ⟨old, notTarget⟩ := listed inside inOther
      simp [KernelState.dropping, KernelState.setNode, notTarget,
        descriptors.owned other inside entry old]
    notNode := fun other inside entry inOther =>
      descriptors.notNode other inside entry (listed inside inOther).1
    notTask := fun other inside entry inOther =>
      descriptors.notTask other inside entry (listed inside inOther).1
    separate := fun left leftMember right rightMember entry inLeft inRight =>
      descriptors.separate left leftMember right rightMember entry (listed leftMember inLeft).1
        (listed rightMember inRight).1
    reference := fun other inside entry inOther => by
      rw [dropping_reference]
      exact descriptors.reference other inside entry (listed inside inOther).1 }

/-! ## Creation and exit -/

/-- Only the processes from before have entries after a creation. -/
theorem mem_creating {new owner entry : Address} (absent : new ∉ procs)
    (member : owner ∈ new :: procs) (listed : entry ∈ Function.update filesOf new [] owner) :
    owner ∈ procs ∧ entry ∈ filesOf owner := by
  rcases List.mem_cons.mp member with rfl | old
  · simp at listed
  · have other : owner ≠ new := fun same => absent (same ▸ old)
    rw [Function.update_of_ne other] at listed
    exact ⟨old, listed⟩

/-- Their entries are as before. -/
theorem creating_entry (descriptors : Descriptors layout before procs taskOf filesOf)
    {new data block owner entry : Address} {initialState : Registers}
    (fresh : FreshBlocks before.live new data block) (member : owner ∈ procs)
    (listed : entry ∈ filesOf owner) :
    (before.creating layout.proc new data block initialState).entry entry =
      before.entry entry := by
  obtain ⟨notNew, notData, notBlock⟩ := fresh.ne (descriptors.owned owner member entry listed)
  simp [KernelState.creating, KernelState.making, notNew, notData, notBlock]

/-- A new process has no entries. -/
theorem create (descriptors : Descriptors layout before procs taskOf filesOf)
    {new data block : Address} {initialState : Registers}
    (fresh : FreshBlocks before.live new data block) :
    Descriptors layout (before.creating layout.proc new data block initialState) (new :: procs)
      (Function.update taskOf new data) (Function.update filesOf new []) := by
  have scheduled := descriptors.scheduled
  have absent : new ∉ procs := fun member =>
    fresh.newFree (scheduled.live new (.inr (.inr (.inr member))))
  have notNew : ∀ process ∈ procs, process ≠ new := fun process member same =>
    absent (same ▸ member)
  have oldFiles : ∀ {process}, process ∈ procs →
      Function.update filesOf new [] process = filesOf process := fun member =>
    Function.update_of_ne (notNew _ member) _ _
  have oldTask : ∀ {process}, process ∈ procs →
      Function.update taskOf new data process = taskOf process := fun member =>
    Function.update_of_ne (notNew _ member) _ _
  exact {
    scheduled := scheduled.create fresh
    files := fun process member => by
      rcases List.mem_cons.mp member with rfl | old
      · rw [Function.update_self, Function.update_self]
        simp [KernelState.FilesOf, Segment, KernelState.creating, KernelState.making]
      · have notData : taskOf process ≠ data :=
          (fresh.ne (scheduled.task process old).1).2.1
        have head : (before.creating layout.proc new data block initialState).task
            (taskOf process) = before.task (taskOf process) := by
          simp [KernelState.creating, KernelState.making, notData]
        rw [oldFiles old, oldTask old, KernelState.FilesOf, head]
        exact (descriptors.files process old).congr fun entry inside =>
          congrArg FileDescriptor.next (descriptors.creating_entry fresh old inside)
    owned := fun process member entry inside => by
      obtain ⟨old, inside⟩ := mem_creating absent member inside
      simp [KernelState.creating, KernelState.making, descriptors.owned process old entry inside]
    notNode := fun process member entry inside => by
      obtain ⟨old, inside⟩ := mem_creating absent member inside
      rw [Layout.isNode_cons, not_or]
      exact ⟨(fresh.ne (descriptors.owned process old entry inside)).1,
        descriptors.notNode process old entry inside⟩
    notTask := fun process member entry inside other otherMember => by
      obtain ⟨old, held⟩ := mem_creating absent member inside
      rcases List.mem_cons.mp otherMember with rfl | otherOld
      · rw [Function.update_self]
        exact fun same => (fresh.ne (descriptors.owned process old entry held)).2.1 same.symm
      · rw [oldTask otherOld]
        exact descriptors.notTask process old entry held other otherOld
    separate := fun left leftMember right rightMember entry inLeft inRight => by
      obtain ⟨leftOld, inLeft⟩ := mem_creating absent leftMember inLeft
      obtain ⟨rightOld, inRight⟩ := mem_creating absent rightMember inRight
      exact descriptors.separate left leftOld right rightOld entry inLeft inRight
    reference := fun process member entry inside => by
      obtain ⟨old, inside⟩ := mem_creating absent member inside
      rw [descriptors.creating_entry fresh old inside]
      obtain ⟨node, points, known⟩ := descriptors.reference process old entry inside
      exact ⟨node, points, Layout.isNode_cons.mpr (.inr known)⟩ }

/-- A node of the longer list other than the process that left is a node of the shorter one. -/
theorem remaining_isNode {front rest : List Address} {address : Address}
    (known : layout.IsNode (front ++ process :: rest) address) (other : address ≠ process) :
    layout.IsNode (front ++ rest) address := by
  rcases known with boot | proc | self | member
  · exact .inl boot
  · exact .inr (.inl proc)
  · exact .inr (.inr (.inl self))
  · refine .inr (.inr (.inr ?_))
    simp only [List.mem_append, List.mem_cons] at member ⊢
    tauto

/-- An exit takes the entries of the current process away with it, as long as no other process has
an entry for its node. -/
theorem exit {front rest : List Address}
    (descriptors : Descriptors layout before (front ++ process :: rest) taskOf filesOf)
    (unreferenced : ∀ other ∈ front ++ rest, ∀ entry ∈ filesOf other,
      (before.entry entry).reference ≠ some process) :
    Descriptors layout (before.exiting layout.proc process (taskOf process) front.getLast?
      (filesOf process)) (front ++ rest) taskOf filesOf := by
  have scheduled := descriptors.scheduled
  have here : process ∈ front ++ process :: rest := by simp
  have inList : ∀ other ∈ front ++ rest, other ∈ front ++ process :: rest ∧ other ≠ process :=
    fun _ => (mem_remaining scheduled).mp
  exact {
    scheduled := scheduled.exit fun entry listed =>
      ⟨descriptors.notNode process here entry listed, fun other member =>
        descriptors.notTask process here entry listed other member⟩
    files := fun other member => by
      obtain ⟨inside, apart⟩ := inList other member
      have notSame : taskOf other ≠ taskOf process := fun shared =>
        apart (scheduled.distinct other inside process here shared)
      have head : (before.exiting layout.proc process (taskOf process) front.getLast?
          (filesOf process)).task (taskOf other) = before.task (taskOf other) := by
        simp [KernelState.exiting, KernelState.closing, KernelState.relinkAt,
          KernelState.setEntryAt, KernelState.setTask, notSame]
      rw [KernelState.FilesOf, head]
      exact descriptors.files other inside
    owned := fun other member entry listed => by
      obtain ⟨inside, apart⟩ := inList other member
      have notOwn : entry ∉ filesOf process := fun shared =>
        apart (descriptors.separate other inside process here entry listed shared)
      have notNode : entry ≠ process := by
        rintro rfl
        exact descriptors.notNode other inside entry listed (.inr (.inr (.inr here)))
      have notTask := descriptors.notTask other inside entry listed process here
      simp [KernelState.exiting, KernelState.closing, notOwn, notNode, Ne.symm notTask,
        descriptors.owned other inside entry listed]
    notNode := fun other member entry listed known =>
      descriptors.notNode other (inList other member).1 entry listed
        (isNode_of_remaining scheduled known).1
    notTask := fun other member entry listed third thirdMember =>
      descriptors.notTask other (inList other member).1 entry listed third
        (inList third thirdMember).1
    separate := fun left leftMember right rightMember =>
      descriptors.separate left (inList left leftMember).1 right (inList right rightMember).1
    reference := fun other member entry listed => by
      obtain ⟨node, points, known⟩ :=
        descriptors.reference other (inList other member).1 entry listed
      have apart : node ≠ process := fun same =>
        unreferenced other member entry listed (same ▸ points)
      exact ⟨node, points, remaining_isNode known apart⟩ }

/-! ## The start -/

/-- Before the first process there are no entries. -/
theorem dir {boot : Finset Address} {proc self : Address} (booted : Boot boot before)
    (procFresh : proc ∉ before.live) (selfFresh : self ∉ insert proc before.live) :
    Descriptors ⟨boot, proc, self⟩
      { before.withDir proc self with proc := some proc, currentProc := none } [] (fun _ => 0)
      fun _ => [] where
  scheduled := booted.withDir procFresh selfFresh
  files := by simp
  owned := by simp
  notNode := by simp
  notTask := by simp
  separate := by simp
  reference := by simp

/-- When the scheduler starts, the first process has no entries. -/
theorem start {boot : Finset Address} {proc self first data block : Address}
    {zeroState : Registers} (booted : Boot boot before) (procFresh : proc ∉ before.live)
    (selfFresh : self ∉ insert proc before.live)
    (fresh : FreshBlocks (before.withDir proc self).live first data block) :
    Descriptors ⟨boot, proc, self⟩
      { (before.withDir proc self).creating proc first data block zeroState with
        currentProc := some first } [first] (Function.update (fun _ => 0) first data)
      (Function.update (fun _ => []) first []) := by
  have made : Descriptors ⟨boot, proc, self⟩ (KernelState.creating { before.withDir proc self with
      proc := some proc, currentProc := none } proc first data block zeroState) [first] _ _ :=
    (dir booted procFresh selfFresh).create fresh
  exact made.congr (booted.scheduled procFresh selfFresh fresh) (fun _ => rfl) rfl rfl

end Descriptors

end Unarddeg
