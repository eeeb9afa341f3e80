import Unarddeg.Kernel.Sched.Pointers
import Unarddeg.Kernel.Sched.Runs

/-!
# System calls between the steps of the scheduler

`open`, `close` and `chdir` of the current process, mixed with the scheduler functions in any
order. `Effect` says once what each of them leaves, as long as no node is deleted that something
still refers to; the invariants of whole runs are derived from it.
-/

namespace Unarddeg

open Library

variable {width : Nat} {Registers : Type}

/-- What happens to the processes and their descriptors. -/
inductive SystemEvent (width : Nat)
  /-- The current process called `open`. -/
  | openPath (path : List UInt8)
  /-- The current process called `close`. -/
  | close (fd : BitVec width)
  /-- The current process called `chdir`. -/
  | chdir (path : List UInt8)
  /-- A function of the scheduler returned. -/
  | sched (event : SchedEvent)
  deriving DecidableEq, Repr

/-- A system call or a scheduler function returns. -/
inductive SystemStep :
    KernelState width Registers → SystemEvent width → KernelState width Registers → Prop
  | openPath {before after : KernelState width Registers} {fd : BitVec width}
      (allocator : Allocator) (fuel : Nat) (path : List UInt8)
      (returned : openPath allocator fuel path before = .ok fd after) :
      SystemStep before (.openPath path) after
  | close {before after : KernelState width Registers} (fuel : Nat) (fd : BitVec width)
      (returned : close fuel fd before = .ok () after) : SystemStep before (.close fd) after
  | chdir {before after : KernelState width Registers} (fuel : Nat) (path : List UInt8)
      (returned : chdir fuel path before = .ok () after) : SystemStep before (.chdir path) after
  | sched {before after : KernelState width Registers} {event : SchedEvent}
      (step : SchedStep before event after) : SystemStep before (.sched event) after

/-! ## Processes, nodes and entries in a state -/

/-- A child of `/proc` other than `self`. -/
def KernelState.IsProcess (state : KernelState width Registers) (process : Address) : Prop :=
  (∃ children, state.ProcChildren children ∧ process ∈ children) ∧ state.selfProc ≠ some process

/-- A node of the boot, `/proc`, or a child of `/proc`. -/
def KernelState.IsVNode (state : KernelState width Registers) (boot : Finset Address)
    (node : Address) : Prop :=
  node ∈ boot ∨ state.proc = some node ∨
    ∃ children, state.ProcChildren children ∧ node ∈ children

/-- The entries in `Files` of a process. -/
def KernelState.HasFiles (state : KernelState width Registers) (process : Address)
    (entries : List Address) : Prop :=
  ∃ task, (state.node process).driverData = some task ∧ state.FilesOf task entries

/-- An entry in `Files` of a process. -/
def KernelState.HasEntry (state : KernelState width Registers) (process entry : Address) : Prop :=
  ∃ entries, state.HasFiles process entries ∧ entry ∈ entries

/-- The entry that `close` takes out: the first one of the current process with the descriptor. -/
def KernelState.Closes (state : KernelState width Registers) (fd : BitVec width)
    (target : Address) : Prop :=
  ∃ process front back, state.currentProc = some process ∧
    state.HasFiles process (front ++ target :: back) ∧ (state.entry target).fileIndex = fd ∧
    ∀ earlier ∈ front, (state.entry earlier).fileIndex ≠ fd

/-- An event that deletes no node on close, and no node that an entry refers to on exit. -/
def KernelState.Keeps (state : KernelState width Registers) : SystemEvent width → Prop
  | .close fd => ∀ target node, state.Closes fd target →
      (state.entry target).reference = some node → hasFlag (state.node node).flags vfsDelete = false
  | .sched (.exit (some process)) =>
      (∀ entry node, state.HasEntry process entry → (state.entry entry).reference = some node →
        hasFlag (state.node node).flags vfsDelete = false) ∧
      ∀ other entry, state.IsProcess other → other ≠ process → state.HasEntry other entry →
        (state.entry entry).reference ≠ some process
  | _ => True

section Readings

variable {layout : Layout} {state : KernelState width Registers} {procs : List Address}
  {taskOf : Address → Address} {filesOf : Address → List Address}

/-- The processes are those of the invariant. -/
theorem Scheduled.isProcess (scheduled : Scheduled layout state procs taskOf) {process : Address} :
    state.IsProcess process ↔ process ∈ procs := by
  constructor
  · rintro ⟨⟨children, listed, member⟩, notSelf⟩
    rw [listed.unique scheduled.procChildren] at member
    rcases List.mem_append.mp member with inside | self
    · exact inside
    · obtain rfl := List.mem_singleton.mp self
      exact absurd scheduled.selfProc notSelf
  · intro member
    refine ⟨⟨_, scheduled.procChildren, by simp [member]⟩, fun self => ?_⟩
    rw [scheduled.selfProc] at self
    exact scheduled.ne_self member (Option.some.inj self).symm

/-- The nodes are those of the invariant. -/
theorem Scheduled.isVNode (scheduled : Scheduled layout state procs taskOf) {node : Address} :
    state.IsVNode layout.boot node ↔ layout.IsNode procs node := by
  have child : (∃ children, state.ProcChildren children ∧ node ∈ children) ↔
      node = layout.self ∨ node ∈ procs := by
    constructor
    · rintro ⟨children, listed, member⟩
      rw [listed.unique scheduled.procChildren] at member
      simpa [or_comm] using member
    · intro member
      exact ⟨_, scheduled.procChildren, by simpa [or_comm] using member⟩
  rw [KernelState.IsVNode, Layout.IsNode, child, scheduled.proc, Option.some.injEq,
    eq_comm (a := layout.proc)]

/-- The entries of a process are those of the invariant. -/
theorem Descriptors.hasFiles (descriptors : Descriptors layout state procs taskOf filesOf)
    {process : Address} (member : process ∈ procs) {entries : List Address} :
    state.HasFiles process entries ↔ entries = filesOf process := by
  have data := (descriptors.scheduled.node process member).driverData
  constructor
  · rintro ⟨task, points, files⟩
    obtain rfl := Option.some.inj (data.symm.trans points)
    exact Segment.unique files (descriptors.files process member)
  · rintro rfl
    exact ⟨_, data, descriptors.files process member⟩

/-- An entry of a process is one of those of the invariant. -/
theorem Descriptors.hasEntry (descriptors : Descriptors layout state procs taskOf filesOf)
    {process : Address} (member : process ∈ procs) {entry : Address} :
    state.HasEntry process entry ↔ entry ∈ filesOf process := by
  simp only [KernelState.HasEntry, descriptors.hasFiles member, exists_eq_left]

end Readings

/-! ## What a step leaves -/

/-- The effect of a step on a state of the invariant. -/
inductive Effect (layout : Layout) (before : KernelState width Registers) (procs : List Address)
    (taskOf : Address → Address) (filesOf : Address → List Address) :
    SystemEvent width → KernelState width Registers → List Address → (Address → Address) →
      (Address → List Address) → Prop
  /-- An entry for an unmarked node is appended to those of the current process. -/
  | opening {process node entry : Address} {path : List UInt8} {fuel : Nat}
      (here : before.currentProc = some process)
      (found : relativeFind before.node fuel (some rootVNode) (boundedPath path) =
        .ok (some node))
      (unmarked : hasFlag (before.node node).flags vfsOpened = false)
      (known : layout.IsNode procs node) (fresh : entry ∉ before.live) :
      Effect layout before procs taskOf filesOf (.openPath path)
        (before.opening (taskOf process) (filesOf process) node entry) procs taskOf
        (Function.update filesOf process (filesOf process ++ [entry]))
  /-- An entry is taken out of those of the current process. -/
  | dropping {process target node : Address} {front back : List Address} {fd : BitVec width}
      (here : before.currentProc = some process) (split : filesOf process = front ++ target :: back)
      (points : (before.entry target).reference = some node) :
      Effect layout before procs taskOf filesOf (.close fd)
        (before.dropping (taskOf process) front target node) procs taskOf
        (Function.update filesOf process (front ++ back))
  /-- The current process changes its working directory. -/
  | moving {process : Address} {found : Pointer} {path : List UInt8} {fuel : Nat}
      (here : before.currentProc = some process)
      (resolved : relativeFind before.node fuel (before.task (taskOf process)).baseDir
        (boundedPath path) = .ok found) :
      Effect layout before procs taskOf filesOf (.chdir path)
        (before.setTask (taskOf process)
          { before.task (taskOf process) with baseDir := found }) procs taskOf filesOf
  /-- A process is created. -/
  | creating {new data block : Address} {initialState : Registers}
      (fresh : FreshBlocks before.live new data block) :
      Effect layout before procs taskOf filesOf (.sched (.create new))
        (before.creating layout.proc new data block initialState) (new :: procs)
        (Function.update taskOf new data) (Function.update filesOf new [])
  /-- The current process leaves. -/
  | exiting {process : Address} {front rest : List Address}
      (here : before.currentProc = some process) (split : procs = front ++ process :: rest)
      (unreferenced : ∀ other ∈ front ++ rest, ∀ entry ∈ filesOf other,
        (before.entry entry).reference ≠ some process) :
      Effect layout before procs taskOf filesOf (.sched (.exit (some process)))
        (before.exiting layout.proc process (taskOf process) front.getLast? (filesOf process))
        (front ++ rest) taskOf filesOf
  /-- A process is selected. -/
  | selecting {process : Address} (next : Ring.successor procs before.currentProc = some process) :
      Effect layout before procs taskOf filesOf (.sched (.select (some process)))
        (before.selecting layout.self process (taskOf process)) procs taskOf filesOf

section Step

variable {layout : Layout} {before after : KernelState width Registers} {procs : List Address}
  {taskOf : Address → Address} {filesOf : Address → List Address} {event : SystemEvent width}
  {procs' : List Address} {taskOf' : Address → Address} {filesOf' : Address → List Address}

/-- A path from the root leads to a node while a process runs. -/
theorem found_known (scheduled : Scheduled layout before procs taskOf)
    (pointers : Pointers layout before procs) {process : Address}
    (here : before.currentProc = some process) {fuel : Nat} {path : List UInt8} {node : Address}
    (found : relativeFind before.node fuel (some rootVNode) path = .ok (some node)) :
    layout.IsNode procs node := by
  have running : before.currentProc ≠ none := by simp [here]
  exact relativeFind_known (pointers.known scheduled (pointers.selfLink running))
    (.inl scheduled.root) (fun _ same => Option.some.inj same ▸ .inl scheduled.root) found

/-- A close that deletes no node in use takes an entry out. -/
theorem close_dropping (descriptors : Descriptors layout before procs taskOf filesOf)
    {process : Address} {fuel : Nat} {fd : BitVec width}
    (here : before.currentProc = some process) (keeps : before.Keeps (.close fd))
    (returned : close fuel fd before = .ok () after) :
    ∃ front target back node, filesOf process = front ++ target :: back ∧
      (before.entry target).fileIndex = fd ∧
      (∀ earlier ∈ front, (before.entry earlier).fileIndex ≠ fd) ∧
      (before.entry target).reference = some node ∧
      after = before.dropping (taskOf process) front target node := by
  obtain ⟨member, data, files, live⟩ := descriptors.currentFiles here
  obtain ⟨front, target, back, node, split, index, earlier, points, left⟩ :=
    close_ok here data files returned
  have closes : before.Closes fd target := by
    refine ⟨process, front, back, here, ?_, index, earlier⟩
    rw [descriptors.hasFiles member, split]
  exact ⟨front, target, back, node, split, index, earlier, points,
    left (keeps target node closes points)⟩

/-- **Each step has its effect**, unless it deletes a node that is still in use. -/
theorem SystemStep.effect (descriptors : Descriptors layout before procs taskOf filesOf)
    (pointers : Pointers layout before procs) (keeps : before.Keeps event)
    (step : SystemStep before event after) :
    ∃ procs' taskOf' filesOf',
      Effect layout before procs taskOf filesOf event after procs' taskOf' filesOf' := by
  have scheduled := descriptors.scheduled
  cases step with
  | openPath allocator fuel path returned =>
    obtain ⟨process, here⟩ := openPath_current returned
    obtain ⟨member, data, files, live⟩ := descriptors.currentFiles here
    obtain ⟨node, entry, found, unmarked, fresh, _, rfl⟩ :=
      openPath_ok here data files (descriptors.owned process member) live returned
    exact ⟨_, _, _, .opening here found unmarked (found_known scheduled pointers here found) fresh⟩
  | close fuel fd returned =>
    obtain ⟨process, here⟩ := close_current returned
    obtain ⟨front, target, back, node, split, _, _, points, rfl⟩ :=
      close_dropping descriptors here keeps returned
    exact ⟨_, _, _, .dropping here split points⟩
  | chdir fuel path returned =>
    obtain ⟨process, here⟩ := chdir_current returned
    obtain ⟨member, data, files, live⟩ := descriptors.currentFiles here
    obtain ⟨found, resolved, rfl⟩ := chdir_ok here data returned
    exact ⟨_, _, _, .moving here resolved⟩
  | sched step =>
    cases step with
    | create allocator fuel initialState returned =>
      obtain ⟨data, block, fresh, rfl⟩ := schedulerCreateProc_ok scheduled.found returned
      exact ⟨_, _, _, .creating fresh⟩
    | exit fuel returned =>
      obtain ⟨process, here⟩ := schedulerExit_current returned
      obtain ⟨member, data, files, live⟩ := descriptors.currentFiles here
      obtain ⟨front, rest, rfl⟩ := List.append_of_mem member
      rw [here] at keeps ⊢
      obtain ⟨plain, others⟩ := keeps
      obtain ⟨rfl, _⟩ := schedulerExit_ok scheduled here files (fun entry listed node points =>
        plain entry node ((descriptors.hasEntry member).mpr listed) points) returned
      refine ⟨_, _, _, .exiting here rfl fun other inside entry listed => ?_⟩
      obtain ⟨old, apart⟩ := (mem_remaining scheduled).mp inside
      exact others other entry (scheduled.isProcess.mpr old) apart
        ((descriptors.hasEntry old).mpr listed)
    | select fuel returned =>
      obtain ⟨process, next, rfl⟩ := commitNextProcess_ok scheduled returned
      exact ⟨_, _, _, .selecting next⟩

/-- Each effect keeps the descriptor lists. -/
theorem Effect.descriptors
    (effect : Effect layout before procs taskOf filesOf event after procs' taskOf' filesOf')
    (descriptors : Descriptors layout before procs taskOf filesOf) :
    Descriptors layout after procs' taskOf' filesOf' := by
  have scheduled := descriptors.scheduled
  cases effect with
  | opening here found unmarked known fresh =>
    exact descriptors.opening (scheduled.current _ here) known fresh
  | dropping here split points =>
    exact descriptors.dropping (scheduled.current _ here) split
  | moving here resolved =>
    refine descriptors.congr (scheduled.setTask _ _) (fun task => ?_) rfl rfl
    simp only [KernelState.setTask, Function.update_apply]
    split_ifs with same
    · rw [same]
    · rfl
  | creating fresh => exact descriptors.create fresh
  | exiting here split unreferenced =>
    subst split
    exact descriptors.exit unreferenced
  | selecting next =>
    exact descriptors.congr (scheduled.select (Ring.successor_mem next)) (fun _ => rfl) rfl rfl

/-- Each effect keeps the pointers. -/
theorem Effect.pointers
    (effect : Effect layout before procs taskOf filesOf event after procs' taskOf' filesOf')
    (scheduled : Scheduled layout before procs taskOf)
    (pointers : Pointers layout before procs) : Pointers layout after procs' := by
  cases effect with
  | opening here found unmarked known fresh => exact pointers.opening scheduled fresh
  | dropping here split points => exact pointers.dropping
  | moving here resolved => exact pointers.congr (fun _ _ => ⟨_, rfl⟩) rfl
  | creating fresh => exact pointers.create scheduled _ fresh
  | exiting here split unreferenced =>
    subst split
    exact pointers.exit scheduled
  | selecting next => exact pointers.select scheduled (Ring.successor_mem next)

end Step

end Unarddeg
