import Unarddeg.Kernel.Sched.Opened
import Unarddeg.Library.Handles

/-!
# The descriptor tables as maps

The descriptor lists of the processes against the abstract table of handles: every run of opens
and closes, with the scheduler between them, is a run of the abstract table, and the list of a
process holds the descriptors and nodes of its opens that were not closed, in their order
(`descriptors_refine`). The searches agree with the table, except that `find` also meets the
entry in the task itself, whose index is `-1` and whose node is null (`unknown_descriptor_iff`).
-/

namespace Unarddeg

open Library

variable {width : Nat} {Registers : Type}

/-- What processes do with files, with what came of it, and what the scheduler does. -/
inductive FileCall (width : Nat)
  /-- A process opened a node and got a descriptor. -/
  | opened (process : Address) (fd : BitVec width) (node : Address)
  /-- A process closed a descriptor. -/
  | closed (process : Address) (fd : BitVec width)
  /-- The current process called `chdir`. -/
  | chdir (path : List UInt8)
  /-- A function of the scheduler returned. -/
  | sched (event : SchedEvent)
  deriving DecidableEq, Repr

/-- A call as one of the abstract table. -/
def FileCall.handleCall : FileCall width → HandleCall Address (BitVec width) Address
  | .opened process fd node => .opened process fd node
  | .closed process fd => .closed process fd
  | .chdir _ => .other
  | .sched (.create process) => .cleared process
  | .sched (.exit (some process)) => .cleared process
  | .sched _ => .other

/-- A call returns. `open` resolves its path to the node it opens; a close or an exit deletes no
node that is still in use. -/
inductive FileStep :
    KernelState width Registers → FileCall width → KernelState width Registers → Prop
  | opened {before after : KernelState width Registers} {process node : Address}
      {fd : BitVec width} (allocator : Allocator) (fuel : Nat) (path : List UInt8)
      (here : before.currentProc = some process)
      (found : relativeFind before.node fuel (some rootVNode) (boundedPath path) =
        .ok (some node))
      (returned : openPath allocator fuel path before = .ok fd after) :
      FileStep before (.opened process fd node) after
  | closed {before after : KernelState width Registers} {process : Address} (fuel : Nat)
      (fd : BitVec width) (here : before.currentProc = some process)
      (keeps : before.Keeps (.close fd)) (returned : close fuel fd before = .ok () after) :
      FileStep before (.closed process fd) after
  | chdir {before after : KernelState width Registers} (fuel : Nat) (path : List UInt8)
      (returned : chdir fuel path before = .ok () after) : FileStep before (.chdir path) after
  | sched {before after : KernelState width Registers} {event : SchedEvent}
      (keeps : before.Keeps (.sched event : SystemEvent width))
      (step : SchedStep before event after) : FileStep before (.sched event) after

/-- The index and the node of an entry. -/
def KernelState.handleAt (state : KernelState width Registers) (entry : Address) :
    BitVec width × Pointer :=
  ((state.entry entry).fileIndex, (state.entry entry).reference)

/-- The descriptors of a process, with the nodes behind them, in the order of its list. -/
def KernelState.HasTable (state : KernelState width Registers) (process : Address)
    (table : List (BitVec width × Address)) : Prop :=
  ∃ entries, state.HasFiles process entries ∧
    entries.map state.handleAt = table.map fun held => (held.1, some held.2)

/-- The invariant of the tables. -/
structure Indexed (state : KernelState width Registers) (procs : List Address)
    (taskOf : Address → Address) (filesOf : Address → List Address)
    (tables : Handles Address (BitVec width) Address) : Prop where
  /-- The entry in a task has no node and the index `-1`. -/
  head : ∀ process ∈ procs, (state.task (taskOf process)).files.reference = none ∧
    (state.task (taskOf process)).files.fileIndex = -1
  /-- The entries of a process are those of its table. -/
  table : ∀ process ∈ procs,
    (filesOf process).map state.handleAt = (tables.held process).map fun held =>
        (held.1, some held.2)
  /-- The counter is the number of opens. -/
  counter : state.current = BitVec.ofNat width tables.returned.length
  /-- The descriptors are numbered in the order of the opens. -/
  numbers : tables.returned =
    ((List.range tables.returned.length).map (BitVec.ofNat width)).reverse

namespace Indexed

variable {before after : KernelState width Registers} {procs procs' : List Address}
  {taskOf : Address → Address} {filesOf : Address → List Address}
  {tables tables' : Handles Address (BitVec width) Address} {process : Address}

/-- A change that concerns no entry of the remaining processes keeps the tables. -/
theorem congr (indexed : Indexed before procs taskOf filesOf tables)
    (members : ∀ other ∈ procs', other ∈ procs)
    (heads : ∀ task, (after.task task).files.reference = (before.task task).files.reference ∧
      (after.task task).files.fileIndex = (before.task task).files.fileIndex)
    (entries : ∀ entry, after.handleAt entry = before.handleAt entry)
    (current : after.current = before.current)
    (held : ∀ other ∈ procs', tables'.held other = tables.held other)
    (returned : tables'.returned = tables.returned) :
    Indexed after procs' taskOf filesOf tables' where
  head other member := by
    rw [(heads _).1, (heads _).2]
    exact indexed.head other (members other member)
  table other member := by
    rw [held other member, ← indexed.table other (members other member)]
    exact List.map_congr_left fun entry _ => entries entry
  counter := by rw [current, returned, indexed.counter]
  numbers := by
    rw [returned]
    exact indexed.numbers

/-- An open appends an entry with the counter for its index. -/
theorem opening (indexed : Indexed before procs taskOf filesOf tables) {node entry : Address}
    (owned : ∀ other ∈ procs, ∀ old ∈ filesOf other, old ∈ before.live)
    (fresh : entry ∉ before.live) :
    Indexed (before.opening (taskOf process) (filesOf process) node entry) procs taskOf
      (Function.update filesOf process (filesOf process ++ [entry]))
      ⟨Function.update tables.held process (tables.held process ++ [(before.current, node)]),
        before.current :: tables.returned⟩ := by
  have newEntry : (before.opening (taskOf process) (filesOf process) node entry).handleAt entry =
      (before.current, some node) := by
    simp [KernelState.handleAt, KernelState.opening, KernelState.withEntry]
  have oldEntry : ∀ old, old ≠ entry →
      (before.opening (taskOf process) (filesOf process) node entry).handleAt old =
        before.handleAt old := by
    intro old other
    simp [KernelState.handleAt, KernelState.opening, KernelState.withEntry, other]
  constructor
  · intro other member
    simp only [KernelState.opening]
    rw [(relinkAt_head _ _ _ _).1, (relinkAt_head _ _ _ _).2]
    exact indexed.head other member
  · intro other member
    have kept : (filesOf other).map
        (before.opening (taskOf process) (filesOf process) node entry).handleAt =
          (tables.held other).map fun held => (held.1, some held.2) := by
      rw [← indexed.table other member]
      apply List.map_congr_left
      intro old listed
      apply oldEntry
      exact fun same => fresh (same ▸ owned other member old listed)
    dsimp only
    by_cases same : other = process
    · subst same
      rw [Function.update_self, Function.update_self, List.map_append, List.map_append, kept]
      simp [newEntry]
    · rw [Function.update_of_ne same, Function.update_of_ne same]
      exact kept
  · simp only [KernelState.opening, List.length_cons, indexed.counter]
    apply BitVec.eq_of_toNat_eq
    simp
  · simp only [List.length_cons, List.range_succ, List.map_append, List.reverse_append]
    rw [← indexed.numbers, indexed.counter]
    rfl

/-- A close takes one entry out, the first one with its index. -/
theorem dropping (indexed : Indexed before procs taskOf filesOf tables)
    (member : process ∈ procs) {front back : List Address} {target node : Address}
    {fd : BitVec width} (split : filesOf process = front ++ target :: back)
    (index : (before.entry target).fileIndex = fd)
    (earlier : ∀ entry ∈ front, (before.entry entry).fileIndex ≠ fd)
    (points : (before.entry target).reference = some node) :
    ∃ tables', Handles.Step tables (.closed process fd) tables' ∧
      Indexed (before.dropping (taskOf process) front target node) procs taskOf
        (Function.update filesOf process (front ++ back)) tables' := by
  have table := indexed.table process member
  rw [split, List.map_append, List.map_cons] at table
  obtain ⟨ahead, rest, heldSplit, aheadIs, restIs⟩ := List.map_eq_append_iff.mp table.symm
  obtain ⟨⟨held, object⟩, behind, rfl, targetIs, behindIs⟩ := List.map_eq_cons_iff.mp restIs
  have here : (held, some object) = (fd, some node) := by
    rw [targetIs, KernelState.handleAt, index, points]
  obtain ⟨rfl, same⟩ := Prod.mk.inj here
  obtain rfl := Option.some.inj same
  have first : held ∉ ahead.map Prod.fst := by
    intro listed
    obtain ⟨pair, inside, rfl⟩ := List.mem_map.mp listed
    have mapped : (pair.1, some pair.2) ∈ front.map before.handleAt := by
      rw [← aheadIs]
      exact List.mem_map.mpr ⟨pair, inside, rfl⟩
    obtain ⟨entry, before, equal⟩ := List.mem_map.mp mapped
    exact earlier entry before (congrArg Prod.fst equal)
  refine ⟨_, .closed heldSplit first, ?_⟩
  have entries : ∀ entry, (before.dropping (taskOf process) front target object).handleAt entry =
      before.handleAt entry := by
    intro entry
    simp [KernelState.handleAt, KernelState.dropping, KernelState.setNode]
  constructor
  · intro other inside
    simp only [KernelState.dropping, KernelState.setNode]
    rw [(relinkAt_head _ _ _ _).1, (relinkAt_head _ _ _ _).2]
    exact indexed.head other inside
  · intro other inside
    dsimp only
    rw [show (before.dropping (taskOf process) front target object).handleAt = before.handleAt from
      funext entries]
    by_cases same : other = process
    · subst same
      rw [Function.update_self, Function.update_self, List.map_append, List.map_append, aheadIs,
        behindIs]
    · rw [Function.update_of_ne same, Function.update_of_ne same]
      exact indexed.table other inside
  · simp only [KernelState.dropping, KernelState.setNode, relinkAt_current]
    exact indexed.counter
  · exact indexed.numbers

/-- A new process holds nothing. -/
theorem creating {layout : Layout} {new data block : Address} {initialState : Registers}
    (indexed : Indexed before procs taskOf filesOf tables)
    (descriptors : Descriptors layout before procs taskOf filesOf)
    (fresh : FreshBlocks before.live new data block) :
    Indexed (before.creating layout.proc new data block initialState) (new :: procs)
      (Function.update taskOf new data) (Function.update filesOf new [])
      ⟨Function.update tables.held new [], tables.returned⟩ := by
  have scheduled := descriptors.scheduled
  have notNew : ∀ other ∈ procs, other ≠ new := fun other member =>
    (fresh.ne (scheduled.live other (.inr (.inr (.inr member))))).1
  constructor
  · intro other member
    rcases List.mem_cons.mp member with rfl | old
    · rw [Function.update_self]
      simp [KernelState.creating, KernelState.making]
    · have notData : taskOf other ≠ data := (fresh.ne (scheduled.task other old).1).2.1
      rw [Function.update_of_ne (notNew other old)]
      simp only [KernelState.creating, KernelState.making, Function.update_of_ne notData]
      exact indexed.head other old
  · intro other member
    dsimp only
    rcases List.mem_cons.mp member with rfl | old
    · rw [Function.update_self, Function.update_self]
      rfl
    · rw [Function.update_of_ne (notNew other old), Function.update_of_ne (notNew other old),
        ← indexed.table other old]
      apply List.map_congr_left
      intro entry listed
      obtain ⟨one, two, three⟩ := fresh.ne (descriptors.owned other old entry listed)
      simp [KernelState.handleAt, KernelState.creating, KernelState.making, one, two, three]
  · exact indexed.counter
  · exact indexed.numbers

/-- When the scheduler starts, nobody holds a descriptor. -/
theorem start {boot : Finset Address} {proc self first data block : Address}
    {zeroState : Registers} (booted : Boot boot before) (procFresh : proc ∉ before.live)
    (selfFresh : self ∉ insert proc before.live)
    (fresh : FreshBlocks (before.withDir proc self).live first data block)
    (counter : before.current = 0) :
    Indexed { (before.withDir proc self).creating proc first data block zeroState with
        currentProc := some first } [first] (Function.update (fun _ => 0) first data)
      (Function.update (fun _ => []) first []) ⟨fun _ => [], []⟩ := by
  have nobody : Indexed { before.withDir proc self with proc := some proc, currentProc := none }
      [] (fun _ => 0) (fun _ => []) (.empty : Handles Address (BitVec width) Address) :=
    ⟨by simp, by simp, counter, rfl⟩
  have made : Indexed (KernelState.creating { before.withDir proc self with
      proc := some proc, currentProc := none } proc first data block zeroState) [first] _ _ _ :=
    nobody.creating (Descriptors.dir booted procFresh selfFresh) fresh
  exact made.congr (fun _ member => member) (fun _ => ⟨rfl, rfl⟩) (fun _ => rfl) rfl
    (fun other _ => by simp [Handles.empty, Function.update_apply]) rfl

end Indexed

/-! ## Runs -/

section Runs

variable {layout : Layout} {initial start before after state : KernelState width Registers}
  {procs : List Address} {taskOf : Address → Address} {filesOf : Address → List Address}
  {tables : Handles Address (BitVec width) Address} {call : FileCall width}
  {calls : List (FileCall width)}

/-- Every call that keeps the nodes in use is one of these steps. -/
theorem SystemStep.fileStep {event : SystemEvent width}
    (descriptors : Descriptors layout before procs taskOf filesOf) (keeps : before.Keeps event)
    (step : SystemStep before event after) : ∃ call, FileStep before call after := by
  cases step with
  | openPath allocator fuel path returned =>
    obtain ⟨process, here⟩ := openPath_current returned
    obtain ⟨member, data, files, live⟩ := descriptors.currentFiles here
    obtain ⟨node, _, found, _⟩ :=
      openPath_ok here data files (descriptors.owned process member) live returned
    exact ⟨_, .opened allocator fuel path here found returned⟩
  | close fuel fd returned =>
    obtain ⟨process, here⟩ := close_current returned
    exact ⟨_, .closed fuel fd here keeps returned⟩
  | chdir fuel path returned => exact ⟨_, .chdir fuel path returned⟩
  | sched step => exact ⟨_, .sched keeps step⟩

/-- Each step is a step of the abstract table. -/
theorem FileStep.indexed (descriptors : Descriptors layout before procs taskOf filesOf)
    (pointers : Pointers layout before procs)
    (indexed : Indexed before procs taskOf filesOf tables) (step : FileStep before call after) :
    ∃ procs' taskOf' filesOf' tables', Descriptors layout after procs' taskOf' filesOf' ∧
      Pointers layout after procs' ∧ Indexed after procs' taskOf' filesOf' tables' ∧
      Handles.Step tables call.handleCall tables' := by
  have scheduled := descriptors.scheduled
  cases step with
  | @opened _ process node fd allocator fuel path here found returned =>
    obtain ⟨member, data, files, live⟩ := descriptors.currentFiles here
    obtain ⟨opened, entry, resolved, unmarked, fresh, rfl, rfl⟩ :=
      openPath_ok here data files (descriptors.owned process member) live returned
    obtain rfl := Option.some.inj (Except.ok.inj (found.symm.trans resolved))
    have effect : Effect layout before procs taskOf filesOf (.openPath path)
        (before.opening (taskOf process) (filesOf process) node entry) _ _ _ :=
      .opening here found unmarked (found_known scheduled pointers here found) fresh
    exact ⟨_, _, _, _, effect.descriptors descriptors, effect.pointers scheduled pointers,
      indexed.opening descriptors.owned fresh, .opened process _ node⟩
  | @closed _ process fuel fd here keeps returned =>
    have member := scheduled.current process here
    obtain ⟨front, target, back, node, split, index, earlier, points, rfl⟩ :=
      close_dropping descriptors here keeps returned
    have effect : Effect layout before procs taskOf filesOf (.close fd)
        (before.dropping (taskOf process) front target node) _ _ _ :=
      .dropping here split points
    obtain ⟨tables', move, kept⟩ := indexed.dropping member split index earlier points
    exact ⟨_, _, _, tables', effect.descriptors descriptors, effect.pointers scheduled pointers,
      kept, move⟩
  | chdir fuel path returned =>
    obtain ⟨process, here⟩ := chdir_current returned
    obtain ⟨member, data, files, live⟩ := descriptors.currentFiles here
    obtain ⟨found, resolved, rfl⟩ := chdir_ok here data returned
    have effect : Effect layout before procs taskOf filesOf (.chdir path) _ _ _ _ :=
      .moving here resolved
    refine ⟨_, _, _, tables, effect.descriptors descriptors, effect.pointers scheduled pointers,
      ?_, .other⟩
    refine indexed.congr (fun _ member => member) (fun task => ?_) (fun _ => rfl) rfl
      (fun _ _ => rfl) rfl
    simp only [KernelState.setTask, Function.update_apply]
    split_ifs with same
    · rw [same]
      exact ⟨rfl, rfl⟩
    · exact ⟨rfl, rfl⟩
  | sched keeps step =>
    obtain ⟨procs', taskOf', filesOf', effect⟩ :=
      SystemStep.effect descriptors pointers keeps (.sched step)
    have descriptors' := effect.descriptors descriptors
    have pointers' := effect.pointers scheduled pointers
    cases effect with
    | creating fresh =>
      exact ⟨_, _, _, _, descriptors', pointers', indexed.creating descriptors fresh,
        .cleared _⟩
    | @exiting process front rest here split unreferenced =>
      subst split
      refine ⟨_, _, _, _, descriptors', pointers', ?_, .cleared process⟩
      refine indexed.congr (fun other member => ?_) (fun task => ?_) (fun _ => rfl) rfl
        (fun other member => ?_) rfl
      · exact ((mem_remaining scheduled).mp member).1
      · exact relinkAt_head _ (.files _) none task
      · obtain ⟨_, apart⟩ := (mem_remaining scheduled).mp member
        dsimp only
        rw [Function.update_of_ne apart]
    | selecting next =>
      refine ⟨_, _, _, tables, descriptors', pointers', ?_, .other⟩
      exact indexed.congr (fun _ member => member) (fun _ => ⟨rfl, rfl⟩) (fun _ => rfl) rfl
        (fun _ _ => rfl) rfl

/-- Every run is a run of the abstract table. -/
theorem indexed_run (descriptors : Descriptors layout start procs taskOf filesOf)
    (pointers : Pointers layout start procs)
    (indexed : Indexed start procs taskOf filesOf tables) (run : Run FileStep start calls state) :
    ∃ procs' taskOf' filesOf' tables', Descriptors layout state procs' taskOf' filesOf' ∧
      Pointers layout state procs' ∧ Indexed state procs' taskOf' filesOf' tables' ∧
      Run Handles.Step tables (calls.map FileCall.handleCall) tables' := by
  induction run with
  | nil => exact ⟨procs, taskOf, filesOf, tables, descriptors, pointers, indexed, .nil _⟩
  | snoc _ step ih =>
    obtain ⟨_, _, _, middle, descriptors, pointers, indexed, moves⟩ := ih
    obtain ⟨procs', taskOf', filesOf', tables', descriptors, pointers, indexed, move⟩ :=
      step.indexed descriptors pointers indexed
    refine ⟨procs', taskOf', filesOf', tables', descriptors, pointers, indexed, ?_⟩
    rw [List.map_append]
    exact moves.snoc move

/-- A run from the start of the scheduler is a run of the empty table. -/
theorem started_run {boot : Finset Address} {allocator : Allocator} {fuel : Nat}
    {zeroState : Registers} (booted : Boot boot initial)
    (parents : ∀ address ∈ boot, ∀ target, (initial.node address).parent = some target →
      target ∈ boot)
    (counter : initial.current = 0)
    (started : schedulerInitialise allocator fuel zeroState initial = .ok () start)
    (run : Run FileStep start calls state) :
    ∃ layout procs taskOf filesOf tables, Descriptors layout state procs taskOf filesOf ∧
      Indexed state procs taskOf filesOf tables ∧
      Run Handles.Step .empty (calls.map FileCall.handleCall) tables := by
  obtain ⟨proc, self, first, data, block, procFresh, selfFresh, fresh, rfl⟩ :=
    schedulerInitialise_ok booted started
  obtain ⟨procs, taskOf, filesOf, tables, descriptors, _, indexed, moves⟩ :=
    indexed_run (.start booted procFresh selfFresh fresh)
      (.start booted parents procFresh selfFresh fresh)
      (.start booted procFresh selfFresh fresh counter) run
  exact ⟨_, procs, taskOf, filesOf, tables, descriptors, indexed, moves⟩

end Runs

/-! ## The searches -/

section Search

variable {layout : Layout} {state : KernelState width Registers} {procs : List Address}
  {taskOf : Address → Address} {filesOf : Address → List Address}
  {tables : Handles Address (BitVec width) Address} {process : Address} {fd : BitVec width}
  {fuel : Nat}

/-- The descriptors are different as long as the counter does not wrap. -/
theorem Indexed.nodup (indexed : Indexed state procs taskOf filesOf tables)
    (few : tables.returned.length ≤ 2 ^ width) : tables.returned.Nodup := by
  rw [indexed.numbers, List.nodup_reverse]
  apply List.Nodup.map_on _ List.nodup_range
  intro left leftMember right rightMember same
  have values := congrArg BitVec.toNat same
  simp only [List.mem_range] at leftMember rightMember
  simp only [BitVec.toNat_ofNat] at values
  rw [Nat.mod_eq_of_lt (by omega), Nat.mod_eq_of_lt (by omega)] at values
  exact values

/-- Before the counter wraps no descriptor is the index of the entry in a task. -/
theorem Indexed.ne_head (indexed : Indexed state procs taskOf filesOf tables)
    (few : tables.returned.length < 2 ^ width) (member : fd ∈ tables.returned) : fd ≠ -1 := by
  rw [indexed.numbers] at member
  simp only [List.mem_reverse, List.mem_map, List.mem_range] at member
  obtain ⟨number, less, rfl⟩ := member
  intro same
  have values := congrArg BitVec.toNat same
  have ones : (-1 : BitVec width) = BitVec.allOnes width := BitVec.neg_one_eq_allOnes
  have last : (-1 : BitVec width).toNat = 2 ^ width - 1 := by
    rw [ones, BitVec.toNat_allOnes]
  rw [last, BitVec.toNat_ofNat, Nat.mod_eq_of_lt (by omega)] at values
  omega

/-- A table has as many entries as the list of its process. -/
theorem Indexed.length (indexed : Indexed state procs taskOf filesOf tables)
    (member : process ∈ procs) : (filesOf process).length = (tables.held process).length := by
  have lengths := congrArg List.length (indexed.table process member)
  simpa using lengths

/-- An entry of a process has the index of a descriptor in its table. -/
theorem Indexed.mem_table (indexed : Indexed state procs taskOf filesOf tables)
    (member : process ∈ procs) {entry : Address} (listed : entry ∈ filesOf process) :
    (state.entry entry).fileIndex ∈ (tables.held process).map Prod.fst := by
  have mapped : state.handleAt entry ∈ (tables.held process).map fun held =>
      (held.1, some held.2) := by
    rw [← indexed.table process member]
    exact List.mem_map_of_mem listed
  obtain ⟨held, inside, same⟩ := List.mem_map.mp mapped
  exact List.mem_map.mpr ⟨held, inside, congrArg Prod.fst same⟩

/-- `find` returns the entry of a descriptor that is held. -/
theorem find_held (descriptors : Descriptors layout state procs taskOf filesOf)
    (indexed : Indexed state procs taskOf filesOf tables)
    (distinct : ((tables.held process).map Prod.fst).Nodup)
    (here : state.currentProc = some process) {node : Address}
    (held : (fd, node) ∈ tables.held process) (notHead : fd ≠ -1)
    (enough : (tables.held process).length < fuel) :
    ∃ place, find fuel fd state = .ok place state ∧
      (state.entryAt place).reference = some node := by
  obtain ⟨member, data, files, _⟩ := descriptors.currentFiles here
  obtain ⟨ahead, behind, split⟩ := List.append_of_mem held
  have table := indexed.table process member
  rw [split, List.map_append, List.map_cons] at table
  obtain ⟨front, rest, listed, frontIs, restIs⟩ := List.map_eq_append_iff.mp table
  obtain ⟨target, back, rfl, targetIs, _⟩ := List.map_eq_cons_iff.mp restIs
  obtain ⟨index, points⟩ := Prod.mk.inj targetIs
  have first : fd ∉ ahead.map Prod.fst := by
    rw [split, List.map_append, List.map_cons] at distinct
    have apart := (List.nodup_append.mp distinct).2.2
    exact fun listed => apart fd listed fd List.mem_cons_self rfl
  have earlier : ∀ entry ∈ front, (state.entry entry).fileIndex ≠ fd := by
    intro entry before same
    have mapped : state.handleAt entry ∈ ahead.map fun held => (held.1, some held.2) := by
      rw [← frontIs]
      exact List.mem_map_of_mem before
    obtain ⟨pair, inside, equal⟩ := List.mem_map.mp mapped
    apply first
    exact List.mem_map.mpr ⟨pair, inside, (congrArg Prod.fst equal).trans same⟩
  have sizes := indexed.length member
  have head : (state.entryAt (.files (taskOf process))).fileIndex ≠ fd := by
    intro same
    exact notHead (same.symm.trans (indexed.head process member).2)
  rw [listed] at files sizes
  have linked : Segment state.entryNext (state.entryAt (.files (taskOf process))).next
      (front ++ target :: back) none := files
  refine ⟨.block target, ?_, points⟩
  unfold find
  rw [bind_of_ok (currentTask_eq here data)]
  apply findFrom_found linked head earlier index
  simp only [List.length_append, List.length_cons] at sizes
  omega

/-- `findb` refuses a descriptor that is not held. -/
theorem findb_unknown (descriptors : Descriptors layout state procs taskOf filesOf)
    (indexed : Indexed state procs taskOf filesOf tables)
    (here : state.currentProc = some process)
    (unknown : fd ∉ (tables.held process).map Prod.fst)
    (enough : (tables.held process).length < fuel) :
    findb fuel fd state = .error (.panic .fdNotFound) state := by
  obtain ⟨member, data, files, _⟩ := descriptors.currentFiles here
  have linked : Segment state.entryNext (state.entryAt (.files (taskOf process))).next
      (filesOf process) none := files
  unfold findb
  rw [bind_of_ok (currentTask_eq here data)]
  apply findbFrom_missing linked
  · intro entry listed same
    exact unknown (same ▸ indexed.mem_table member listed)
  · rw [indexed.length member]
    exact enough

/-- `find` refuses a descriptor that is not held, unless it is the index of the entry in the
task. -/
theorem find_unknown (descriptors : Descriptors layout state procs taskOf filesOf)
    (indexed : Indexed state procs taskOf filesOf tables)
    (here : state.currentProc = some process)
    (unknown : fd ∉ (tables.held process).map Prod.fst) (notHead : fd ≠ -1)
    (enough : (tables.held process).length < fuel) :
    find fuel fd state = .error (.panic .fdNotFound) state := by
  obtain ⟨member, data, files, _⟩ := descriptors.currentFiles here
  have linked : Segment state.entryNext (state.entryAt (.files (taskOf process))).next
      (filesOf process) none := files
  unfold find
  rw [bind_of_ok (currentTask_eq here data)]
  apply findFrom_missing linked
  · intro same
    exact notHead (same.symm.trans (indexed.head process member).2)
  · intro entry listed same
    exact unknown (same ▸ indexed.mem_table member listed)
  · rw [indexed.length member]
    exact enough

/-- `find` returns the entry in the task for its index. -/
theorem find_head (descriptors : Descriptors layout state procs taskOf filesOf)
    (indexed : Indexed state procs taskOf filesOf tables)
    (here : state.currentProc = some process) (positive : 0 < fuel) :
    find fuel (-1) state = .ok (.files (taskOf process)) state := by
  obtain ⟨member, data, _, _⟩ := descriptors.currentFiles here
  obtain ⟨less, rfl⟩ : ∃ less, fuel = less + 1 := ⟨fuel - 1, by omega⟩
  unfold find
  rw [bind_of_ok (currentTask_eq here data), findFrom_succ]
  exact if_pos (indexed.head process member).2

/-- `read` from the index of the entry in the task reads the null node behind it. -/
theorem read_head (descriptors : Descriptors layout state procs taskOf filesOf)
    (indexed : Indexed state procs taskOf filesOf tables)
    (here : state.currentProc = some process) {buf : Pointer} (given : buf ≠ none)
    (positive : 0 < fuel) {call : RWFunction → Address → Kernel (KernelState width Registers) Int} :
    read call fuel (-1) buf state = .error .nullAccess state := by
  obtain ⟨member, _, _, _⟩ := descriptors.currentFiles here
  have passes : panicIf (buf = none) .nullPointerDereference state = .ok () state :=
    panicIf_ok.mpr ⟨given, rfl⟩
  have null : (state.entryAt (.files (taskOf process))).reference = none :=
    (indexed.head process member).1
  unfold read
  rw [bind_of_ok passes, bind_of_ok (find_head descriptors indexed here positive),
    bind_of_ok (get_ok.mpr ⟨rfl, rfl⟩), null]
  rfl

end Search

/-! ## A run with an open descriptor -/

/-- The bare root has no parent. -/
theorem bareRoot_parents : ∀ address ∈ ({rootVNode} : Finset Address), ∀ target,
    ((KernelState.bareRoot 32 ()).node address).parent = some target →
      target ∈ ({rootVNode} : Finset Address) := by
  intro address member target points
  rw [Finset.mem_singleton.mp member] at points
  have null : ((KernelState.bareRoot 32 ()).node rootVNode).parent = none := by decide +kernel
  cases null.symm.trans points

/-- The first process opens `/proc` and gets the descriptor `0`. -/
theorem sample_file : Run FileStep sampleStart [.opened 3 0 1] sampleOpened := by
  have returned : openPath .next 4 procDir sampleStart = .ok 0#32 sampleOpened :=
    ok_of_resultOf (by decide +kernel)
  refine .snoc (.nil _) (.opened .next 4 procDir (by decide +kernel) ?_ returned)
  decide +kernel

/-! ## The two results -/

section Results

variable {initial start state : KernelState width Registers} {boot : Finset Address}
  {allocator : Allocator} {fuel : Nat} {zeroState : Registers} {calls : List (FileCall width)}

/-- **The descriptor tables are ordered maps.** Every run of opens and closes of any processes is a
run of the abstract table: an open appends one entry for the resolved node, a close removes one
entry, and the lists of all processes are those of the table. While the counter has not wrapped,
no descriptor is returned twice, those of a process are different, and `find` returns the node
of an open that was not closed. -/
theorem descriptors_refine (booted : Boot boot initial)
    (parents : ∀ address ∈ boot, ∀ target, (initial.node address).parent = some target →
      target ∈ boot)
    (counter : initial.current = 0)
    (started : schedulerInitialise allocator fuel zeroState initial = .ok () start)
    (run : Run FileStep start calls state) :
    ∃ tables, Run Handles.Step .empty (calls.map FileCall.handleCall) tables ∧
      (∀ process, state.IsProcess process → state.HasTable process (tables.held process)) ∧
      (tables.returned.length ≤ 2 ^ width →
        tables.returned.Nodup ∧ ∀ process, ((tables.held process).map Prod.fst).Nodup) ∧
      (tables.returned.length < 2 ^ width → ∀ process fd node enough,
        state.currentProc = some process → (fd, node) ∈ tables.held process →
        (tables.held process).length < enough →
        ∃ place, find enough fd state = .ok place state ∧
          (state.entryAt place).reference = some node) := by
  obtain ⟨layout, procs, taskOf, filesOf, tables, descriptors, indexed, moves⟩ :=
    started_run booted parents counter started run
  have scheduled := descriptors.scheduled
  have distinct : tables.returned.length ≤ 2 ^ width → Handles.Distinct tables := fun few =>
    Handles.distinct_run moves Handles.distinct_empty (indexed.nodup few)
  refine ⟨tables, moves, ?_, ?_, ?_⟩
  · intro process isProcess
    have member := scheduled.isProcess.mp isProcess
    exact ⟨filesOf process, (descriptors.hasFiles member).mpr rfl, indexed.table process member⟩
  · intro few
    exact ⟨indexed.nodup few, (distinct few).nodup⟩
  · intro few process fd node enough here held room
    have apart := distinct (Nat.le_of_lt few)
    exact find_held descriptors indexed (apart.nodup process) here held
      (indexed.ne_head few (apart.returned process _ held)) room

/-- The table of the sample run. -/
theorem descriptors_refine_sample : ∃ tables, Run Handles.Step .empty [.opened 3 0 1] tables ∧
    ∀ process, sampleOpened.IsProcess process →
      sampleOpened.HasTable process (tables.held process) := by
  obtain ⟨tables, moves, held, _⟩ := descriptors_refine (Boot.bareRoot 32 ()) bareRoot_parents
    (by decide +kernel) sample_started sample_file
  exact ⟨tables, moves, held⟩

/-- All four calls on a descriptor stop at the panic, and change nothing. -/
def RefusesDescriptor (call : RWFunction → Address → Kernel (KernelState width Registers) Int)
    (fuel : Nat) (fd : BitVec width) (buf : Pointer) (offset whence : Int)
    (state : KernelState width Registers) : Prop :=
  read call fuel fd buf state = .error (.panic .fdNotFound) state ∧
    write call fuel fd buf state = .error (.panic .fdNotFound) state ∧
    lseek fuel fd offset whence state = .error (.panic .fdNotFound) state ∧
    close fuel fd state = .error (.panic .fdNotFound) state

/-- **Unknown descriptors.** After every run, the four calls on a descriptor that the current
process does not hold are all refused exactly when it is not `-1`, given a buffer; `close` alone
refuses that one too. -/
theorem unknown_descriptor_iff (booted : Boot boot initial)
    (parents : ∀ address ∈ boot, ∀ target, (initial.node address).parent = some target →
      target ∈ boot)
    (counter : initial.current = 0)
    (started : schedulerInitialise allocator fuel zeroState initial = .ok () start)
    (run : Run FileStep start calls state) :
    ∃ tables, Run Handles.Step .empty (calls.map FileCall.handleCall) tables ∧
      ∀ call process fd buf offset whence enough, state.currentProc = some process →
        fd ∉ (tables.held process).map Prod.fst → (tables.held process).length < enough →
        close enough fd state = .error (.panic .fdNotFound) state ∧
          (RefusesDescriptor call enough fd buf offset whence state ↔ fd ≠ -1 ∧ buf ≠ none) := by
  obtain ⟨layout, procs, taskOf, filesOf, tables, descriptors, indexed, moves⟩ :=
    started_run booted parents counter started run
  refine ⟨tables, moves, ?_⟩
  intro call process fd buf offset whence enough here unknown room
  have closes : close enough fd state = .error (.panic .fdNotFound) state := by
    unfold close
    rw [bind_of_error (findb_unknown descriptors indexed here unknown room)]
  refine ⟨closes, ?_⟩
  unfold RefusesDescriptor
  constructor
  · rintro ⟨reads, _, _, _⟩
    have given : buf ≠ none := by
      rintro rfl
      cases reads
    refine ⟨?_, given⟩
    rintro rfl
    -- The search returns the entry in the task, and its node is null.
    rw [read_head descriptors indexed here given (by omega)] at reads
    cases reads
  · rintro ⟨notHead, given⟩
    have missing := find_unknown descriptors indexed here unknown notHead room
    have passes : panicIf (buf = none) .nullPointerDereference state = .ok () state :=
      panicIf_ok.mpr ⟨given, rfl⟩
    refine ⟨?_, ?_, ?_, closes⟩
    · unfold read
      rw [bind_of_ok passes, bind_of_error missing]
    · unfold write
      rw [bind_of_ok passes, bind_of_error missing]
    · unfold lseek
      rw [bind_of_error missing]

/-- The first process holds the descriptor `0`, so `1` is refused. -/
theorem unknown_descriptor_iff_sample :
    RefusesDescriptor (fun _ _ => pure 0) 4 1#32 (some 0) 0 0 sampleOpened := by
  obtain ⟨tables, moves, refused⟩ := unknown_descriptor_iff (Boot.bareRoot 32 ()) bareRoot_parents
    (by decide +kernel) sample_started sample_file
  have here : sampleOpened.currentProc = some 3 := by decide +kernel
  have held : tables.held 3 = [(0#32, 1)] := by
    cases moves.single with
    | opened => simp [Handles.empty]
  refine ((refused _ 3 1#32 (some 0) 0 0 4 here ?_ ?_).2).mpr ⟨by decide, by decide⟩
  · rw [held]
    decide
  · rw [held]
    decide

/-- The first process holds no descriptor, but `read` on `-1` follows the null node of the entry
in the task. -/
theorem head_not_refused : ¬ ∀ (start state : KernelState 32 Unit) (calls : List (FileCall 32))
    (process : Address) (fd : BitVec 32),
    schedulerInitialise .next 4 () (.bareRoot 32 ()) = .ok () start →
    Run FileStep start calls state → state.currentProc = some process →
    (∃ table, state.HasTable process table ∧ fd ∉ table.map Prod.fst) →
    RefusesDescriptor (fun _ _ => pure 0) 4 fd (some 0) 0 0 state := by
  intro claim
  have here : sampleStart.currentProc = some 3 := by decide +kernel
  have nothing : sampleStart.HasTable 3 [] :=
    ⟨[], ⟨4, by decide +kernel, (by decide +kernel : (sampleStart.task 4).files.next = none)⟩, rfl⟩
  obtain ⟨reads, _⟩ := claim sampleStart sampleStart [] 3 (-1) sample_started (.nil _) here
    ⟨[], nothing, by simp⟩
  have touches : (match read (fun _ _ => pure 0) 4 (-1 : BitVec 32) (some 0) sampleStart with
      | .error reason _ => some reason
      | .ok _ _ => none) = some Stop.nullAccess := by decide +kernel
  rw [reads] at touches
  cases touches

end Results

end Unarddeg
