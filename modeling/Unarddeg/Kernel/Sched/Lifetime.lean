import Unarddeg.Kernel.Sched.Tables
import Unarddeg.Kernel.Vmem.LiveBlocks

/-!
# The memory of a process

The kernel and its page allocator, step by step. Each block of the kernel lies on one page, so
`MStat` counts them (`Backed.mStat`). A process takes a block for its node, one for its task and
one for the digits of its name, and one more for each open file; its exit gives back all of them
but the digits. So every creation costs a page for ever (`lifetime_iff`).
-/

namespace Unarddeg

open Library

variable {width : Nat} {Registers : Type}

/-! ## The allocator under the heap -/

/-- The blocks behind the addresses that are handed out, in the pages of the allocator. -/
structure Heap (width : Nat) where
  /-- The addresses handed out, and the root. -/
  live : Finset Address
  /-- The block behind an address. -/
  blockOf : Address → Vmem.Block width
  /-- The page allocator. -/
  pages : Vmem.PageState width

/-- A call of the allocator. -/
inductive HeapCall
  | kalloc (address : Address)
  | kfree (address : Address)

/-- One call on a block of one page. -/
inductive HeapStep (memoryStart : BitVec width) : Heap width → HeapCall → Heap width → Prop
  | kalloc {live : Finset Address} {blockOf : Address → Vmem.Block width}
      {before after : Vmem.PageState width} {address : Address} {size pointer : BitVec width}
      (fresh : address ∉ live) (nonzero : size ≠ 0)
      (onePage : Vmem.Block.pages (⟨pointer, size⟩ : Vmem.Block width) = 1)
      (contiguous : Vmem.Contiguous memoryStart (before, []) (.kalloc size))
      (returned : Vmem.kalloc memoryStart size before = .ok pointer after) :
      HeapStep memoryStart ⟨live, blockOf, before⟩ (.kalloc address)
        ⟨insert address live, Function.update blockOf address ⟨pointer, size⟩, after⟩
  | kfree {live : Finset Address} {blockOf : Address → Vmem.Block width}
      {before after : Vmem.PageState width} {address : Address} (owned : address ∈ live)
      (notRoot : address ≠ rootVNode)
      (returned : Vmem.kfree memoryStart (blockOf address).pointer before = .ok () after) :
      HeapStep memoryStart ⟨live, blockOf, before⟩ (.kfree address)
        ⟨live.erase address, blockOf, after⟩

/-- Every address but the static root has a block of its own on one page. -/
structure Backed (memoryStart : BitVec width) (heap : Heap width)
    (placed : List (Address × Nat)) : Prop where
  /-- The blocks are tracked at their pages. -/
  tracked : Vmem.Tracked memoryStart heap.pages
    (placed.map fun entry => (heap.blockOf entry.1, entry.2))
  /-- Each of them has one page. -/
  onePage : ∀ entry ∈ placed, (heap.blockOf entry.1).pages = 1
  /-- They are those of the addresses handed out. -/
  live : heap.live = (rootVNode :: placed.map Prod.fst).toFinset
  /-- No address stands twice in the list. -/
  nodup : (rootVNode :: placed.map Prod.fst).Nodup

namespace Backed

variable {memoryStart : BitVec width} {before after heap : Heap width}
  {placed : List (Address × Nat)} {call : HeapCall} {calls : List HeapCall}

/-- At boot only the root is there. -/
theorem boot (memoryStart : BitVec width) (memory : BitVec width → BitVec width)
    (blockOf : Address → Vmem.Block width) :
    Backed memoryStart ⟨{rootVNode}, blockOf, (Vmem.allClear memory).1⟩ [] where
  tracked := Vmem.tracked_allClear memoryStart memory
  onePage _ member := by cases member
  live := rfl
  nodup := List.nodup_singleton _

/-- `MStat` counts the addresses handed out. -/
theorem mStat (backed : Backed memoryStart heap placed) :
    Vmem.mStat heap.pages + heap.live.card = Vmem.totalBitmap + 1 := by
  have counted := backed.tracked.counted
  have ones : ((placed.map fun entry => (heap.blockOf entry.1, entry.2)).map
      fun entry => entry.1.pages).sum = placed.length := by
    have each : placed.map (fun entry => (heap.blockOf entry.1).pages) = placed.map fun _ => 1 :=
      List.map_congr_left backed.onePage
    rw [List.map_map, Function.comp_def, each]
    simp
  have addresses : heap.live.card = placed.length + 1 := by
    rw [backed.live, List.toFinset_card_of_nodup backed.nodup]
    simp
  rw [Vmem.mStat_eq]
  omega

/-- A block of one page is handed out for a new address. -/
theorem kalloc {live : Finset Address} {blockOf : Address → Vmem.Block width}
    {before after : Vmem.PageState width} {address : Address} {size pointer : BitVec width}
    (backed : Backed memoryStart ⟨live, blockOf, before⟩ placed) (fresh : address ∉ live)
    (nonzero : size ≠ 0) (onePage : Vmem.Block.pages (⟨pointer, size⟩ : Vmem.Block width) = 1)
    (contiguous : Vmem.Contiguous memoryStart (before, []) (.kalloc size))
    (returned : Vmem.kalloc memoryStart size before = .ok pointer after) :
    ∃ first, Backed memoryStart
      ⟨insert address live, Function.update blockOf address ⟨pointer, size⟩, after⟩
      ((address, first) :: placed) := by
  obtain ⟨total, first, run, range⟩ := contiguous.resolve_left nonzero
  have extended := (backed.tracked.kalloc nonzero total run range returned).2
  have apart : address ∉ rootVNode :: placed.map Prod.fst := by
    intro member
    apply fresh
    rw [show live = _ from backed.live]
    exact List.mem_toFinset.mpr member
  have other : ∀ entry ∈ placed, entry.1 ≠ address := by
    intro entry member same
    apply apart
    exact List.mem_cons_of_mem _ (List.mem_map.mpr ⟨entry, member, same⟩)
  have blocks : (placed.map fun entry =>
      (Function.update blockOf address ⟨pointer, size⟩ entry.1, entry.2)) =
        placed.map fun entry => (blockOf entry.1, entry.2) := by
    apply List.map_congr_left
    intro entry member
    rw [Function.update_of_ne (other entry member)]
  refine ⟨first, ?_, ?_, ?_, ?_⟩
  · dsimp only
    rw [List.map_cons, blocks]
    dsimp only
    rw [Function.update_self]
    exact extended
  · intro entry member
    rcases List.mem_cons.mp member with rfl | old
    · dsimp only
      rw [Function.update_self]
      exact onePage
    · dsimp only
      rw [Function.update_of_ne (other entry old)]
      exact backed.onePage entry old
  · dsimp only
    rw [show live = _ from backed.live]
    simp only [List.map_cons, List.toFinset_cons]
    exact Finset.insert_comm _ _ _
  · rw [List.map_cons]
    exact (List.Perm.swap _ _ _).nodup_iff.mp (List.nodup_cons.mpr ⟨apart, backed.nodup⟩)

/-- The block behind an address is given back. -/
theorem kfree {live : Finset Address} {blockOf : Address → Vmem.Block width}
    {before after : Vmem.PageState width} {address : Address}
    (backed : Backed memoryStart ⟨live, blockOf, before⟩ placed) (owned : address ∈ live)
    (notRoot : address ≠ rootVNode)
    (returned : Vmem.kfree memoryStart (blockOf address).pointer before = .ok () after) :
    ∃ placed', Backed memoryStart ⟨live.erase address, blockOf, after⟩ placed' := by
  have held : address ∈ rootVNode :: placed.map Prod.fst := by
    rw [← List.mem_toFinset, ← backed.live]
    exact owned
  obtain ⟨first, member⟩ : ∃ first, (address, first) ∈ placed := by
    obtain ⟨entry, member, rfl⟩ :=
      List.mem_map.mp ((List.mem_cons.mp held).resolve_left notRoot)
    exact ⟨entry.2, member⟩
  obtain ⟨earlier, later, rfl⟩ := List.append_of_mem member
  have tracked := backed.tracked
  rw [List.map_append, List.map_cons] at tracked
  have moved : (address :: rootVNode :: (earlier ++ later).map Prod.fst).Nodup := by
    have order : List.Perm (rootVNode :: (earlier ++ (address, first) :: later).map Prod.fst)
        (address :: rootVNode :: (earlier ++ later).map Prod.fst) :=
      ((List.perm_middle.map Prod.fst).cons rootVNode).trans (List.Perm.swap _ _ _)
    exact order.nodup_iff.mp backed.nodup
  refine ⟨earlier ++ later, ?_, ?_, ?_, ?_⟩
  · rw [List.map_append]
    exact tracked.kfree returned
  · intro entry inside
    apply backed.onePage
    simp only [List.mem_append, List.mem_cons] at inside ⊢
    tauto
  · dsimp only
    rw [show live = _ from backed.live]
    have others := (List.nodup_cons.mp moved).1
    ext other
    simp only [Finset.mem_erase, List.mem_toFinset, List.mem_cons, List.map_append,
      List.map_cons, List.mem_append] at others ⊢
    constructor
    · tauto
    · intro inside
      refine ⟨?_, by tauto⟩
      rintro rfl
      exact others inside
  · exact (List.nodup_cons.mp moved).2

/-- Each call keeps the blocks. -/
theorem step (backed : Backed memoryStart before placed)
    (called : HeapStep memoryStart before call after) :
    ∃ placed', Backed memoryStart after placed' := by
  cases called with
  | kalloc fresh nonzero onePage contiguous returned =>
    obtain ⟨_, extended⟩ := backed.kalloc fresh nonzero onePage contiguous returned
    exact ⟨_, extended⟩
  | kfree owned notRoot returned => exact backed.kfree owned notRoot returned

/-- Every run of the allocator keeps the blocks. -/
theorem run (backed : Backed memoryStart before placed)
    (called : Run (HeapStep memoryStart) before calls after) :
    ∃ placed', Backed memoryStart after placed' := by
  induction called with
  | nil => exact ⟨placed, backed⟩
  | snoc _ move ih =>
    obtain ⟨_, kept⟩ := ih
    exact kept.step move

end Backed

/-! ## The balance of a step -/

/-- The creations in an event. -/
def SystemEvent.creations : SystemEvent width → Nat
  | .sched (.create _) => 1
  | _ => 0

/-- The blocks that the exits of the processes give back. -/
def heldBlocks (procs : List Address) (filesOf : Address → List Address) : Nat :=
  (procs.map fun process => 2 + (filesOf process).length).sum

/-- Another process holds what it held. -/
theorem heldBlocks_congr {procs : List Address} {filesOf filesOf' : Address → List Address}
    (same : ∀ process ∈ procs, (filesOf' process).length = (filesOf process).length) :
    heldBlocks procs filesOf' = heldBlocks procs filesOf := by
  unfold heldBlocks
  rw [List.map_congr_left fun process member => by rw [same process member]]

/-- The process in the middle of the list holds its own blocks. -/
theorem heldBlocks_middle (front rest : List Address) (process : Address)
    (filesOf : Address → List Address) :
    heldBlocks (front ++ process :: rest) filesOf =
      heldBlocks (front ++ rest) filesOf + (2 + (filesOf process).length) := by
  simp only [heldBlocks, List.map_append, List.map_cons, List.sum_append, List.sum_cons]
  omega

/-- Other files of one process change what it holds. -/
theorem heldBlocks_update {procs : List Address} {filesOf : Address → List Address}
    (nodup : procs.Nodup) {process : Address} (member : process ∈ procs) (files : List Address) :
    heldBlocks procs (Function.update filesOf process files) + (filesOf process).length =
      heldBlocks procs filesOf + files.length := by
  obtain ⟨front, rest, rfl⟩ := List.append_of_mem member
  have others : ∀ other ∈ front ++ rest, other ≠ process := by
    intro other inside same
    rw [List.nodup_middle] at nodup
    exact (List.nodup_cons.mp nodup).1 (same ▸ inside)
  have kept : heldBlocks (front ++ rest) (Function.update filesOf process files) =
      heldBlocks (front ++ rest) filesOf := by
    apply heldBlocks_congr
    intro other inside
    rw [Function.update_of_ne (others other inside)]
  rw [heldBlocks_middle, heldBlocks_middle, Function.update_self, kept]
  omega

section Balance

variable {layout : Layout} {before after : KernelState width Registers}
  {procs procs' : List Address} {taskOf taskOf' : Address → Address}
  {filesOf filesOf' : Address → List Address} {event : SystemEvent width}

/-- An exit gives back the entries of the process, its task and its node. -/
theorem Descriptors.card_exiting (descriptors : Descriptors layout before procs taskOf filesOf)
    {process : Address} (member : process ∈ procs) (last : Pointer) :
    (before.exiting layout.proc process (taskOf process) last (filesOf process)).live.card +
      (2 + (filesOf process).length) = before.live.card := by
  have scheduled := descriptors.scheduled
  have known : layout.IsNode procs process := .inr (.inr (.inr member))
  have live : (before.exiting layout.proc process (taskOf process) last (filesOf process)).live =
      ((before.live \ (filesOf process).toFinset).erase (taskOf process)).erase process := rfl
  have entries : (filesOf process).toFinset ⊆ before.live := by
    intro entry listed
    exact descriptors.owned process member entry (List.mem_toFinset.mp listed)
  have task : taskOf process ∈ before.live \ (filesOf process).toFinset := by
    refine Finset.mem_sdiff.mpr ⟨(scheduled.task process member).1, fun listed => ?_⟩
    exact descriptors.notTask process member _ (List.mem_toFinset.mp listed) process member rfl
  have node : process ∈ (before.live \ (filesOf process).toFinset).erase (taskOf process) := by
    refine Finset.mem_erase.mpr ⟨fun same => ?_, Finset.mem_sdiff.mpr
      ⟨scheduled.live process known, fun listed => ?_⟩⟩
    · exact (scheduled.task process member).2 (same ▸ known)
    · exact descriptors.notNode process member process (List.mem_toFinset.mp listed) known
  have counted := List.toFinset_card_of_nodup (descriptors.nodup member)
  have closed := Finset.card_sdiff_add_card_eq_card entries
  have freedTask := Finset.card_erase_add_one task
  have freedNode := Finset.card_erase_add_one node
  rw [live]
  omega

/-- **The balance of a step.** The blocks that are handed out change as those that the exits give
back, but for one block at each creation. -/
theorem Effect.balance (descriptors : Descriptors layout before procs taskOf filesOf)
    (effect : Effect layout before procs taskOf filesOf event after procs' taskOf' filesOf') :
    after.live.card + heldBlocks procs filesOf =
      before.live.card + heldBlocks procs' filesOf' + event.creations := by
  have scheduled := descriptors.scheduled
  have nodup : procs.Nodup := (List.nodup_append.mp scheduled.nodup).1
  cases effect with
  | @opening process node entry path fuel here found unmarked known fresh =>
    have member := scheduled.current process here
    have grown := @heldBlocks_update procs filesOf nodup process member (filesOf process ++ [entry])
    have live : (before.opening (taskOf process) (filesOf process) node entry).live =
        insert entry before.live := by
      simp [KernelState.opening, KernelState.withEntry]
    rw [live, Finset.card_insert_of_notMem fresh]
    simp only [List.length_append, List.length_singleton] at grown
    simp only [SystemEvent.creations]
    omega
  | @dropping process target node front back fd here split points =>
    have member := scheduled.current process here
    have shrunk := @heldBlocks_update procs filesOf nodup process member (front ++ back)
    have owned : target ∈ before.live :=
      descriptors.owned process member target (by simp [split])
    have live : (before.dropping (taskOf process) front target node).live =
        before.live.erase target := rfl
    rw [live]
    have fewer := Finset.card_erase_add_one owned
    rw [split] at shrunk
    simp only [List.length_append, List.length_cons] at shrunk
    simp only [SystemEvent.creations]
    omega
  | moving here resolved => rfl
  | @creating new data block initialState fresh =>
    have live : (before.creating layout.proc new data block initialState).live =
        insert block (insert data (insert new before.live)) := rfl
    rw [live, Finset.card_insert_of_notMem fresh.blockFree,
      Finset.card_insert_of_notMem fresh.dataFree, Finset.card_insert_of_notMem fresh.newFree]
    have absent : ∀ other ∈ procs, other ≠ new := fun other member =>
      (fresh.ne (scheduled.live other (.inr (.inr (.inr member))))).1
    have others : heldBlocks procs (Function.update filesOf new []) = heldBlocks procs filesOf :=
      heldBlocks_congr fun other member => by rw [Function.update_of_ne (absent other member)]
    have first : heldBlocks (new :: procs) (Function.update filesOf new []) =
        2 + heldBlocks procs (Function.update filesOf new []) := by
      simp [heldBlocks]
    rw [first, others]
    simp only [SystemEvent.creations]
    omega
  | @exiting process front rest here split unreferenced =>
    have member := scheduled.current process here
    have given := descriptors.card_exiting member front.getLast?
    have middle := heldBlocks_middle front rest process filesOf
    rw [← split] at middle
    simp only [SystemEvent.creations]
    omega
  | selecting next => rfl

end Balance

/-! ## Runs -/

/-- A step that deletes no node that is still in use. -/
def KeepingStep (before : KernelState width Registers) (event : SystemEvent width)
    (after : KernelState width Registers) : Prop :=
  before.Keeps event ∧ SystemStep before event after

/-- The kernel takes a step, and the allocator hands out and takes back what the step does. -/
structure MemoryStep (memoryStart : BitVec width)
    (before : KernelState width Registers × Heap width) (event : SystemEvent width)
    (after : KernelState width Registers × Heap width) : Prop where
  /-- The step of the kernel. -/
  kernel : KeepingStep before.1 event after.1
  /-- The calls of the allocator. -/
  calls : ∃ calls, Run (HeapStep memoryStart) before.2 calls after.2
  /-- They lead to the addresses that the kernel has. -/
  live : after.2.live = after.1.live

/-- A step of the kernel and the calls of the allocator that lead to its addresses. -/
theorem MemoryStep.of {memoryStart : BitVec width} {event : SystemEvent width}
    {before after : KernelState width Registers} {heap heapAfter : Heap width}
    (kernel : KeepingStep before event after)
    (calls : ∃ calls, Run (HeapStep memoryStart) heap calls heapAfter)
    (live : heapAfter.live = after.live) :
    MemoryStep memoryStart (before, heap) event (after, heapAfter) :=
  ⟨kernel, calls, live⟩

/-- The creations in a run. -/
def creations (events : List (SystemEvent width)) : Nat :=
  (events.map SystemEvent.creations).sum

/-- Nothing is created exactly when no event is a creation. -/
theorem creations_eq_zero (events : List (SystemEvent width)) :
    creations events = 0 ↔ ∀ process, .sched (.create process) ∉ events := by
  unfold creations
  rw [List.sum_eq_zero_iff]
  constructor
  · intro none process member
    have zero := none _ (List.mem_map_of_mem member)
    cases zero
  · intro absent number member
    obtain ⟨event, inside, rfl⟩ := List.mem_map.mp member
    match event with
    | .sched (.create process) => exact absurd inside (absent process)
    | .sched (.exit _) => rfl
    | .sched (.select _) => rfl
    | .openPath _ => rfl
    | .close _ => rfl
    | .chdir _ => rfl

/-- The same processes have as many files open. -/
structure KernelState.Settled (before after : KernelState width Registers) : Prop where
  /-- Every process that was created has exited, and no other one has. -/
  processes : ∀ process, after.IsProcess process ↔ before.IsProcess process
  /-- Each process that stays has as many files open. -/
  files : ∀ process old new, before.IsProcess process → before.HasFiles process old →
    after.HasFiles process new → new.length = old.length

section Runs

variable {layout : Layout} {initial start state : KernelState width Registers}
  {procs procs' : List Address} {taskOf taskOf' : Address → Address}
  {filesOf filesOf' : Address → List Address} {events : List (SystemEvent width)}

/-- Every run keeps the descriptor lists. -/
theorem keeping_run (descriptors : Descriptors layout start procs taskOf filesOf)
    (pointers : Pointers layout start procs) (run : Run KeepingStep start events state) :
    ∃ procs' taskOf' filesOf', Descriptors layout state procs' taskOf' filesOf' ∧
      Pointers layout state procs' := by
  induction run with
  | nil => exact ⟨procs, taskOf, filesOf, descriptors, pointers⟩
  | snoc _ move ih =>
    obtain ⟨_, _, _, descriptors, pointers⟩ := ih
    obtain ⟨procs', taskOf', filesOf', effect⟩ := move.2.effect descriptors pointers move.1
    exact ⟨procs', taskOf', filesOf', effect.descriptors descriptors,
      effect.pointers descriptors.scheduled pointers⟩

/-- Settled processes hold the same blocks. -/
theorem heldBlocks_settled (descriptors : Descriptors layout start procs taskOf filesOf)
    (descriptors' : Descriptors layout state procs' taskOf' filesOf')
    (settled : start.Settled state) : heldBlocks procs' filesOf' = heldBlocks procs filesOf := by
  have scheduled := descriptors.scheduled
  have scheduled' := descriptors'.scheduled
  have same : ∀ process, process ∈ procs' ↔ process ∈ procs := by
    intro process
    rw [← scheduled'.isProcess, ← scheduled.isProcess]
    exact settled.processes process
  have order : procs'.Perm procs :=
    (List.perm_ext_iff_of_nodup (List.nodup_append.mp scheduled'.nodup).1
      (List.nodup_append.mp scheduled.nodup).1).mpr same
  calc heldBlocks procs' filesOf' = heldBlocks procs filesOf' := (order.map _).sum_eq
    _ = heldBlocks procs filesOf := by
      apply heldBlocks_congr
      intro process member
      exact settled.files process _ _ (scheduled.isProcess.mpr member)
        ((descriptors.hasFiles member).mpr rfl)
        ((descriptors'.hasFiles ((same process).mpr member)).mpr rfl)

variable {memoryStart : BitVec width} {before after : KernelState width Registers × Heap width}
  {placed : List (Address × Nat)}

/-- The balance of a run. -/
theorem balance_run (descriptors : Descriptors layout before.1 procs taskOf filesOf)
    (pointers : Pointers layout before.1 procs) (backed : Backed memoryStart before.2 placed)
    (live : before.2.live = before.1.live)
    (run : Run (MemoryStep memoryStart) before events after) :
    ∃ procs' taskOf' filesOf' placed', Descriptors layout after.1 procs' taskOf' filesOf' ∧
      Pointers layout after.1 procs' ∧ Backed memoryStart after.2 placed' ∧
      after.2.live = after.1.live ∧
      after.1.live.card + heldBlocks procs filesOf =
        before.1.live.card + heldBlocks procs' filesOf' + creations events := by
  induction run with
  | nil => exact ⟨procs, taskOf, filesOf, placed, descriptors, pointers, backed, live, rfl⟩
  | @snoc _ _ events event _ move ih =>
    obtain ⟨_, _, _, _, middle, pointers, backed, _, balance⟩ := ih
    obtain ⟨procs', taskOf', filesOf', effect⟩ :=
      move.kernel.2.effect middle pointers move.kernel.1
    obtain ⟨_, called⟩ := move.calls
    obtain ⟨placed', kept⟩ := backed.run called
    refine ⟨procs', taskOf', filesOf', placed', effect.descriptors middle,
      effect.pointers middle.scheduled pointers, kept, move.live, ?_⟩
    have step := effect.balance middle
    have total : creations (events ++ [event]) = creations events + event.creations := by
      simp [creations]
    omega

end Runs

section Lifetime

variable {initial start : KernelState width Registers} {events : List (SystemEvent width)}
  {before after : KernelState width Registers} {heap heap' : Heap width}
  {placed : List (Address × Nat)} {memoryStart : BitVec width} {boot : Finset Address}
  {allocator : Allocator} {fuel : Nat} {zeroState : Registers} {past : List (SystemEvent width)}

/-- After a run in which the created processes exit again, with any files opened and closed,
`MStat` is smaller by the number of creations. -/
theorem lifetime_balance (booted : Boot boot initial)
    (parents : ∀ address ∈ boot, ∀ target, (initial.node address).parent = some target →
      target ∈ boot)
    (started : schedulerInitialise allocator fuel zeroState initial = .ok () start)
    (earlier : Run KeepingStep start past before) (backed : Backed memoryStart heap placed)
    (live : heap.live = before.live)
    (run : Run (MemoryStep memoryStart) (before, heap) events (after, heap'))
    (settled : before.Settled after) :
    Vmem.mStat heap'.pages + creations events = Vmem.mStat heap.pages := by
  obtain ⟨proc, self, first, data, block, procFresh, selfFresh, fresh, rfl⟩ :=
    schedulerInitialise_ok booted started
  obtain ⟨procs, taskOf, filesOf, descriptors, pointers⟩ :=
    keeping_run (.start booted procFresh selfFresh fresh)
      (.start booted parents procFresh selfFresh fresh) earlier
  obtain ⟨procs', taskOf', filesOf', placed', descriptors', _, backed', live', balance⟩ :=
    balance_run descriptors pointers backed live run
  have held := heldBlocks_settled descriptors descriptors' settled
  have free := backed.mStat
  have free' := backed'.mStat
  dsimp only at live' free' balance
  rw [live] at free
  rw [live'] at free'
  omega

/-- **Each creation costs a page for ever.** After a run in which the created processes exit
again, `MStat` is the same as before exactly when nothing was created. -/
theorem lifetime_iff (booted : Boot boot initial)
    (parents : ∀ address ∈ boot, ∀ target, (initial.node address).parent = some target →
      target ∈ boot)
    (started : schedulerInitialise allocator fuel zeroState initial = .ok () start)
    (earlier : Run KeepingStep start past before) (backed : Backed memoryStart heap placed)
    (live : heap.live = before.live)
    (run : Run (MemoryStep memoryStart) (before, heap) events (after, heap'))
    (settled : before.Settled after) :
    Vmem.mStat heap'.pages = Vmem.mStat heap.pages ↔
      ∀ process, .sched (.create process) ∉ events := by
  have lost := lifetime_balance booted parents started earlier backed live run settled
  rw [← creations_eq_zero]
  omega

end Lifetime

/-! ## A process that comes and goes -/

/-- The allocator hands out an address. -/
def Heap.take (heap : Heap 32) (address : Address) : Heap 32 :=
  ⟨insert address heap.live,
    Function.update heap.blockOf address
      ⟨((resultOf (Vmem.kalloc 0x300000 64) heap.pages).getD 0), 64⟩,
    stateAfter (Vmem.kalloc 0x300000 64) heap.pages⟩

/-- The allocator takes an address back. -/
def Heap.give (heap : Heap 32) (address : Address) : Heap 32 :=
  ⟨heap.live.erase address, heap.blockOf,
    stateAfter (Vmem.kfree 0x300000 (heap.blockOf address).pointer) heap.pages⟩

/-- The allocator at boot, and after it handed out one address after the other. -/
def sampleHeap : Nat → Heap 32
  | 0 => ⟨{rootVNode}, fun _ => ⟨0, 0⟩, (Vmem.allClear fun _ => 0).1⟩
  | count + 1 => (sampleHeap count).take (count + 1)

/-- The allocator after a creation and the exit. -/
def sampleLeft : Heap 32 := ((sampleHeap 8).give 7).give 6

/-- An address is handed out with the first free page. -/
theorem Heap.take_step {heap : Heap 32} {address page : Nat} (fresh : address ∉ heap.live)
    (first : Vmem.FirstFree heap.pages.pageBitmap page) (low : page < 1000)
    (exactly : (Vmem.pageAddress (0x300000 : BitVec 32) page).toNat = 0x300000 + page * 4096)
    (returns : (resultOf (Vmem.kalloc 0x300000 64) heap.pages).isSome) :
    HeapStep 0x300000 heap (.kalloc address) (heap.take address) := by
  obtain ⟨pointer, result⟩ := Option.isSome_iff_exists.mp returns
  have onePage : Vmem.Block.pages (⟨0, 64⟩ : Vmem.Block 32) = 1 := by decide
  have contiguous : Vmem.Contiguous (0x300000 : BitVec 32) (heap.pages, []) (.kalloc 64) := by
    refine .inr ⟨by decide, page, ?_⟩
    rw [onePage]
    refine ⟨⟨first, first.below, fun offset less => ?_⟩, fun offset less => ?_, ?_⟩
    · obtain rfl : offset = 0 := Nat.lt_one_iff.mp less
      exact first.free
    · obtain rfl : offset = 0 := Nat.lt_one_iff.mp less
      exact exactly
    · show 3145728 + (page + 1) * 4096 ≤ 2 ^ 32
      omega
  have shape : heap.take address = ⟨insert address heap.live,
      Function.update heap.blockOf address ⟨pointer, 64⟩,
      stateAfter (Vmem.kalloc 0x300000 64) heap.pages⟩ := by
    rw [Heap.take, result]
    rfl
  rw [shape]
  exact .kalloc fresh (by decide) onePage contiguous (ok_of_resultOf result)

/-- An address is taken back. -/
theorem Heap.give_step {heap : Heap 32} {address : Address} (owned : address ∈ heap.live)
    (notRoot : address ≠ rootVNode)
    (returns : resultOf (Vmem.kfree 0x300000 (heap.blockOf address).pointer) heap.pages = some ()) :
    HeapStep 0x300000 heap (.kfree address) (heap.give address) :=
  .kfree owned notRoot (ok_of_resultOf returns)

/-- The allocator hands out one address after the other. -/
theorem sampleHeap_step {count : Nat} (few : count < 8) :
    HeapStep 0x300000 (sampleHeap count) (.kalloc (count + 1)) (sampleHeap (count + 1)) := by
  have fresh : ∀ count < 8, count + 1 ∉ (sampleHeap count).live := by decide +kernel
  have free : ∀ count < 8, (sampleHeap count).pages.pageBitmap.test count = false := by
    decide +kernel
  have least : ∀ count < 8, ∀ earlier < count,
      (sampleHeap count).pages.pageBitmap.test earlier = true := by decide +kernel
  have exactly : ∀ count < 8, (Vmem.pageAddress (0x300000 : BitVec 32) (count : Nat)).toNat =
      0x300000 + count * 4096 := by decide +kernel
  have returns : ∀ count < 8,
      (resultOf (Vmem.kalloc 0x300000 64) (sampleHeap count).pages).isSome := by decide +kernel
  have inside : count < Vmem.totalBitmap := by
    unfold Vmem.totalBitmap
    omega
  exact Heap.take_step (fresh count few) ⟨inside, free count few, least count few⟩ (by omega)
    (exactly count few) (returns count few)

/-- The allocator hands out some addresses. -/
theorem sampleHeap_run (first : Nat) {count : Nat} (few : first + count ≤ 8) :
    ∃ calls, Run (HeapStep 0x300000) (sampleHeap first) calls (sampleHeap (first + count)) := by
  induction count with
  | zero => exact ⟨[], .nil _⟩
  | succ count ih =>
    obtain ⟨calls, run⟩ := ih (by omega)
    exact ⟨_, run.snoc (sampleHeap_step (by omega))⟩

/-- The allocator backs the state after the start. -/
theorem sampleHeap_backed : ∃ placed, Backed (0x300000 : BitVec 32) (sampleHeap 5) placed := by
  obtain ⟨_, run⟩ := sampleHeap_run 0 (show 0 + 5 ≤ 8 by decide)
  exact (Backed.boot _ _ _).run run

/-- The allocator takes the task and the node back. -/
theorem sampleLeft_run :
    Run (HeapStep 0x300000) (sampleHeap 8) [.kfree 7, .kfree 6] sampleLeft := by
  refine .snoc (.snoc (.nil _) (Heap.give_step ?_ ?_ ?_)) (Heap.give_step ?_ ?_ ?_) <;>
    decide +kernel

/-- The new process is selected. -/
def sampleRunning : KernelState 32 Unit := stateAfter (commitNextProcess 4) sampleSecond

/-- The new process exits. -/
def sampleEnded : KernelState 32 Unit := stateAfter (schedulerExit 8) sampleRunning

/-- The processes among known children of `/proc`. -/
theorem isProcess_iff {state : KernelState width Registers} {children : List Address}
    (listed : state.ProcChildren children) (process : Address) :
    state.IsProcess process ↔ process ∈ children ∧ state.selfProc ≠ some process := by
  unfold KernelState.IsProcess
  constructor
  · rintro ⟨⟨others, known, member⟩, notSelf⟩
    exact ⟨known.unique listed ▸ member, notSelf⟩
  · rintro ⟨member, notSelf⟩
    exact ⟨⟨children, listed, member⟩, notSelf⟩

/-- A process without a first entry has none. -/
theorem hasFiles_nil {state : KernelState width Registers} {process task : Address}
    (data : (state.node process).driverData = some task)
    (nothing : (state.task task).files.next = none) {entries : List Address}
    (files : state.HasFiles process entries) : entries = [] := by
  obtain ⟨found, points, listed⟩ := files
  obtain rfl := Option.some.inj (data.symm.trans points)
  exact Segment.unique listed nothing

/-- The first process is alone when the scheduler has started, and when the other one is gone. -/
theorem sample_alone (process : Address) :
    (sampleStart.IsProcess process ↔ process = 3) ∧
      (sampleEnded.IsProcess process ↔ process = 3) := by
  have before : sampleStart.ProcChildren [3, 2] :=
    ⟨1, by decide +kernel, by decide +kernel, by decide +kernel,
      (by decide +kernel : sampleStart.nextOf 2 = none)⟩
  have after : sampleEnded.ProcChildren [3, 2] :=
    ⟨1, by decide +kernel, by decide +kernel, by decide +kernel,
      (by decide +kernel : sampleEnded.nextOf 2 = none)⟩
  have selfBefore : sampleStart.selfProc = some 2 := by decide +kernel
  have selfAfter : sampleEnded.selfProc = some 2 := by decide +kernel
  rw [isProcess_iff before, isProcess_iff after, selfBefore, selfAfter]
  simp only [List.mem_cons, List.not_mem_nil, ne_eq, Option.some.injEq]
  grind

/-- The processes are settled in the end. -/
theorem sample_settled : sampleStart.Settled sampleEnded where
  processes process := (sample_alone process).2.trans (sample_alone process).1.symm
  files := by
    intro process old new isProcess before after
    obtain rfl := (sample_alone process).1.mp isProcess
    have data : (sampleStart.node 3).driverData = some 4 := by decide +kernel
    have data' : (sampleEnded.node 3).driverData = some 4 := by decide +kernel
    rw [hasFiles_nil data (by decide +kernel) before, hasFiles_nil data' (by decide +kernel) after]

/-- The exit of the other process deletes nothing that is in use. -/
theorem sample_keeps : sampleRunning.Keeps (.sched (.exit (some 6)) : SystemEvent 32) := by
  have children : sampleRunning.ProcChildren [6, 3, 2] :=
    ⟨1, by decide +kernel, by decide +kernel, by decide +kernel, by decide +kernel,
      (by decide +kernel : sampleRunning.nextOf 2 = none)⟩
  have self : sampleRunning.selfProc = some 2 := by decide +kernel
  have first : (sampleRunning.node 3).driverData = some 4 := by decide +kernel
  have second : (sampleRunning.node 6).driverData = some 7 := by decide +kernel
  constructor
  · rintro entry node ⟨entries, files, member⟩
    rw [hasFiles_nil second (by decide +kernel) files] at member
    cases member
  · rintro other entry isProcess notSix ⟨entries, files, member⟩
    obtain rfl : other = 3 := by
      rw [isProcess_iff children, self] at isProcess
      simp only [List.mem_cons, List.not_mem_nil, ne_eq, Option.some.injEq] at isProcess
      grind
    rw [hasFiles_nil first (by decide +kernel) files] at member
    cases member

/-- The first process creates another one, which is selected and exits. -/
theorem sample_lifetime : Run (MemoryStep 0x300000) (sampleStart, sampleHeap 5)
    [.sched (.create 6), .sched (.select (some 6)), .sched (.exit (some 6))]
    (sampleEnded, sampleLeft) := by
  have here : sampleRunning.currentProc = some 6 := by decide +kernel
  have selected : SchedStep sampleSecond (.select sampleRunning.currentProc) sampleRunning :=
    .select 4 (ok_of_resultOf (by decide +kernel))
  have ended : SchedStep sampleRunning (.exit sampleRunning.currentProc) sampleEnded :=
    .exit 8 (ok_of_resultOf (by decide +kernel))
  rw [here] at selected ended
  have one : MemoryStep 0x300000 (sampleStart, sampleHeap 5) (.sched (.create 6))
      (sampleSecond, sampleHeap 8) :=
    .of ⟨trivial, .sched (.create .next 4 () (ok_of_resultOf (by decide +kernel)))⟩
      (sampleHeap_run 5 (show 5 + 3 ≤ 8 by decide)) (by decide +kernel)
  have two : MemoryStep 0x300000 (sampleSecond, sampleHeap 8) (.sched (.select (some 6)))
      (sampleRunning, sampleHeap 8) :=
    .of ⟨trivial, .sched selected⟩ ⟨[], .nil _⟩ (by decide +kernel)
  have three : MemoryStep 0x300000 (sampleRunning, sampleHeap 8) (.sched (.exit (some 6)))
      (sampleEnded, sampleLeft) :=
    .of ⟨sample_keeps, .sched ended⟩ ⟨_, sampleLeft_run⟩ (by decide +kernel)
  exact .snoc (.snoc (.snoc (.nil _) one) two) three

/-- `MStat` is another one after the sample run, since a process was created in it. -/
theorem lifetime_iff_sample : Vmem.mStat sampleLeft.pages = Vmem.mStat (sampleHeap 5).pages ↔
    ∀ process, .sched (.create process) ∉ ([.sched (.create 6), .sched (.select (some 6)),
      .sched (.exit (some 6))] : List (SystemEvent 32)) := by
  obtain ⟨placed, backed⟩ := sampleHeap_backed
  have live : (sampleHeap 5).live = sampleStart.live := by decide +kernel
  exact lifetime_iff (Boot.bareRoot 32 ()) bareRoot_parents sample_started (.nil _) backed live
    sample_lifetime sample_settled

/-- One process is created and exits, and `MStat` is one page smaller. -/
theorem creation_leaks : ¬ ∀ (before after : KernelState 32 Unit × Heap 32)
    (events : List (SystemEvent 32)), before = (sampleStart, sampleHeap 5) →
    Run (MemoryStep 0x300000) before events after → before.1.Settled after.1 →
    Vmem.mStat after.2.pages = Vmem.mStat before.2.pages := by
  intro claim
  have balanced := claim _ _ _ rfl sample_lifetime
  dsimp only at balanced
  have same := balanced sample_settled
  obtain ⟨placed, backed⟩ := sampleHeap_backed
  have live : (sampleHeap 5).live = sampleStart.live := by decide +kernel
  have lost := lifetime_balance (Boot.bareRoot 32 ()) bareRoot_parents sample_started (.nil _)
    backed live sample_lifetime sample_settled
  have one : creations ([.sched (.create 6), .sched (.select (some 6)),
      .sched (.exit (some 6))] : List (SystemEvent 32)) = 1 := rfl
  omega

end Unarddeg
