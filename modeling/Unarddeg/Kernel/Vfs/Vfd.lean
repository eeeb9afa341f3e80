import Unarddeg.Kernel.Vfs.RelativeFind
import Unarddeg.Library.Linked

/-!
# File descriptors

`kernel/vfs/vfd.c`. The descriptors of a process are a linked list of entries behind the entry in
its task; a descriptor is the value of a counter that all processes share. `open` appends an
entry and marks the node, `close` removes an entry and clears the mark.

Loops over descriptor lists take a bound on the entries visited, as the sibling loops do.
-/

namespace Unarddeg

variable {width : Nat} {Registers : Type}

/-- Where an entry of a descriptor list lies. -/
inductive EntryPlace
  /-- `Files` of a task. -/
  | files (task : Address)
  /-- A block of its own. -/
  | block (address : Address)
  deriving DecidableEq, Repr

/-- The entry at a place. -/
def KernelState.entryAt (state : KernelState width Registers) :
    EntryPlace → FileDescriptor width
  | .files task => (state.task task).files
  | .block address => state.entry address

/-- The state with another task at an address. -/
def KernelState.setTask (state : KernelState width Registers) (address : Address)
    (task : Task width Registers) : KernelState width Registers :=
  { state with task := Function.update state.task address task }

/-- The state with another entry at an address. -/
def KernelState.setEntry (state : KernelState width Registers) (address : Address)
    (entry : FileDescriptor width) : KernelState width Registers :=
  { state with entry := Function.update state.entry address entry }

/-- The state with another entry at a place. -/
def KernelState.setEntryAt (state : KernelState width Registers) (place : EntryPlace)
    (entry : FileDescriptor width) : KernelState width Registers :=
  match place with
  | .files task => state.setTask task { state.task task with files := entry }
  | .block address => state.setEntry address entry

/-- The state with another `Next` in the entry at a place. -/
def KernelState.relinkAt (state : KernelState width Registers) (place : EntryPlace)
    (next : Pointer) : KernelState width Registers :=
  state.setEntryAt place { state.entryAt place with next := next }

/-- `(Task *)CurrentProc->DriverData`. -/
def currentTask : Kernel (KernelState width Registers) Address := do
  let state ← get
  let node ← readNode state.currentProc
  deref node.driverData

/-- The loop of `findb`. -/
def findbFrom (index : BitVec width) :
    (fuel : Nat) → EntryPlace → Kernel (KernelState width Registers) EntryPlace
  | 0, _ => throw .hang
  | fuel + 1, place => do
    let state ← get
    match (state.entryAt place).next with
    | none => panicWith .fdNotFound
    | some next =>
      if (state.entry next).fileIndex = index then pure place
      else findbFrom index fuel (.block next)

/-- `findb`: the entry before the one with an index. -/
def findb (fuel : Nat) (index : BitVec width) :
    Kernel (KernelState width Registers) EntryPlace := do
  let task ← currentTask
  findbFrom index fuel (.files task)

/-- The loop of `find`. -/
def findFrom (index : BitVec width) :
    (fuel : Nat) → EntryPlace → Kernel (KernelState width Registers) EntryPlace
  | 0, _ => throw .hang
  | fuel + 1, place => do
    let state ← get
    if (state.entryAt place).fileIndex = index then
      pure place
    else
      match (state.entryAt place).next with
      | none => panicWith .fdNotFound
      | some next => findFrom index fuel (.block next)

/-- `find`: the entry with an index. The search begins at the entry in the task itself. -/
def find (fuel : Nat) (index : BitVec width) : Kernel (KernelState width Registers) EntryPlace := do
  let task ← currentTask
  findFrom index fuel (.files task)

/-- The loop of `CreateEntry` to the last entry of a list. -/
def lastEntry : (fuel : Nat) → EntryPlace → Kernel (KernelState width Registers) EntryPlace
  | 0, _ => throw .hang
  | fuel + 1, place => do
    let state ← get
    match (state.entryAt place).next with
    | none => pure place
    | some next => lastEntry fuel (.block next)

/-- A node marked as opened. -/
def VNode.opened (node : VNode) : VNode := { node with flags := node.flags ||| vfsOpened }

/-- A node without the mark. -/
def VNode.closed (node : VNode) : VNode := { node with flags := node.flags &&& ~~~vfsOpened }

/-- `CreateEntry`. -/
def createEntry (allocator : Allocator) (fuel : Nat) (node : Address) :
    Kernel (KernelState width Registers) (BitVec width) := do
  writeNode (some node) VNode.opened
  let fileDesc ← kalloc allocator
  let state ← get
  set (state.setEntry fileDesc ⟨some node, none, state.current⟩)
  let task ← currentTask
  let place ← lastEntry fuel (.files task)
  let state ← get
  set (state.relinkAt place (some fileDesc))
  let state ← get
  set { state with current := state.current + 1 }
  pure state.current

/-- The path that `open` and `chdir` resolve: at most 256 bytes before the zero. -/
def boundedPath (path : List UInt8) : List UInt8 := path.take (strnlen path 256)

/-- `open` of a path that is not null. -/
def openPath (allocator : Allocator) (fuel : Nat) (path : List UInt8) :
    Kernel (KernelState width Registers) (BitVec width) := do
  let state ← get
  let found ← ofExcept (relativeFind state.node fuel (some rootVNode) (boundedPath path))
  panicIf (found = none) .nullPointerDereference
  let node ← deref found
  panicIf (hasFlag (state.node node).flags vfsOpened) .doubleOpen
  createEntry allocator fuel node

/-- `close`. -/
def close (fuel : Nat) (fd : BitVec width) : Kernel (KernelState width Registers) Unit := do
  let before ← findb fuel fd
  let state ← get
  let target ← deref (state.entryAt before).next
  set (state.relinkAt before (state.entry target).next)
  let state ← get
  let reference := (state.entry target).reference
  writeNode reference VNode.closed
  let node ← readNode reference
  onlyIf (hasFlag node.flags vfsDelete) do
    deleteVNode fuel reference
  kfree (some target)

/-- `lseek`. -/
def lseek (fuel : Nat) (fd : BitVec width) (offset whence : Int) :
    Kernel (KernelState width Registers) Int := do
  let file ← find fuel fd
  let state ← get
  vNodeSeek (state.entryAt file).reference offset whence
  let state ← get
  let node ← readNode (state.entryAt file).reference
  pure node.fileOffset

section ReadWrite

/-! The functions behind `ReadFunction` and `WriteFunction` are those of the node's driver: `call`
is the call of one of them on a node, with `Buf`, `Count` and `1`. -/

variable (call : RWFunction → Address → Kernel (KernelState width Registers) Int)

/-- `write`. -/
def write (fuel : Nat) (fd : BitVec width) (buf : Pointer) :
    Kernel (KernelState width Registers) Int := do
  panicIf (buf = none) .nullPointerDereference
  let file ← find fuel fd
  let state ← get
  let reference := (state.entryAt file).reference
  let node ← readNode reference
  let address ← deref reference
  call node.writeFunction address

/-- `read`. -/
def read (fuel : Nat) (fd : BitVec width) (buf : Pointer) :
    Kernel (KernelState width Registers) Int := do
  panicIf (buf = none) .nullPointerDereference
  let file ← find fuel fd
  let state ← get
  let reference := (state.entryAt file).reference
  let node ← readNode reference
  let address ← deref reference
  call node.readFunction address

end ReadWrite

/-- `chdir` to a path that is not null. -/
def chdir (fuel : Nat) (path : List UInt8) : Kernel (KernelState width Registers) Unit := do
  let task ← currentTask
  let state ← get
  let found ← ofExcept
    (relativeFind state.node fuel (state.task task).baseDir (boundedPath path))
  set (state.setTask task { state.task task with baseDir := found })

/-! ## What the operations return -/

open Library

/-- The entry behind an entry in a block. -/
def KernelState.entryNext (state : KernelState width Registers) (address : Address) : Pointer :=
  (state.entry address).next

/-- The entries of the descriptor list of a task. -/
def KernelState.FilesOf (state : KernelState width Registers) (task : Address)
    (entries : List Address) : Prop :=
  Segment state.entryNext (state.task task).files.next entries none

/-- The place of the last of the front entries of a list. -/
def lastPlace (task : Address) (front : List Address) : EntryPlace :=
  match front.getLast? with
  | none => .files task
  | some last => .block last

/-- Finding the current task changes nothing. -/
theorem currentTask_ok {before after : KernelState width Registers} {task : Address}
    (returned : currentTask before = .ok task after) :
    before = after ∧ ∃ current, before.currentProc = some current ∧
      (before.node current).driverData = some task := by
  simp only [currentTask, bind_ok, get_ok, readNode_ok, deref_ok] at returned
  obtain ⟨_, _, ⟨rfl, rfl⟩, _, _, ⟨current, here, rfl, rfl⟩, data, rfl⟩ := returned
  exact ⟨rfl, current, here, data⟩

/-- The current task is the one behind the node of the current process. -/
theorem currentTask_eq {state : KernelState width Registers} {current task : Address}
    (here : state.currentProc = some current)
    (data : (state.node current).driverData = some task) :
    currentTask state = .ok task state := by
  unfold currentTask
  simp only [bind_ok, get_ok, readNode_ok, deref_ok]
  exact ⟨state, state, ⟨rfl, rfl⟩, _, state, ⟨current, here, rfl, rfl⟩, data, rfl⟩

/-- The search for an entry stops at the place before the first one with the index. -/
theorem findbFrom_ok {index : BitVec width} {fuel : Nat} {place found : EntryPlace}
    {entries : List Address} {before after : KernelState width Registers}
    (segment : Segment before.entryNext (before.entryAt place).next entries none)
    (returned : findbFrom index fuel place before = .ok found after) :
    before = after ∧ ∃ front target back, entries = front ++ target :: back ∧
      (front.getLast?.map EntryPlace.block).getD place = found ∧
      (before.entryAt found).next = some target ∧ (before.entry target).fileIndex = index ∧
      ∀ earlier ∈ front, (before.entry earlier).fileIndex ≠ index := by
  induction fuel generalizing place entries with
  | zero => simp [findbFrom, throw_ok] at returned
  | succ fuel ih =>
    simp only [findbFrom, bind_ok, get_ok] at returned
    obtain ⟨_, _, ⟨rfl, rfl⟩, searched⟩ := returned
    cases entries with
    | nil =>
      have stop : (before.entryAt place).next = none := segment
      simp [stop] at searched
    | cons first rest =>
      obtain ⟨start, tail⟩ := segment
      simp only [start, ite_ok, pure_ok] at searched
      rcases searched with ⟨matched, rfl, rfl⟩ | ⟨other, later⟩
      · exact ⟨rfl, [], first, rest, rfl, rfl, start, matched, by simp⟩
      · obtain ⟨same, front, target, back, rfl, place, linked, matched, earlier⟩ :=
          @ih (.block first) rest tail later
        refine ⟨same, first :: front, target, back, rfl, ?_, linked, matched, ?_⟩
        · rw [← place, List.getLast?_cons]
          cases front.getLast? <;> rfl
        · exact List.forall_mem_cons.mpr ⟨other, earlier⟩

/-- The place of the last entry in other words. -/
theorem lastPlace_eq (task : Address) (front : List Address) :
    (front.getLast?.map EntryPlace.block).getD (.files task) = lastPlace task front := by
  unfold lastPlace
  cases front.getLast? <;> rfl

/-- One round of `findb`. -/
theorem findbFrom_succ (index : BitVec width) (fuel : Nat) (place : EntryPlace)
    (state : KernelState width Registers) :
    findbFrom index (fuel + 1) place state =
      match (state.entryAt place).next with
      | none => .error (.panic .fdNotFound) state
      | some next =>
        if (state.entry next).fileIndex = index then .ok place state
        else findbFrom index fuel (.block next) state := by
  rw [findbFrom, bind_of_ok (get_ok.mpr ⟨rfl, rfl⟩)]
  cases (state.entryAt place).next with
  | none => rfl
  | some next =>
    dsimp only
    split <;> rfl

/-- One round of `find`. -/
theorem findFrom_succ (index : BitVec width) (fuel : Nat) (place : EntryPlace)
    (state : KernelState width Registers) :
    findFrom index (fuel + 1) place state =
      if (state.entryAt place).fileIndex = index then .ok place state
      else match (state.entryAt place).next with
        | none => .error (.panic .fdNotFound) state
        | some next => findFrom index fuel (.block next) state := by
  rw [findFrom, bind_of_ok (get_ok.mpr ⟨rfl, rfl⟩)]
  split
  · rfl
  · cases (state.entryAt place).next <;> rfl

/-- `findb` finds no index that no entry has. -/
theorem findbFrom_missing {index : BitVec width} {fuel : Nat} {place : EntryPlace}
    {entries : List Address} {state : KernelState width Registers}
    (segment : Segment state.entryNext (state.entryAt place).next entries none)
    (missing : ∀ entry ∈ entries, (state.entry entry).fileIndex ≠ index)
    (enough : entries.length < fuel) :
    findbFrom index fuel place state = .error (.panic .fdNotFound) state := by
  induction entries generalizing place fuel with
  | nil =>
    obtain ⟨less, rfl⟩ : ∃ less, fuel = less + 1 := ⟨fuel - 1, by simp at enough; omega⟩
    have stop : (state.entryAt place).next = none := segment
    rw [findbFrom_succ, stop]
  | cons first rest ih =>
    simp only [List.length_cons] at enough
    obtain ⟨less, rfl⟩ : ∃ less, fuel = less + 1 := ⟨fuel - 1, by omega⟩
    obtain ⟨start, tail⟩ := segment
    rw [findbFrom_succ, start]
    dsimp only
    rw [if_neg (missing first List.mem_cons_self)]
    apply ih
    · exact tail
    · exact fun entry later => missing entry (List.mem_cons_of_mem _ later)
    · omega

/-- `find` finds no index that neither an entry nor the place where it begins has. -/
theorem findFrom_missing {index : BitVec width} {fuel : Nat} {place : EntryPlace}
    {entries : List Address} {state : KernelState width Registers}
    (segment : Segment state.entryNext (state.entryAt place).next entries none)
    (here : (state.entryAt place).fileIndex ≠ index)
    (missing : ∀ entry ∈ entries, (state.entry entry).fileIndex ≠ index)
    (enough : entries.length < fuel) :
    findFrom index fuel place state = .error (.panic .fdNotFound) state := by
  induction entries generalizing place fuel with
  | nil =>
    obtain ⟨less, rfl⟩ : ∃ less, fuel = less + 1 := ⟨fuel - 1, by simp at enough; omega⟩
    have stop : (state.entryAt place).next = none := segment
    rw [findFrom_succ, if_neg here, stop]
  | cons first rest ih =>
    simp only [List.length_cons] at enough
    obtain ⟨less, rfl⟩ : ∃ less, fuel = less + 1 := ⟨fuel - 1, by omega⟩
    obtain ⟨start, tail⟩ := segment
    rw [findFrom_succ, if_neg here, start]
    apply ih
    · exact tail
    · exact missing first List.mem_cons_self
    · exact fun entry later => missing entry (List.mem_cons_of_mem _ later)
    · omega

/-- `find` stops at the first entry with the index. -/
theorem findFrom_found {index : BitVec width} {fuel : Nat} {place : EntryPlace}
    {front back : List Address} {target : Address} {state : KernelState width Registers}
    (segment : Segment state.entryNext (state.entryAt place).next (front ++ target :: back) none)
    (here : (state.entryAt place).fileIndex ≠ index)
    (earlier : ∀ entry ∈ front, (state.entry entry).fileIndex ≠ index)
    (index_eq : (state.entry target).fileIndex = index)
    (enough : front.length + 1 < fuel) :
    findFrom index fuel place state = .ok (.block target) state := by
  induction front generalizing place fuel with
  | nil =>
    obtain ⟨less, rfl⟩ : ∃ less, fuel = less + 1 + 1 := ⟨fuel - 2, by simp at enough; omega⟩
    obtain ⟨start, _⟩ := segment
    rw [findFrom_succ, if_neg here, start]
    dsimp only
    rw [findFrom_succ]
    exact if_pos index_eq
  | cons first rest ih =>
    simp only [List.length_cons] at enough
    obtain ⟨less, rfl⟩ : ∃ less, fuel = less + 1 := ⟨fuel - 1, by omega⟩
    obtain ⟨start, tail⟩ := segment
    rw [findFrom_succ, if_neg here, start]
    apply ih
    · exact tail
    · exact earlier first List.mem_cons_self
    · exact fun entry later => earlier entry (List.mem_cons_of_mem _ later)
    · omega

/-- The search for the last entry stops at the last entry. -/
theorem lastEntry_ok {fuel : Nat} {place found : EntryPlace} {entries : List Address}
    {before after : KernelState width Registers}
    (segment : Segment before.entryNext (before.entryAt place).next entries none)
    (returned : lastEntry fuel place before = .ok found after) :
    before = after ∧ (entries.getLast?.map EntryPlace.block).getD place = found := by
  induction fuel generalizing place entries with
  | zero => simp [lastEntry, throw_ok] at returned
  | succ fuel ih =>
    simp only [lastEntry, bind_ok, get_ok] at returned
    obtain ⟨_, _, ⟨rfl, rfl⟩, searched⟩ := returned
    cases entries with
    | nil =>
      have stop : (before.entryAt place).next = none := segment
      simp only [stop, pure_ok] at searched
      exact ⟨searched.2, searched.1⟩
    | cons first rest =>
      obtain ⟨start, tail⟩ := segment
      simp only [start] at searched
      obtain ⟨rfl, place⟩ := @ih (.block first) rest tail searched
      refine ⟨rfl, ?_⟩
      rw [← place, List.getLast?_cons]
      cases rest.getLast? <;> rfl

section Relink

variable (state : KernelState width Registers) (place : EntryPlace) (next : Pointer)

/-- Another link in an entry keeps the nodes. -/
@[simp] theorem relinkAt_node : (state.relinkAt place next).node = state.node := by
  cases place <;> rfl

/-- Another link in an entry keeps the live addresses. -/
@[simp] theorem relinkAt_live : (state.relinkAt place next).live = state.live := by
  cases place <;> rfl

/-- Another link in an entry keeps the current process. -/
@[simp] theorem relinkAt_currentProc :
    (state.relinkAt place next).currentProc = state.currentProc := by
  cases place <;> rfl

/-- Another link in an entry keeps the pointer to `/proc`. -/
@[simp] theorem relinkAt_proc : (state.relinkAt place next).proc = state.proc := by
  cases place <;> rfl

/-- Another link in an entry keeps the pointer to `/proc/self`. -/
@[simp] theorem relinkAt_selfProc : (state.relinkAt place next).selfProc = state.selfProc := by
  cases place <;> rfl

/-- Another link in an entry keeps the counter. -/
@[simp] theorem relinkAt_current : (state.relinkAt place next).current = state.current := by
  cases place <;> rfl

/-- Another link changes no reference. -/
@[simp] theorem relinkAt_reference (address : Address) :
    ((state.relinkAt place next).entry address).reference = (state.entry address).reference := by
  cases place with
  | files task => rfl
  | block changed =>
    by_cases here : address = changed
    · subst here
      simp [KernelState.relinkAt, KernelState.setEntryAt, KernelState.setEntry,
        KernelState.entryAt]
    · simp [KernelState.relinkAt, KernelState.setEntryAt, KernelState.setEntry, here]

/-- Another link changes no index. -/
@[simp] theorem relinkAt_fileIndex (address : Address) :
    ((state.relinkAt place next).entry address).fileIndex = (state.entry address).fileIndex := by
  cases place with
  | files task => rfl
  | block changed =>
    by_cases here : address = changed
    · subst here
      simp [KernelState.relinkAt, KernelState.setEntryAt, KernelState.setEntry,
        KernelState.entryAt]
    · simp [KernelState.relinkAt, KernelState.setEntryAt, KernelState.setEntry, here]

/-- Another link changes the link only in the head of a list. -/
theorem relinkAt_head (address : Address) :
    ((state.relinkAt place next).task address).files.reference =
        (state.task address).files.reference ∧
      ((state.relinkAt place next).task address).files.fileIndex =
        (state.task address).files.fileIndex := by
  cases place with
  | files task =>
    by_cases here : address = task
    · subst here
      simp [KernelState.relinkAt, KernelState.setEntryAt, KernelState.setTask,
        KernelState.entryAt]
    · simp [KernelState.relinkAt, KernelState.setEntryAt, KernelState.setTask, here]
  | block changed => exact ⟨rfl, rfl⟩

/-- Another link changes no task but in the head of its list. -/
theorem relinkAt_field {α : Type} (field : Task width Registers → α)
    (files : ∀ task entry, field { task with files := entry } = field task) (address : Address) :
    field ((state.relinkAt place next).task address) = field (state.task address) := by
  cases place with
  | files task =>
    by_cases here : address = task
    · subst here
      simp [KernelState.relinkAt, KernelState.setEntryAt, KernelState.setTask, files]
    · simp [KernelState.relinkAt, KernelState.setEntryAt, KernelState.setTask, here]
  | block changed => rfl

/-- Another link changes no working directory. -/
@[simp] theorem relinkAt_baseDir (address : Address) :
    ((state.relinkAt place next).task address).baseDir = (state.task address).baseDir :=
  relinkAt_field state place next Task.baseDir (fun _ _ => rfl) address

/-- Another link changes no registers. -/
@[simp] theorem relinkAt_registers (address : Address) :
    ((state.relinkAt place next).task address).registers = (state.task address).registers :=
  relinkAt_field state place next Task.registers (fun _ _ => rfl) address

end Relink

/-- Another link after the front entries redirects the list there. -/
theorem relink_files {state : KernelState width Registers} {task : Address}
    {front : List Address} {middle : Pointer} (next : Pointer)
    (segment : Segment state.entryNext (state.task task).files.next front middle)
    (distinct : front.Nodup) :
    Segment (state.relinkAt (lastPlace task front) next).entryNext
      ((state.relinkAt (lastPlace task front) next).task task).files.next front next := by
  rcases List.eq_nil_or_concat front with rfl | ⟨before, last, rfl⟩
  · simp [lastPlace, KernelState.relinkAt, KernelState.setEntryAt, KernelState.setTask, Segment]
  · rw [List.concat_eq_append] at *
    have fresh : last ∉ before := fun member =>
      (List.nodup_append.mp distinct).2.2 last member last (List.mem_singleton_self _) rfl
    have place : lastPlace task (before ++ [last]) = .block last := by simp [lastPlace]
    have updated : (state.relinkAt (.block last) next).entryNext =
        Function.update state.entryNext last next := by
      funext address
      simp only [KernelState.entryNext, KernelState.relinkAt, KernelState.setEntryAt,
        KernelState.setEntry, KernelState.entryAt, Function.update_apply]
      split_ifs <;> rfl
    rw [place, updated]
    exact segment.relink fresh

/-- Another link after the front entries keeps every list without them. -/
theorem relink_other {state : KernelState width Registers} {task : Address}
    {front entries : List Address} {start stop : Pointer} (next : Pointer)
    (apart : ∀ entry ∈ entries, entry ∉ front)
    (segment : Segment state.entryNext start entries stop) :
    Segment (state.relinkAt (lastPlace task front) next).entryNext start entries stop := by
  refine segment.congr fun entry member => ?_
  unfold lastPlace
  cases last : front.getLast? with
  | none => rfl
  | some changed =>
    have other : entry ≠ changed := fun same =>
      apart entry member (same ▸ List.mem_of_getLast? last)
    simp [KernelState.entryNext, KernelState.relinkAt, KernelState.setEntryAt,
      KernelState.setEntry, other]

/-- Marks other than `VFS_OPENED` survive a close. -/
theorem hasFlag_closed {mask : VNodeFlags} (other : ~~~vfsOpened &&& mask = mask) (node : VNode) :
    hasFlag node.closed.flags mask = hasFlag node.flags mask := by
  simp only [hasFlag, VNode.closed, BitVec.and_assoc, other]

/-- Marks other than `VFS_OPENED` survive an open. -/
theorem hasFlag_opened {mask : VNodeFlags} (other : vfsOpened &&& mask = 0) (node : VNode) :
    hasFlag node.opened.flags mask = hasFlag node.flags mask := by
  have spread : (node.flags ||| vfsOpened) &&& mask = node.flags &&& mask := by
    rw [BitVec.and_comm, BitVec.and_or_distrib_left, BitVec.and_comm mask vfsOpened, other]
    simp [BitVec.and_comm]
  simp only [hasFlag, VNode.opened, spread]

/-- `close` removes the first entry with the descriptor, clears the mark of its node, and frees
the entry. A node that is deleted on close is left aside. -/
theorem close_ok {fuel : Nat} {fd : BitVec width} {before after : KernelState width Registers}
    {current task : Address} {entries : List Address} {result : Unit}
    (here : before.currentProc = some current)
    (data : (before.node current).driverData = some task) (files : before.FilesOf task entries)
    (returned : close fuel fd before = .ok result after) :
    ∃ front target back node, entries = front ++ target :: back ∧
      (before.entry target).fileIndex = fd ∧
      (∀ earlier ∈ front, (before.entry earlier).fileIndex ≠ fd) ∧
      (before.entry target).reference = some node ∧
      (hasFlag (before.node node).flags vfsDelete = false →
        after = { (before.relinkAt (lastPlace task front) (before.entry target).next).setNode node
          (before.node node).closed with live := before.live.erase target }) := by
  obtain ⟨place, _, looks, rest⟩ := bind_ok.mp returned
  obtain ⟨found, _, located, searched⟩ := bind_ok.mp looks
  obtain ⟨rfl, _, here', data'⟩ := currentTask_ok located
  obtain rfl := Option.some.inj (here.symm.trans here')
  obtain rfl := Option.some.inj (data.symm.trans data')
  have listed : Segment before.entryNext (before.entryAt (.files task)).next entries none := files
  obtain ⟨rfl, front, target', back, rfl, placed, linked, index, earlier⟩ :=
    findbFrom_ok listed searched
  rw [lastPlace_eq] at placed
  subst placed
  obtain ⟨_, _, reads, rest⟩ := bind_ok.mp rest
  obtain ⟨rfl, rfl⟩ := get_ok.mp reads
  obtain ⟨target, _, follows, rest⟩ := bind_ok.mp rest
  obtain ⟨next, rfl⟩ := deref_ok.mp follows
  obtain rfl := Option.some.inj (linked.symm.trans next)
  obtain ⟨_, _, links, rest⟩ := bind_ok.mp rest
  obtain rfl := set_ok.mp links
  obtain ⟨_, _, reads, rest⟩ := bind_ok.mp rest
  obtain ⟨rfl, rfl⟩ := get_ok.mp reads
  obtain ⟨_, _, marks, rest⟩ := bind_ok.mp rest
  obtain ⟨node, reference, rfl⟩ := writeNode_ok.mp marks
  obtain ⟨read, _, reads, rest⟩ := bind_ok.mp rest
  obtain ⟨_, again, reads, rfl⟩ := readNode_ok.mp reads
  obtain ⟨_, _, deletes, frees⟩ := bind_ok.mp rest
  have deletion := onlyIf_ok.mp deletes
  obtain ⟨_, same, rfl⟩ := kfree_ok.mp frees
  rw [relinkAt_reference] at reference again
  obtain rfl := Option.some.inj (reference.symm.trans again)
  refine ⟨front, target', back, node, rfl, index, earlier, reference, fun kept => ?_⟩
  rcases deletion with ⟨deleted, _⟩ | ⟨_, rfl⟩
  · rw [← reads] at deleted
    simp [hasFlag_closed (show ~~~vfsOpened &&& vfsDelete = vfsDelete by decide), kept] at deleted
  · cases same
    rw [relinkAt_node]
    simp only [KernelState.setNode, relinkAt_live]

/-- The state before `CreateEntry` links its new entry: the node is marked, the entry is there. -/
def KernelState.withEntry (state : KernelState width Registers) (node entry : Address) :
    KernelState width Registers :=
  { state with
    node := Function.update (Function.update state.node node (state.node node).opened) entry
      VNode.zero
    entry := Function.update state.entry entry ⟨some node, none, state.current⟩
    live := insert entry state.live }

/-- A new entry changes a node in its mark only. -/
theorem withEntry_node (state : KernelState width Registers) {node entry address : Address}
    (other : address ≠ entry) :
    (state.withEntry node entry).node address =
      if address = node then (state.node address).opened else state.node address := by
  simp only [KernelState.withEntry, Function.update_apply, if_neg other]
  split_ifs with here
  · rw [here]
  · rfl

/-- A new entry keeps every list without it. -/
theorem withEntry_segment {state : KernelState width Registers} {node entry : Address}
    {start stop : Pointer} {entries : List Address} (absent : entry ∉ entries)
    (segment : Segment state.entryNext start entries stop) :
    Segment (state.withEntry node entry).entryNext start entries stop := by
  refine segment.congr fun listed member => ?_
  have other : listed ≠ entry := fun same => absent (same ▸ member)
  simp [KernelState.entryNext, KernelState.withEntry, other]

/-- `CreateEntry` marks the node and makes the entry, and then finds the end of the list of the
current process. -/
theorem createEntry_located {allocator : Allocator} {fuel : Nat} {node : Address}
    {fd : BitVec width}
    {before after : KernelState width Registers}
    (returned : createEntry allocator fuel node before = .ok fd after) :
    ∃ entry task place middle, entry ∉ before.live ∧
      currentTask (before.withEntry node entry) = .ok task (before.withEntry node entry) ∧
      lastEntry fuel (.files task) (before.withEntry node entry) = .ok place middle ∧
      fd = middle.current ∧
      after = { middle.relinkAt place (some entry) with current := middle.current + 1 } := by
  obtain ⟨_, _, marks, rest⟩ := bind_ok.mp returned
  obtain ⟨_, same, rfl⟩ := writeNode_ok.mp marks
  cases same
  obtain ⟨entry, _, allocated, rest⟩ := bind_ok.mp rest
  obtain ⟨fresh, rfl⟩ := kalloc_ok allocated
  obtain ⟨_, _, reads, rest⟩ := bind_ok.mp rest
  obtain ⟨rfl, rfl⟩ := get_ok.mp reads
  obtain ⟨_, made, stores, rest⟩ := bind_ok.mp rest
  have written : before.withEntry node entry = made := by
    rw [← set_ok.mp stores]
    simp [KernelState.setEntry, KernelState.allocated, KernelState.setNode,
      KernelState.withEntry]
  rw [← written] at rest
  obtain ⟨task, _, located, rest⟩ := bind_ok.mp rest
  obtain ⟨rfl, _⟩ := currentTask_ok located
  obtain ⟨place, middle, searched, rest⟩ := bind_ok.mp rest
  obtain ⟨_, _, reads, rest⟩ := bind_ok.mp rest
  obtain ⟨rfl, rfl⟩ := get_ok.mp reads
  obtain ⟨_, _, links, rest⟩ := bind_ok.mp rest
  obtain rfl := set_ok.mp links
  obtain ⟨_, _, reads, rest⟩ := bind_ok.mp rest
  obtain ⟨rfl, rfl⟩ := get_ok.mp reads
  obtain ⟨_, _, counts, done⟩ := bind_ok.mp rest
  obtain rfl := set_ok.mp counts
  obtain ⟨rfl, rfl⟩ := pure_ok.mp done
  rw [relinkAt_current]
  exact ⟨entry, task, place, middle, fresh, located, searched, rfl, rfl⟩

/-- `CreateEntry` marks the node and appends a new entry for it to the current process. -/
theorem createEntry_ok {allocator : Allocator} {fuel : Nat} {node : Address} {fd : BitVec width}
    {before after : KernelState width Registers} {current task : Address} {entries : List Address}
    (here : before.currentProc = some current)
    (data : (before.node current).driverData = some task) (files : before.FilesOf task entries)
    (owned : ∀ entry ∈ entries, entry ∈ before.live) (currentLive : current ∈ before.live)
    (returned : createEntry allocator fuel node before = .ok fd after) :
    ∃ entry, entry ∉ before.live ∧ fd = before.current ∧
      after = { (before.withEntry node entry).relinkAt (lastPlace task entries) (some entry) with
        current := before.current + 1 } := by
  obtain ⟨entry, task', place, middle, fresh, located, searched, counted, ended⟩ :=
    createEntry_located returned
  obtain ⟨_, _, here', data'⟩ := currentTask_ok located
  obtain rfl := Option.some.inj (here.symm.trans here')
  have other : current ≠ entry := fun same => fresh (same ▸ currentLive)
  have kept : ((before.withEntry node entry).node current).driverData =
      (before.node current).driverData := by
    rw [withEntry_node _ other]
    split_ifs <;> rfl
  obtain rfl := Option.some.inj (data.symm.trans (kept.symm.trans data'))
  have listed : Segment (before.withEntry node entry).entryNext
      ((before.withEntry node entry).entryAt (.files task)).next entries none :=
    withEntry_segment (fun member => fresh (owned entry member)) files
  obtain ⟨rfl, placed⟩ := lastEntry_ok listed searched
  rw [lastPlace_eq] at placed
  subst placed
  exact ⟨entry, fresh, counted, ended⟩

/-- `open` marks the node that the path resolves to, which was not marked, and appends a new entry
for it. -/
theorem openPath_ok {allocator : Allocator} {fuel : Nat} {path : List UInt8} {fd : BitVec width}
    {before after : KernelState width Registers} {current task : Address} {entries : List Address}
    (here : before.currentProc = some current)
    (data : (before.node current).driverData = some task) (files : before.FilesOf task entries)
    (owned : ∀ entry ∈ entries, entry ∈ before.live) (currentLive : current ∈ before.live)
    (returned : openPath allocator fuel path before = .ok fd after) :
    ∃ node entry,
      relativeFind before.node fuel (some rootVNode) (boundedPath path) = .ok (some node) ∧
      hasFlag (before.node node).flags vfsOpened = false ∧ entry ∉ before.live ∧
      fd = before.current ∧
      after = { (before.withEntry node entry).relinkAt (lastPlace task entries) (some entry) with
        current := before.current + 1 } := by
  simp only [openPath, bind_ok, get_ok, deref_ok, ofExcept_ok, panicIf_ok] at returned
  obtain ⟨_, _, ⟨rfl, rfl⟩, _, _, ⟨found, rfl⟩, _, _, ⟨_, rfl⟩, node, _, ⟨rfl, rfl⟩, _, _,
    ⟨unmarked, rfl⟩, created⟩ := returned
  obtain ⟨entry, fresh, counted, rfl⟩ := createEntry_ok here data files owned currentLive created
  exact ⟨node, entry, found, by simpa using unmarked, fresh, counted, rfl⟩

/-- `chdir` replaces the working directory of the current process. -/
theorem chdir_ok {fuel : Nat} {path : List UInt8} {before after : KernelState width Registers}
    {current task : Address} {result : Unit} (here : before.currentProc = some current)
    (data : (before.node current).driverData = some task)
    (returned : chdir fuel path before = .ok result after) :
    ∃ found,
      relativeFind before.node fuel (before.task task).baseDir (boundedPath path) = .ok found ∧
      after = before.setTask task { before.task task with baseDir := found } := by
  simp only [chdir, bind_ok, get_ok, set_ok, ofExcept_ok] at returned
  obtain ⟨task', _, located, _, _, ⟨rfl, rfl⟩, found, _, ⟨resolved, rfl⟩, rfl⟩ := returned
  obtain ⟨rfl, _, here', data'⟩ := currentTask_ok located
  obtain rfl := Option.some.inj (here.symm.trans here')
  obtain rfl := Option.some.inj (data.symm.trans data')
  exact ⟨found, resolved, rfl⟩

/-- `open` returns only when there is a current process. -/
theorem openPath_current {allocator : Allocator} {fuel : Nat} {path : List UInt8}
    {fd : BitVec width} {before after : KernelState width Registers}
    (returned : openPath allocator fuel path before = .ok fd after) :
    ∃ current, before.currentProc = some current := by
  simp only [openPath, bind_ok, get_ok, deref_ok, ofExcept_ok, panicIf_ok] at returned
  obtain ⟨_, _, ⟨rfl, rfl⟩, _, _, ⟨_, rfl⟩, _, _, ⟨_, rfl⟩, _, _, ⟨_, rfl⟩, _, _, ⟨_, rfl⟩,
    created⟩ := returned
  obtain ⟨_, _, _, _, _, located, _⟩ := createEntry_located created
  obtain ⟨_, current, here, _⟩ := currentTask_ok located
  exact ⟨current, here⟩

/-- `close` returns only when there is a current process. -/
theorem close_current {fuel : Nat} {fd : BitVec width} {before after : KernelState width Registers}
    {result : Unit} (returned : close fuel fd before = .ok result after) :
    ∃ current, before.currentProc = some current := by
  simp only [close, findb, bind_ok] at returned
  obtain ⟨_, _, ⟨_, _, located, _⟩, _⟩ := returned
  obtain ⟨_, current, here, _⟩ := currentTask_ok located
  exact ⟨current, here⟩

/-- `chdir` returns only when there is a current process. -/
theorem chdir_current {fuel : Nat} {path : List UInt8} {before after : KernelState width Registers}
    {result : Unit} (returned : chdir fuel path before = .ok result after) :
    ∃ current, before.currentProc = some current := by
  simp only [chdir, bind_ok] at returned
  obtain ⟨_, _, located, _⟩ := returned
  obtain ⟨_, current, here, _⟩ := currentTask_ok located
  exact ⟨current, here⟩

end Unarddeg
