import Unarddeg.Kernel.Sched.Runs
import Unarddeg.Kernel.Vfs.Children

/-!
# The length of a path

`open` and `chdir` of `kernel/vfs/vfd.c` hand `strnlen(path, 256)` bytes of a path to
`RelativeFind` and do not look whether the path ends there. A path of at most 256 bytes is resolved
as a whole; for every greater length there is a path of which only the front part is resolved
(`whole_path_iff`).
-/

namespace Unarddeg

open Library

variable {width : Nat} {Registers : Type}

/-- The number of bytes of a path that `open` and `chdir` look at. -/
def pathLimit : Nat := 256

/-- `open` does not return, or the new descriptor refers to the node that the complete path
denotes. -/
def OpensWhole (path : List UInt8) (before : KernelState width Registers) : Prop :=
  ∀ (allocator : Allocator) (fuel : Nat) (fd : BitVec width) (after : KernelState width Registers),
    openPath allocator fuel path before = .ok fd after →
    ∃ node entry,
      relativeFind before.node fuel (some rootVNode) path = .ok (some node) ∧
      entry ∉ before.live ∧ (after.entry entry).reference = some node ∧
      (after.entry entry).fileIndex = fd

/-- `chdir` does not return, or the current process has the node that the complete path denotes as
its working directory. -/
def ChangesWhole (path : List UInt8) (before : KernelState width Registers) : Prop :=
  ∀ (fuel : Nat) (after : KernelState width Registers), chdir fuel path before = .ok () after →
    ∃ task, currentTask before = .ok task before ∧
      relativeFind before.node fuel (before.task task).baseDir path =
        .ok (after.task task).baseDir

/-! ## Paths within the bound -/

/-- `strnlen` of bytes without a zero. -/
theorem strnlen_eq {path : List UInt8} (plain : ∀ byte ∈ path, byte ≠ 0) (limit : Nat) :
    strnlen path limit = min path.length limit := by
  induction limit generalizing path with
  | zero => simp [strnlen]
  | succ limit ih =>
    cases path with
    | nil => rfl
    | cons byte rest =>
      have nonzero : byte ≠ 0 := plain byte List.mem_cons_self
      have later : ∀ byte ∈ rest, byte ≠ 0 := by
        intro other member
        exact plain other (List.mem_cons_of_mem _ member)
      unfold strnlen
      rw [List.headD_cons, if_neg nonzero, List.tail_cons, ih later, List.length_cons]
      omega

/-- The path that is resolved is the front part of the path. -/
theorem boundedPath_eq {path : List UInt8} (plain : ∀ byte ∈ path, byte ≠ 0) :
    boundedPath path = path.take pathLimit := by
  unfold boundedPath pathLimit
  rw [strnlen_eq plain]
  rcases Nat.le_total path.length 256 with short | long
  · rw [Nat.min_eq_left short, List.take_length, List.take_of_length_le short]
  · rw [Nat.min_eq_right long]

/-- A path within the bound is resolved as a whole. -/
theorem boundedPath_short {path : List UInt8} (plain : ∀ byte ∈ path, byte ≠ 0)
    (short : path.length ≤ pathLimit) : boundedPath path = path := by
  rw [boundedPath_eq plain, List.take_of_length_le short]

/-- The search for the last entry changes nothing. -/
theorem lastEntry_same {fuel : Nat} {place found : EntryPlace}
    {before after : KernelState width Registers}
    (returned : lastEntry fuel place before = .ok found after) : before = after := by
  induction fuel generalizing place with
  | zero => simp [lastEntry, throw_ok] at returned
  | succ fuel ih =>
    simp only [lastEntry, bind_ok, get_ok] at returned
    obtain ⟨_, _, ⟨rfl, rfl⟩, searched⟩ := returned
    cases next : (before.entryAt place).next with
    | none =>
      simp only [next, pure_ok] at searched
      exact searched.2
    | some entry =>
      simp only [next] at searched
      exact ih searched

/-- The descriptor that `CreateEntry` returns refers to its node. -/
theorem createEntry_refers {allocator : Allocator} {fuel : Nat} {node : Address} {fd : BitVec width}
    {before after : KernelState width Registers}
    (returned : createEntry allocator fuel node before = .ok fd after) :
    ∃ entry, entry ∉ before.live ∧ (after.entry entry).reference = some node ∧
      (after.entry entry).fileIndex = fd := by
  simp only [createEntry, bind_ok, get_ok, set_ok, writeNode_ok, pure_ok] at returned
  obtain ⟨_, _, ⟨_, _, rfl⟩, entry, _, allocated, _, _, ⟨rfl, rfl⟩, _, _, rfl,
    _, _, located, place, _, searched, _, _, ⟨rfl, rfl⟩, _, _, rfl, _, _,
    ⟨rfl, rfl⟩, _, _, rfl, rfl, rfl⟩ := returned
  obtain ⟨fresh, rfl⟩ := kalloc_ok allocated
  obtain ⟨rfl, _⟩ := currentTask_ok located
  obtain rfl := lastEntry_same searched
  refine ⟨entry, fresh, ?_, ?_⟩
  · simp [KernelState.setEntry]
  · simp [KernelState.setEntry]

/-- `open` of a path within the bound resolves the complete path. -/
theorem opensWhole_short {path : List UInt8} (plain : ∀ byte ∈ path, byte ≠ 0)
    (short : path.length ≤ pathLimit) (before : KernelState width Registers) :
    OpensWhole path before := by
  intro allocator fuel fd after returned
  simp only [openPath, bind_ok, get_ok, deref_ok, ofExcept_ok, panicIf_ok] at returned
  obtain ⟨_, _, ⟨rfl, rfl⟩, _, _, ⟨found, rfl⟩, _, _, ⟨_, rfl⟩, node, _, ⟨rfl, rfl⟩, _, _,
    ⟨_, rfl⟩, created⟩ := returned
  rw [boundedPath_short plain short] at found
  obtain ⟨entry, fresh, reference, index⟩ := createEntry_refers created
  exact ⟨node, entry, found, fresh, reference, index⟩

/-- `chdir` to a path within the bound resolves the complete path. -/
theorem changesWhole_short {path : List UInt8} (plain : ∀ byte ∈ path, byte ≠ 0)
    (short : path.length ≤ pathLimit) (before : KernelState width Registers) :
    ChangesWhole path before := by
  intro fuel after returned
  simp only [chdir, bind_ok, get_ok, set_ok, ofExcept_ok] at returned
  obtain ⟨task, middle, located, _, _, ⟨rfl, rfl⟩, found, _, ⟨resolved, rfl⟩, rfl⟩ := returned
  obtain ⟨rfl, _⟩ := currentTask_ok located
  refine ⟨task, located, ?_⟩
  rw [boundedPath_short plain short] at resolved
  rw [resolved]
  simp [KernelState.setTask]

/-! ## Longer paths -/

/-- The byte of the name that is cut off. -/
def cutByte : UInt8 := 'd'.toUInt8

/-- A path whose name begins behind the bound. -/
def cutPath (length : Nat) : List UInt8 :=
  List.replicate pathLimit slash ++ List.replicate (length - pathLimit) cutByte

/-- A kernel whose root has no child, with a process that has opened nothing. -/
def loneProcess (width : Nat) (registers : Registers) : KernelState width Registers :=
  { KernelState.zero width registers with
    node := fun address =>
      if address = 1 then { VNode.zero with driverData := some 2 } else VNode.zero
    task := fun _ => ⟨registers, 0, FileDescriptor.zero width, some rootVNode⟩
    live := {rootVNode, 1, 2}
    currentProc := some 1 }

/-- The root has no flags there. -/
theorem loneProcess_flags (registers : Registers) (mask : VNodeFlags) :
    hasFlag ((loneProcess width registers).node rootVNode).flags mask = false := by
  simp [loneProcess, rootVNode, VNode.zero, hasFlag]

/-- A path has no zero byte. -/
theorem cutPath_plain (length : Nat) : ∀ byte ∈ cutPath length, byte ≠ 0 := by
  intro byte member
  rcases List.mem_append.mp member with front | back
  · rw [List.eq_of_mem_replicate front]
    decide
  · rw [List.eq_of_mem_replicate back]
    decide

/-- The path has the length. -/
theorem cutPath_length {length : Nat} (long : pathLimit < length) :
    (cutPath length).length = length := by
  unfold cutPath
  rw [List.length_append, List.length_replicate, List.length_replicate]
  omega

/-- The name is cut off. -/
theorem boundedPath_cutPath (length : Nat) :
    boundedPath (cutPath length) = List.replicate pathLimit slash := by
  rw [boundedPath_eq (cutPath_plain length)]
  apply List.take_left'
  exact List.length_replicate

/-- Separators are skipped. -/
theorem walk_separators {nodes : Address → VNode} {fuel : Nat} (current : Address) (count : Nat)
    (rest : List UInt8) :
    walk nodes fuel (some current) (List.replicate count slash ++ rest) =
      walk nodes fuel (some current) rest := by
  induction count with
  | zero => rfl
  | succ count ih =>
    rw [List.replicate_succ, List.cons_append, walk_slash]
    exact ih

/-- The bytes that are cut off make a name that a path can hold. -/
theorem cutName_plain (count : Nat) :
    PlainName (component (List.replicate (count + 1) cutByte)) := by
  have bytes : ∀ byte ∈ component (List.replicate (count + 1) cutByte), byte = cutByte := by
    intro byte member
    apply List.eq_of_mem_replicate (n := count + 1)
    exact (List.takeWhile_sublist _).subset (List.mem_of_mem_take member)
  have positive : 0 < (component (List.replicate (count + 1) cutByte)).length := by
    apply component_length_pos
    decide
  constructor
  · exact ⟨positive, List.length_take_le ..⟩
  · intro byte member
    rw [bytes byte member]
    decide
  · intro word
    -- No word consists of this byte.
    have apart : ∀ word ∈ pathWords, cutByte ∉ word := by decide
    have first := List.getElem_mem positive
    have same := bytes _ first
    rw [same] at first
    exact apart _ word first

/-- The complete path denotes nothing under a root without children. -/
theorem cutPath_missed {nodes : Address → VNode} {length : Nat} (long : pathLimit < length)
    (fuel : Nat) (childless : (nodes rootVNode).firstChild = none)
    (loaded : hasFlag (nodes rootVNode).flags vfsOnDisk = false) (found : Pointer) :
    relativeFind nodes fuel (some rootVNode) (cutPath length) ≠ .ok found := by
  obtain ⟨count, same⟩ : ∃ count, length - pathLimit = count + 1 :=
    ⟨length - pathLimit - 1, by omega⟩
  have start : walkStart rootVNode (cutPath length) = rootVNode := by
    unfold walkStart
    split <;> rfl
  have other : cutByte ≠ slash := by decide
  have step : stepComponent nodes fuel rootVNode _ = _ :=
    (cutName_plain count).stepComponent_eq loaded
  rw [childless] at step
  rw [relativeFind_eq, start]
  unfold cutPath
  rw [walk_separators, same]
  rw [List.replicate_succ] at step ⊢
  rw [walk_component _ _ other, step]
  cases fuel with
  | zero => simp [findChild, Except.bind]
  | succ fuel => simp [findChild, Except.bind, orNotFound]

/-- `CreateEntry` returns for a process that has opened nothing. -/
theorem createEntry_returns {allocator : Allocator} {fuel : Nat} {node entry current task : Address}
    {before : KernelState width Registers} (here : before.currentProc = some current)
    (data : (before.node current).driverData = some task)
    (unopened : (before.task task).files.next = none)
    (picked : allocator.pick before.live = some entry) (other : current ≠ entry) :
    ∃ after, createEntry allocator (fuel + 1) node before = .ok before.current after := by
  let marked := before.setNode node (before.node node).opened
  let made := (marked.allocated entry).setEntry entry ⟨some node, none, before.current⟩
  have written : writeNode (some node) VNode.opened before = .ok () marked := rfl
  have allocated : kalloc allocator marked = .ok entry (marked.allocated entry) := by
    have chosen : allocator.pick marked.live = some entry := picked
    unfold kalloc
    rw [bind_of_ok (get_ok.mpr ⟨rfl, rfl⟩), chosen]
    rfl
  have kept : (made.node current).driverData = some task := by
    change (Function.update (Function.update before.node node (before.node node).opened) entry
      VNode.zero current).driverData = some task
    rw [Function.update_of_ne other, Function.update_apply]
    split
    · rename_i same
      rw [← same]
      exact data
    · exact data
  have located : currentTask made = .ok task made := by
    simp only [currentTask, bind_ok, get_ok, readNode_ok, deref_ok]
    exact ⟨_, _, ⟨rfl, rfl⟩, _, _, ⟨current, here, rfl, rfl⟩, kept, rfl⟩
  have searched : lastEntry (fuel + 1) (.files task) made = .ok (.files task) made := by
    have stop : (made.entryAt (.files task)).next = none := unopened
    simp [lastEntry, bind_ok, get_ok, stop, pure_ok]
  unfold createEntry
  rw [bind_of_ok written, bind_of_ok allocated]
  change ∃ after, (currentTask >>= _) made = .ok before.current after
  rw [bind_of_ok located, bind_of_ok searched]
  exact ⟨_, rfl⟩

/-- The path begins at the root, wherever it is resolved. -/
theorem relativeFind_fromRoot {nodes : Address → VNode} {fuel length : Nat} {base found : Pointer}
    (resolved : relativeFind nodes fuel base (cutPath length) = .ok found) :
    relativeFind nodes fuel (some rootVNode) (cutPath length) = .ok found := by
  cases base with
  | none => cases resolved
  | some base =>
    have start : ∀ base, walkStart base (cutPath length) = rootVNode := fun _ => if_pos rfl
    rw [relativeFind_eq, start] at resolved ⊢
    exact resolved

/-- Separators alone are resolved to the root. -/
theorem bounded_cutPath_found {nodes : Address → VNode} (fuel length : Nat)
    (plain : hasFlag (nodes rootVNode).flags vfsLink = false) :
    relativeFind nodes fuel (some rootVNode) (boundedPath (cutPath length)) =
      .ok (some rootVNode) := by
  have walked : walk nodes fuel _ _ = walk nodes fuel _ _ :=
    walk_separators rootVNode pathLimit []
  have start : ∀ path, walkStart rootVNode path = rootVNode := by
    intro path
    unfold walkStart
    split <;> rfl
  rw [List.append_nil, walk_nil] at walked
  rw [boundedPath_cutPath, relativeFind_eq, start, walked]
  simp [Except.bind, followLink, plain]

/-- `open` opens the root instead of a node with a longer path, which need not exist. -/
theorem not_opensWhole {length : Nat} (long : pathLimit < length) (registers : Registers) :
    ¬ OpensWhole (cutPath length) (loneProcess width registers) := by
  intro whole
  have opened : ∃ after, openPath .next 4 (cutPath length) (loneProcess width registers) =
      .ok 0 after := by
    have process : (loneProcess width registers).currentProc = some 1 := rfl
    have picked : Allocator.next.pick (loneProcess width registers).live = some 3 := rfl
    obtain ⟨after, created⟩ := @createEntry_returns _ _ _ 3 rootVNode _ _ _ _ process rfl rfl
      picked (by decide)
    refine ⟨after, bind_ok.mpr ⟨_, _, rfl, bind_ok.mpr ⟨some rootVNode, _, ofExcept_ok.mpr
      ⟨bounded_cutPath_found 4 length
        (loneProcess_flags registers _), rfl⟩, bind_ok.mpr ⟨(), _, panicIf_ok.mpr ⟨by simp, rfl⟩,
      bind_ok.mpr ⟨rootVNode, _, rfl, bind_ok.mpr ⟨(), _, panicIf_ok.mpr ⟨?_, rfl⟩,
      created⟩⟩⟩⟩⟩⟩
    rw [loneProcess_flags]
    exact Bool.false_ne_true
  obtain ⟨after, returned⟩ := opened
  obtain ⟨node, _, found, _⟩ := whole .next 4 _ after returned
  exact cutPath_missed long 4 rfl (loneProcess_flags registers _) (some node) found

/-- `chdir` changes to the root instead of a node with a longer path. -/
theorem not_changesWhole {length : Nat} (long : pathLimit < length) (registers : Registers) :
    ¬ ChangesWhole (cutPath length) (loneProcess width registers) := by
  intro whole
  have changed : ∃ after, chdir 4 (cutPath length) (loneProcess width registers) =
      .ok () after := by
    refine ⟨_, bind_ok.mpr ⟨2, _, rfl, bind_ok.mpr ⟨_, _, rfl, bind_ok.mpr ⟨some rootVNode, _,
      ofExcept_ok.mpr ⟨bounded_cutPath_found 4 length
        (loneProcess_flags registers _), rfl⟩, rfl⟩⟩⟩⟩
  obtain ⟨after, returned⟩ := changed
  obtain ⟨task, _, found⟩ := whole 4 after returned
  exact cutPath_missed long 4 rfl (loneProcess_flags registers _) _ found

/-- **Long paths.** `open` and `chdir` resolve every path of a length as a whole, in every state of
the kernel, exactly when the length is at most 256 bytes. -/
theorem whole_path_iff (registers : Registers) (length : Nat) :
    ((∀ (path : List UInt8) (before : KernelState width Registers), path.length = length →
        (∀ byte ∈ path, byte ≠ 0) → OpensWhole path before) ↔ length ≤ pathLimit) ∧
    ((∀ (path : List UInt8) (before : KernelState width Registers), path.length = length →
        (∀ byte ∈ path, byte ≠ 0) → ChangesWhole path before) ↔ length ≤ pathLimit) := by
  constructor
  · constructor
    · intro whole
      by_contra long
      have cut := whole (cutPath length) (loneProcess width registers)
        (cutPath_length (by omega)) (cutPath_plain length)
      exact not_opensWhole (by omega) registers cut
    · intro short path before same plain
      exact opensWhole_short plain (by omega) before
  · constructor
    · intro whole
      by_contra long
      have cut := whole (cutPath length) (loneProcess width registers)
        (cutPath_length (by omega)) (cutPath_plain length)
      exact not_changesWhole (by omega) registers cut
    · intro short path before same plain
      exact changesWhole_short plain (by omega) before

/-- After `SchedulerInitialise`, a path of 257 bytes that ends in a name opens the root, and the
root becomes the working directory. -/
theorem long_path_cut :
    ¬ OpensWhole (cutPath 257) sampleStart ∧ ¬ ChangesWhole (cutPath 257) sampleStart := by
  have missed : ∀ found, relativeFind sampleStart.node 4 (some rootVNode) (cutPath 257) ≠
      .ok found := by
    have stopped : relativeFind sampleStart.node 4 (some rootVNode) (cutPath 257) =
        .error (.panic .notFound) := by
      decide +kernel
    intro found same
    rw [stopped] at same
    cases same
  constructor
  · intro whole
    have opened : openPath .next 4 (cutPath 257) sampleStart =
        .ok 0 (stateAfter (openPath .next 4 (cutPath 257)) sampleStart) :=
      ok_of_resultOf (by decide +kernel)
    obtain ⟨node, _, found, _⟩ := whole _ _ _ _ opened
    exact missed _ found
  · intro whole
    have changed : chdir 4 (cutPath 257) sampleStart =
        .ok () (stateAfter (chdir 4 (cutPath 257)) sampleStart) :=
      ok_of_resultOf (by decide +kernel)
    obtain ⟨task, _, found⟩ := whole _ _ changed
    exact missed _ (relativeFind_fromRoot found)

end Unarddeg
