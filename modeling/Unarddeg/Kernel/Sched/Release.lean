import Unarddeg.Kernel.Sched.Tables
import Unarddeg.Kernel.Vfs.Deletion

/-!
# What an exit frees

`SchedulerExit` and the functions that it calls, with notes of the nodes, tasks and entries that
they touch and free. An exit frees the task and the node of its process once and touches neither
behind its end. The loop over the descriptors takes the next entry from one that `close` has freed,
so an exit is safe exactly as long as the process has no open descriptor (`exitsSafely_iff`).
-/

namespace Unarddeg

open Library

variable {width : Nat} {Registers : Type}

/-- The block in which an entry lies. -/
def EntryPlace.cell : EntryPlace → Address
  | .files task => task
  | .block address => address

/-! ## With notes -/

namespace Noted

/-- The block behind a pointer is touched once more. -/
def touch : Pointer → Kernel width Registers PUnit
  | none => pure ()
  | some address => note (.touch address)

/-- `writeNode`, which touches the node. -/
def writeNode (pointer : Pointer) (assign : VNode → VNode) : Kernel width Registers Unit := do
  let address ← quietly (deref pointer)
  note (.touch address)
  quietly (Unarddeg.writeNode (some address) assign)

/-- `UnregisterVNode`. -/
def unregisterVNode (pointer : Pointer) : Kernel width Registers Unit := do
  quietly (panicIf (pointer = none) .nullPointerDereference)
  let node ← readNode pointer
  onlyIf (node.previous ≠ none) do
    writeNode node.previous fun previous => { previous with next := node.next }
  let node ← readNode pointer
  onlyIf (node.next ≠ none) do
    writeNode node.next fun next => { next with previous := node.previous }
  let node ← readNode pointer
  onlyIf (node.parent ≠ none) do
    let parentNode ← readNode node.parent
    onlyIf (parentNode.firstChild = pointer) do
      writeNode node.parent fun parent => { parent with firstChild := node.next }
  writeNode pointer fun node => { node with next := none, previous := none, parent := none }

/-- `(Task *)CurrentProc->DriverData`, which touches the node of the process. -/
def currentTask : Kernel width Registers Address := do
  let state ← quietly get
  let node ← readNode state.currentProc
  quietly (deref node.driverData)

/-- The loop of `findb`. -/
def findbFrom (index : BitVec width) :
    (fuel : Nat) → EntryPlace → Kernel width Registers EntryPlace
  | 0, _ => throw .hang
  | fuel + 1, place => do
    let state ← quietly get
    note (.touch place.cell)
    match (state.entryAt place).next with
    | none => quietly (panicWith .fdNotFound)
    | some next =>
      note (.touch next)
      if (state.entry next).fileIndex = index then pure place
      else findbFrom index fuel (.block next)

/-- `findb`. -/
def findb (fuel : Nat) (index : BitVec width) : Kernel width Registers EntryPlace := do
  let task ← currentTask
  findbFrom index fuel (.files task)

/-- `close`. -/
def close (fuel : Nat) (fd : BitVec width) : Kernel width Registers Unit := do
  let before ← findb fuel fd
  let state ← quietly get
  note (.touch before.cell)
  let target ← quietly (deref (state.entryAt before).next)
  note (.touch target)
  note (.touch before.cell)
  quietly (set (state.relinkAt before (state.entry target).next))
  let state ← quietly get
  let reference := (state.entry target).reference
  note (.touch target)
  writeNode reference VNode.closed
  note (.touch target)
  let node ← readNode reference
  onlyIf (hasFlag node.flags vfsDelete) do
    note (.touch target)
    deleteVNode fuel reference
  kfree (some target)

/-- The search of `SchedulerExit` for the process before the current one. -/
def previousProc : (fuel : Nat) → Pointer → Kernel width Registers Pointer
  | 0, _ => throw .hang
  | _ + 1, none => pure none
  | fuel + 1, some prev => do
    let state ← quietly get
    note (.touch prev)
    if (state.node prev).next = state.currentProc then pure (some prev)
    else previousProc fuel (state.node prev).next

/-- The first part of `SchedulerExit`. -/
def cutCurrentProc (fuel : Nat) : Kernel width Registers Unit := do
  let state ← quietly get
  let proc ← readNode state.proc
  if proc.firstChild = state.currentProc then
    let current ← readNode state.currentProc
    writeNode state.proc fun proc => { proc with firstChild := current.next }
  else
    let prev ← previousProc fuel proc.firstChild
    onlyIf (prev ≠ none) do
      let current ← readNode state.currentProc
      writeNode prev fun prev => { prev with next := current.next }

/-- The loop of `SchedulerExit` over the descriptors. -/
def closeAll : (fuel : Nat) → Pointer → Kernel width Registers Unit
  | 0, _ => throw .hang
  | _ + 1, none => pure ()
  | fuel + 1, some desc => do
    let state ← quietly get
    note (.touch desc)
    close fuel (state.entry desc).fileIndex
    let state ← quietly get
    note (.touch desc)
    closeAll fuel (state.entry desc).next

/-- The last part of `SchedulerExit`: the task and the node of the process are freed. -/
def release (fuel : Nat) (task : Address) (current : Pointer) : Kernel width Registers Unit := do
  touch current
  kfree (some task)
  unregisterVNode current
  deleteVNode fuel current
  let state ← quietly get
  quietly (set { state with currentProc := none })

/-- `SchedulerExit`. -/
def schedulerExit (fuel : Nat) : Kernel width Registers Unit := do
  cutCurrentProc fuel
  let task ← currentTask
  let state ← quietly get
  note (.touch task)
  closeAll fuel (state.task task).files.next
  release fuel task state.currentProc

/-! ## With and without the notes -/

section Tracking

variable {allowed : HeapEvent Address → Prop} {action : Kernel width Registers Unit}
  {plain : Unarddeg.Kernel (KernelState width Registers) Unit}

/-- A conditional action. -/
theorem onlyIf_tracks {test : Prop} [Decidable test] (tracks : Tracks allowed action plain) :
    Tracks allowed (onlyIf test action) (onlyIf test plain) := by
  unfold onlyIf
  exact .ite tracks (.pure _)

/-- Touching a block once more changes nothing. -/
theorem touch_tracks (pointer : Pointer) (rest : Tracks (fun _ => True) action plain) :
    Tracks (fun _ => True) (touch pointer >>= fun _ => action) plain := by
  have touched : Tracks (fun _ => True) (touch pointer : Kernel width Registers PUnit)
      (pure ⟨⟩) := by
    cases pointer with
    | none => exact .pure _
    | some address => exact .note trivial
  exact touched.bind fun _ => rest

/-- Writing with notes is writing. -/
theorem writeNode_tracks (pointer : Pointer) (assign : VNode → VNode) :
    Tracks HeapEvent.IsTouch (writeNode pointer assign : Kernel width Registers Unit)
      (Unarddeg.writeNode pointer assign) := by
  apply Tracks.bind (.quietly _)
  intro address
  apply Tracks.behind trivial
  exact .quietly _

/-- Unregistering with notes is unregistering. -/
theorem unregisterVNode_tracks (pointer : Pointer) :
    Tracks HeapEvent.IsTouch (unregisterVNode pointer : Kernel width Registers Unit)
      (Unarddeg.unregisterVNode pointer) := by
  apply Tracks.bind (.quietly _)
  intro _
  apply Tracks.bind (readNode_tracks pointer)
  intro first
  apply Tracks.bind (onlyIf_tracks (writeNode_tracks _ _))
  intro _
  apply Tracks.bind (readNode_tracks pointer)
  intro second
  apply Tracks.bind (onlyIf_tracks (writeNode_tracks _ _))
  intro _
  apply Tracks.bind (readNode_tracks pointer)
  intro third
  apply Tracks.bind
  · apply onlyIf_tracks
    apply Tracks.bind (readNode_tracks _)
    intro parent
    exact onlyIf_tracks (writeNode_tracks _ _)
  · intro _
    exact writeNode_tracks _ _

/-- Finding the task with notes is finding it. -/
theorem currentTask_tracks :
    Tracks HeapEvent.IsTouch (currentTask : Kernel width Registers Address)
      Unarddeg.currentTask := by
  apply Tracks.bind (.quietly _)
  intro state
  apply Tracks.bind (readNode_tracks _)
  intro node
  exact .quietly _

/-- The search for an entry with notes is the search. -/
theorem findbFrom_tracks (index : BitVec width) (fuel : Nat) (place : EntryPlace) :
    Tracks HeapEvent.IsTouch (findbFrom index fuel place : Kernel width Registers EntryPlace)
      (Unarddeg.findbFrom index fuel place) := by
  induction fuel generalizing place with
  | zero => exact .throw _
  | succ fuel ih =>
    apply Tracks.bind (.quietly _)
    intro state
    apply Tracks.behind trivial
    cases (state.entryAt place).next with
    | none => exact .quietly _
    | some next => exact .behind trivial (.ite (.pure _) (ih _))

/-- Searching with notes is searching. -/
theorem findb_tracks (fuel : Nat) (index : BitVec width) :
    Tracks HeapEvent.IsTouch (findb fuel index : Kernel width Registers EntryPlace)
      (Unarddeg.findb fuel index) := by
  apply Tracks.bind currentTask_tracks
  intro task
  exact findbFrom_tracks index fuel _

/-- Closing with notes is closing. -/
theorem close_tracks (fuel : Nat) (fd : BitVec width) :
    Tracks (fun _ => True) (close fuel fd : Kernel width Registers Unit)
      (Unarddeg.close fuel fd) := by
  apply Tracks.bind (findb_tracks fuel fd).any
  intro place
  apply Tracks.bind (.quietly _)
  intro state
  apply Tracks.behind trivial
  apply Tracks.bind (.quietly _)
  intro target
  apply Tracks.behind trivial
  apply Tracks.behind trivial
  apply Tracks.bind (.quietly _)
  intro _
  apply Tracks.bind (.quietly _)
  intro linked
  apply Tracks.behind trivial
  apply Tracks.bind (writeNode_tracks _ _).any
  intro _
  apply Tracks.behind trivial
  apply Tracks.bind (readNode_tracks _).any
  intro node
  apply Tracks.bind (onlyIf_tracks (.behind trivial (deleteVNode_tracks fuel _)))
  intro _
  exact kfree_tracks _

/-- The search for the process before with notes is the search. -/
theorem previousProc_tracks (fuel : Nat) (start : Pointer) :
    Tracks HeapEvent.IsTouch (previousProc fuel start : Kernel width Registers Pointer)
      (Unarddeg.previousProc fuel start) := by
  induction fuel generalizing start with
  | zero => exact .throw _
  | succ fuel ih =>
    cases start with
    | none => exact .pure _
    | some prev =>
      apply Tracks.bind (.quietly _)
      intro state
      exact .behind trivial (.ite (.pure _) (ih _))

/-- Cutting with notes is cutting. -/
theorem cutCurrentProc_tracks (fuel : Nat) :
    Tracks HeapEvent.IsTouch (cutCurrentProc fuel : Kernel width Registers Unit)
      (Unarddeg.cutCurrentProc fuel) := by
  apply Tracks.bind (.quietly _)
  intro state
  apply Tracks.bind (readNode_tracks _)
  intro proc
  apply Tracks.ite
  · apply Tracks.bind (readNode_tracks _)
    intro current
    exact writeNode_tracks _ _
  · apply Tracks.bind (previousProc_tracks fuel _)
    intro prev
    apply onlyIf_tracks
    apply Tracks.bind (readNode_tracks _)
    intro current
    exact writeNode_tracks _ _

/-- Closing all descriptors with notes is closing them. -/
theorem closeAll_tracks (fuel : Nat) (start : Pointer) :
    Tracks (fun _ => True) (closeAll fuel start : Kernel width Registers Unit)
      (Unarddeg.closeAll fuel start) := by
  induction fuel generalizing start with
  | zero => exact .throw _
  | succ fuel ih =>
    cases start with
    | none => exact .pure _
    | some desc =>
      apply Tracks.bind (.quietly _)
      intro state
      apply Tracks.behind trivial
      apply Tracks.bind (close_tracks fuel _)
      intro _
      apply Tracks.bind (.quietly _)
      intro closed
      exact .behind trivial (ih _)

/-- The last part of an exit with notes is that part. -/
theorem release_tracks (fuel : Nat) (task : Address) (current : Pointer) :
    Tracks (fun _ => True) (release fuel task current : Kernel width Registers Unit) (do
      Unarddeg.kfree (some task)
      Unarddeg.unregisterVNode current
      Unarddeg.deleteVNode fuel current
      let state ← get
      set { state with currentProc := none }) := by
  apply touch_tracks
  apply Tracks.bind (kfree_tracks _)
  intro _
  apply Tracks.bind (unregisterVNode_tracks _).any
  intro _
  apply Tracks.bind (deleteVNode_tracks fuel _)
  intro _
  apply Tracks.bind (.quietly _)
  intro state
  exact .quietly _

/-- An exit with notes is an exit. -/
theorem schedulerExit_tracks (fuel : Nat) :
    Tracks (fun _ => True) (schedulerExit fuel : Kernel width Registers Unit)
      (Unarddeg.schedulerExit fuel) := by
  apply Tracks.bind (cutCurrentProc_tracks fuel).any
  intro _
  apply Tracks.bind currentTask_tracks.any
  intro task
  apply Tracks.bind (.quietly _)
  intro state
  apply Tracks.behind trivial
  apply Tracks.bind (closeAll_tracks fuel _)
  intro _
  exact release_tracks fuel task _

end Tracking

end Noted

/-! ## A descriptor is left -/

section Left

variable {before : KernelState width Registers} {ledger last : Ledger (KernelState width Registers)
  Address} {current task entry : Address} {rest : List Address} {fuel : Nat}

/-- A block is freed by `kfree`. -/
theorem Noted.kfree_frees {block : Address}
    (returned : Noted.kfree (some block) ledger = .ok () last) : .free block ∈ last.events := by
  rw [Noted.kfree_eq] at returned
  cases returned
  exact List.mem_append_right _ (List.mem_singleton_self _)

/-- `close` of the first descriptor frees its entry. -/
theorem Noted.close_frees (here : ledger.state.currentProc = some current)
    (data : (ledger.state.node current).driverData = some task)
    (files : ledger.state.FilesOf task (entry :: rest))
    (returned : Noted.close fuel (ledger.state.entry entry).fileIndex ledger = .ok () last) :
    .free entry ∈ last.events := by
  obtain ⟨place, found, searched, returned⟩ := bind_ok.mp returned
  have plain := (Noted.findb_tracks fuel _).ok searched
  obtain ⟨task', located, taken, search⟩ := bind_ok.mp plain
  rw [currentTask_eq here data] at taken
  cases taken
  have segment : Segment ledger.state.entryNext (ledger.state.entryAt (.files task)).next
      (entry :: rest) none := files
  obtain ⟨same, front, target, back, split, _, next, _, earlier⟩ := findbFrom_ok segment search
  obtain ⟨_, targetIs, _⟩ := first_of_split split rfl earlier
  rw [← targetIs] at next
  obtain ⟨state, _, read, returned⟩ := bind_ok.mp returned
  obtain ⟨_, _, _, returned⟩ := bind_ok.mp returned
  obtain ⟨chosen, _, points, returned⟩ := bind_ok.mp returned
  have stateIs : found.state = state := (get_ok.mp (quietly_ok.mp read).1).1
  have chosenIs : (state.entryAt place).next = some chosen :=
    (deref_ok.mp (quietly_ok.mp points).1).1
  rw [← stateIs, ← same, next] at chosenIs
  rw [Option.some.inj chosenIs]
  -- What lies between the choice of the entry and its end does not matter.
  iterate 9 obtain ⟨_, _, _, returned⟩ := bind_ok.mp returned
  exact Noted.kfree_frees returned

/-- The loop reads the link of the first entry behind the end of the entry. -/
theorem Noted.closeAll_spoils (here : ledger.state.currentProc = some current)
    (data : (ledger.state.node current).driverData = some task)
    (files : ledger.state.FilesOf task (entry :: rest))
    (returned : Noted.closeAll fuel (some entry) ledger = .ok () last) :
    ¬ NeverAfterFree last.events := by
  cases fuel with
  | zero => cases returned
  | succ fuel =>
    obtain ⟨state, read, got, returned⟩ := bind_ok.mp returned
    obtain ⟨sameState, sameEvents⟩ := quietly_ok.mp got
    obtain ⟨stateIs, readIs⟩ := get_ok.mp sameState
    obtain ⟨_, noted, touched, returned⟩ := bind_ok.mp returned
    have notedIs := note_ok.mp touched
    obtain ⟨_, closed, closes, returned⟩ := bind_ok.mp returned
    rw [← stateIs] at closes
    have kept : noted.state = ledger.state := by
      rw [← notedIs]
      exact readIs.symm
    rw [← kept] at here data files closes
    have freed := Noted.close_frees here data files closes
    obtain ⟨_, again, got, returned⟩ := bind_ok.mp returned
    have againIs := (quietly_ok.mp got).2
    obtain ⟨_, behind, touched, returned⟩ := bind_ok.mp returned
    have behindIs := note_ok.mp touched
    obtain ⟨events, lastIs, _⟩ := (Noted.closeAll_tracks fuel _).notes _ _ _ returned
    rw [lastIs, ← behindIs, againIs, List.append_assoc]
    exact NeverAfterFree.not_of_touch freed (by simp)

end Left

/-! ## The whole exit -/

section Exit

variable {layout : Layout} {before state : KernelState width Registers}
  {procs front rest : List Address} {taskOf : Address → Address} {current node : Address}
  {notes : List (HeapEvent Address)} {fuel : Nat}

/-- The task of the current process lies behind its node when the node is cut out. -/
theorem cutNodes_task (scheduled : Scheduled layout before (front ++ current :: rest) taskOf) :
    (cutNodes before.node layout.proc current front.getLast? current).driverData =
      some (taskOf current) := by
  rw [cutNodes_current scheduled]
  exact (scheduled.node current (by simp)).driverData

/-- An exit with an open descriptor touches an entry behind its end. -/
theorem Noted.schedulerExit_spoils {entry : Address} {later : List Address}
    {last : Ledger (KernelState width Registers) Address}
    (scheduled : Scheduled layout before (front ++ current :: rest) taskOf)
    (here : before.currentProc = some current)
    (files : before.FilesOf (taskOf current) (entry :: later))
    (returned : Noted.schedulerExit fuel ⟨before, []⟩ = .ok () last) :
    ¬ NeverAfterFree last.events := by
  obtain ⟨_, cut, edited, returned⟩ := bind_ok.mp returned
  have cutIs := cutCurrentProc_ok scheduled here ((Noted.cutCurrentProc_tracks fuel).ok edited)
  have data := cutNodes_task scheduled
  have cutHere : cut.state.currentProc = some current := by
    rw [cutIs]
    exact here
  have cutData : (cut.state.node current).driverData = some (taskOf current) := by
    rw [cutIs]
    exact data
  have cutFiles : cut.state.FilesOf (taskOf current) (entry :: later) := by
    rw [cutIs]
    exact files
  obtain ⟨task, found, located, returned⟩ := bind_ok.mp returned
  have plain := Noted.currentTask_tracks.ok located
  rw [currentTask_eq cutHere cutData] at plain
  injection plain with taskIs foundIs
  obtain ⟨state, read, got, returned⟩ := bind_ok.mp returned
  obtain ⟨stateIs, readIs⟩ := get_ok.mp (quietly_ok.mp got).1
  obtain ⟨_, touched, noted, returned⟩ := bind_ok.mp returned
  have touchedIs : touched.state = cut.state := by
    rw [← note_ok.mp noted]
    exact readIs.symm.trans foundIs.symm
  obtain ⟨_, closed, closing, returned⟩ := bind_ok.mp returned
  rw [← stateIs, ← foundIs, ← taskIs, cutFiles.1] at closing
  rw [← touchedIs] at cutHere cutData cutFiles
  have spoilt := Noted.closeAll_spoils cutHere cutData cutFiles closing
  obtain ⟨events, lastIs, _⟩ := (Noted.release_tracks fuel _ _).notes _ _ _ returned
  rw [lastIs]
  intro clean
  exact spoilt (NeverAfterFree.append_iff.mp clean).1

/-- The search ends at the process before the current one. -/
theorem previousProc_returns {start : Pointer} (here : before.currentProc = some current)
    (segment : Segment before.nextOf start (front ++ current :: rest) none) (behind : front ≠ [])
    (enough : front.length + 1 ≤ fuel) :
    previousProc fuel start before = .ok front.getLast? before := by
  induction front generalizing start fuel with
  | nil => exact absurd rfl behind
  | cons first front ih =>
    obtain ⟨less, rfl⟩ : ∃ less, fuel = less + 1 := ⟨fuel - 1, by omega⟩
    have distinct := segment.nodup
    obtain ⟨rfl, tail⟩ := segment
    unfold previousProc
    rw [bind_of_ok (get_ok.mpr ⟨rfl, rfl⟩), here]
    cases front with
    | nil =>
      have next : (before.node first).next = some current := tail.1
      rw [if_pos next]
      rfl
    | cons second front =>
      have next : (before.node first).next = some second := tail.1
      have other : (before.node first).next ≠ some current := by
        rw [next]
        intro same
        rw [Option.some.inj same] at distinct
        simp at distinct
      rw [if_neg other]
      simp only [List.length_cons] at enough
      have fewer : (second :: front).length + 1 ≤ less := by
        rw [List.length_cons]
        omega
      rw [List.getLast?_cons_cons]
      exact ih tail (by simp) fewer

/-- The current process is cut out. -/
theorem cutCurrentProc_returns
    (scheduled : Scheduled layout before (front ++ current :: rest) taskOf)
    (here : before.currentProc = some current) (enough : front.length + 1 ≤ fuel) :
    cutCurrentProc fuel before = .ok () { before with
      node := cutNodes before.node layout.proc current front.getLast? } := by
  have children := scheduled.children
  rw [List.append_assoc, List.cons_append] at children
  have proc : readNode before.proc before = .ok (before.node layout.proc) before :=
    readNode_ok.mpr ⟨layout.proc, scheduled.proc, rfl, rfl⟩
  have process : readNode before.currentProc before = .ok (before.node current) before :=
    readNode_ok.mpr ⟨current, here, rfl, rfl⟩
  unfold cutCurrentProc
  rw [bind_of_ok (get_ok.mpr ⟨rfl, rfl⟩), bind_of_ok proc]
  cases front with
  | nil =>
    have first : (before.node layout.proc).firstChild = some current := children.1
    rw [if_pos (first.trans here.symm), bind_of_ok process]
    exact writeNode_ok.mpr ⟨layout.proc, scheduled.proc, rfl⟩
  | cons first front =>
    have start : (before.node layout.proc).firstChild = some first := children.1
    have distinct := scheduled.nodup
    have other : (before.node layout.proc).firstChild ≠ before.currentProc := by
      rw [start, here]
      intro same
      rw [Option.some.inj same] at distinct
      simp at distinct
    have searched := previousProc_returns here children (by simp) enough
    rw [if_neg other, bind_of_ok searched]
    cases last : (first :: front).getLast? with
    | none => simp at last
    | some prev =>
      unfold onlyIf
      rw [if_pos (by simp), bind_of_ok process]
      exact writeNode_ok.mpr ⟨prev, rfl, rfl⟩

/-- A guarded assignment touches the node that it assigns to. -/
theorem Noted.guarded_writeNode_eq (pointer : Pointer) (assign : VNode → VNode) :
    onlyIf (pointer ≠ none) (Noted.writeNode pointer assign) ⟨state, notes⟩ =
      .ok () ⟨{ state with node := assignAt state.node pointer assign },
        notes ++ pointer.toList.map .touch⟩ := by
  have plain : onlyIf (pointer ≠ none) (Unarddeg.writeNode pointer assign) state = .ok ()
      { state with node := assignAt state.node pointer assign } := guarded_writeNode_ok.mpr rfl
  unfold onlyIf at plain ⊢
  cases pointer with
  | none =>
    rw [if_neg (by simp)] at plain ⊢
    injection plain with _ same
    rw [← same, Option.toList_none, List.map_nil, List.append_nil]
    rfl
  | some address =>
    rw [if_pos (by simp)] at plain ⊢
    injection plain with _ same
    rw [← same]
    rfl

/-- What `UnregisterVNode` touches, given the content of the node. -/
def unregisterEvents (node : Address) (content : VNode) : List (HeapEvent Address) :=
  [.touch node] ++ content.previous.toList.map .touch ++ [.touch node] ++
    content.next.toList.map .touch ++ [.touch node] ++ [.touch node]

/-- `UnregisterVNode` touches the node and its neighbours. -/
theorem mem_unregisterEvents {content : VNode} {event : HeapEvent Address}
    (member : event ∈ unregisterEvents node content) : ∃ cell, event = .touch cell ∧
      (cell = node ∨ content.previous = some cell ∨ content.next = some cell) := by
  simp only [unregisterEvents, List.mem_append, List.mem_cons, List.mem_map, Option.mem_toList,
    List.not_mem_nil, or_false] at member
  rcases member with ((((same | ⟨cell, here, same⟩) | same) | ⟨cell, here, same⟩) | same) | same
  · exact ⟨node, same, .inl rfl⟩
  · exact ⟨cell, same.symm, .inr (.inl here)⟩
  · exact ⟨node, same, .inl rfl⟩
  · exact ⟨cell, same.symm, .inr (.inr here)⟩
  · exact ⟨node, same, .inl rfl⟩
  · exact ⟨node, same, .inl rfl⟩

/-- `UnregisterVNode` of a node that is not its own neighbour and has no parent link touches the
node and its neighbours. -/
theorem Noted.unregisterVNode_eq (orphan : (state.node node).parent = none)
    (notPrevious : (state.node node).previous ≠ some node)
    (notNext : (state.node node).next ≠ some node) :
    Noted.unregisterVNode (some node) ⟨state, notes⟩ =
      .ok () ⟨{ state with node := detach state.node node },
        notes ++ unregisterEvents node (state.node node)⟩ := by
  let linked : KernelState width Registers := { state with
    node := assignAt state.node (state.node node).previous fun previous =>
      { previous with next := (state.node node).next } }
  let relinked : KernelState width Registers := { linked with
    node := assignAt linked.node (state.node node).next fun next =>
      { next with previous := (state.node node).previous } }
  have first : linked.node node = state.node node := if_neg notPrevious
  have second : relinked.node node = state.node node := (if_neg notNext).trans first
  have readLinked : ∀ notes, Noted.readNode (some node) ⟨linked, notes⟩ =
      .ok (state.node node) ⟨linked, notes ++ [.touch node]⟩ := by
    intro notes
    rw [Noted.readNode_eq, first]
  have readRelinked : ∀ notes, Noted.readNode (some node) ⟨relinked, notes⟩ =
      .ok (state.node node) ⟨relinked, notes ++ [.touch node]⟩ := by
    intro notes
    rw [Noted.readNode_eq, second]
  have started : quietly (panicIf ((some node : Pointer) = none) .nullPointerDereference)
      (⟨state, notes⟩ : Ledger (KernelState width Registers) Address) =
        .ok () ⟨state, notes⟩ := rfl
  have run : ∃ last, Noted.unregisterVNode (some node) ⟨state, notes⟩ =
      .ok () ⟨last, notes ++ unregisterEvents node (state.node node)⟩ := by
    unfold Noted.unregisterVNode
    rw [bind_of_ok started, bind_of_ok (Noted.readNode_eq _ _ _),
      bind_of_ok (Noted.guarded_writeNode_eq _ _), bind_of_ok (readLinked _),
      bind_of_ok (Noted.guarded_writeNode_eq _ _), bind_of_ok (readRelinked _)]
    unfold onlyIf
    rw [if_neg (by simp [orphan])]
    simp only [unregisterEvents, ← List.append_assoc]
    exact ⟨_, rfl⟩
  obtain ⟨last, returned⟩ := run
  have plain := (Noted.unregisterVNode_tracks (some node)).ok returned
  have lastIs : last = _ := unregisterVNode_ok orphan notPrevious notNext plain
  rw [returned, lastIs]

/-- The last part of an exit frees the task and the node of the process, in this order, and
touches neither behind its end. -/
theorem Noted.release_ok {task : Address} (orphan : (state.node node).parent = none)
    (leaf : (state.node node).firstChild = none) (enough : 2 ≤ fuel)
    (apart : ∀ cell, cell = node ∨ (state.node node).previous = some cell ∨
      (state.node node).next = some cell → cell ≠ task)
    (notPrevious : (state.node node).previous ≠ some node)
    (notNext : (state.node node).next ≠ some node) :
    ∃ after events, Noted.release fuel task (some node) ⟨state, notes⟩ =
        .ok () ⟨after, notes ++ events⟩ ∧
      freedIn events = [task, node] ∧ NeverAfterFree events := by
  let freed := state.freeing [task]
  let gone : KernelState width Registers := { freed with node := detach freed.node node }
  have order : Postorder gone.node (gone.node node).firstChild [] := by
    have leafGone : (gone.node node).firstChild = none := leaf
    rw [leafGone]
    exact .nil
  obtain ⟨deletion, deletes, deleted⟩ := @Noted.deleteVNode_ok _ _ gone
    (notes ++ [HeapEvent.touch node] ++ [HeapEvent.free task] ++
      unregisterEvents node (state.node node)) [] node fuel order enough
  have unregistered : Noted.unregisterVNode (some node)
      ⟨freed, notes ++ [HeapEvent.touch node] ++ [HeapEvent.free task]⟩ =
        .ok () ⟨gone, notes ++ [HeapEvent.touch node] ++ [HeapEvent.free task] ++
          unregisterEvents node (state.node node)⟩ :=
    Noted.unregisterVNode_eq orphan notPrevious notNext
  have touched : Noted.touch (some node) ⟨state, notes⟩ =
      (.ok ⟨⟩ ⟨state, notes ++ [HeapEvent.touch node]⟩ :
        EStateM.Result Stop (Ledger (KernelState width Registers) Address) PUnit) := rfl
  have quiet : freedIn (unregisterEvents node (state.node node)) = [] := by
    apply freedIn_of_touches
    intro event member
    obtain ⟨cell, same, _⟩ := mem_unregisterEvents member
    rw [same]
    trivial
  refine ⟨{ gone.freeing [node] with currentProc := none }, [HeapEvent.touch node] ++
    ([HeapEvent.free task] ++ (unregisterEvents node (state.node node) ++ deletion)), ?_, ?_, ?_⟩
  · unfold Noted.release
    rw [bind_of_ok touched, bind_of_ok (Noted.kfree_eq _ _ _), bind_of_ok unregistered,
      bind_of_ok deleted]
    simp only [List.append_assoc]
    rfl
  · rw [freedIn_append, freedIn_append, freedIn_append, quiet, deletes.freed]
    rfl
  · apply NeverAfterFree.append_iff.mpr
    refine ⟨.of_freedIn rfl, ?_, by simp⟩
    apply NeverAfterFree.append_iff.mpr
    refine ⟨List.pairwise_singleton .., ?_, ?_⟩
    · apply NeverAfterFree.append_iff.mpr
      exact ⟨.of_freedIn quiet, deletes.clean (List.nodup_singleton _), by simp [quiet]⟩
    · intro cell member touched
      have isTask : cell = task := by simpa using member
      rcases List.mem_append.mp touched with inside | inside
      · obtain ⟨other, same, around⟩ := mem_unregisterEvents inside
        cases same
        exact apart cell around isTask
      · have isNode : cell = node := by simpa using deletes.touched cell inside
        exact apart cell (.inl isNode) isTask

end Exit

/-! ## Safe exits -/

/-- An exit of a process is safe: it returns, each entry is freed once and the node behind it is
marked as opened no more, the task and the node of the process are freed once, and no block is
touched behind its end. -/
def ExitsSafely (before : KernelState width Registers) (process task : Address)
    (entries : List Address) : Prop :=
  ∃ fuel after events, schedulerExit fuel before = .ok () after ∧
    Noted.schedulerExit fuel ⟨before, []⟩ = .ok () ⟨after, events⟩ ∧
    (∀ entry ∈ entries, (freedIn events).count entry = 1 ∧
      ∀ node, (before.entry entry).reference = some node →
        hasFlag (after.node node).flags vfsOpened = false) ∧
    (freedIn events).count task = 1 ∧ (freedIn events).count process = 1 ∧ NeverAfterFree events

section Safety

variable {layout : Layout} {before : KernelState width Registers}
  {procs front rest : List Address} {taskOf : Address → Address} {process : Address}

/-- The task of a process is no neighbour of the node of the process. -/
theorem task_apart (scheduled : Scheduled layout before (front ++ process :: rest) taskOf)
    {cell : Address} (around : cell = process ∨ (before.node process).previous = some cell ∨
      (before.node process).next = some cell) : cell ≠ taskOf process := by
  have isNode : layout.IsNode (front ++ process :: rest) cell := by
    rcases around with same | previous | next
    · exact .inr (.inr (.inr (by simp [same])))
    · rw [previous_current scheduled] at previous
      have member := List.mem_of_getLast? previous
      exact .inr (.inr (.inr (by simp [member])))
    · rw [scheduled.next] at next
      cases rest with
      | nil => exact .inr (.inr (.inl (Option.some.inj next).symm))
      | cons later rest =>
        have same : later = cell := Option.some.inj next
        exact .inr (.inr (.inr (by simp [← same])))
  intro same
  rw [same] at isNode
  exact (scheduled.task process (by simp)).2 isNode

/-- The task of the current process is read from its node. -/
theorem Noted.currentTask_eq {ledger : Ledger (KernelState width Registers) Address}
    {task : Address}
    (here : ledger.state.currentProc = some process)
    (data : (ledger.state.node process).driverData = some task) :
    Noted.currentTask ledger =
      .ok task ⟨ledger.state, ledger.events ++ [HeapEvent.touch process]⟩ := by
  unfold Noted.currentTask
  rw [bind_of_ok (quietly_of_ok (get_ok.mpr ⟨rfl, rfl⟩)), here,
    bind_of_ok (Noted.readNode_eq _ _ _), data]
  rfl

/-- Without descriptors an exit returns, and frees the task and the node. -/
theorem Noted.schedulerExit_ok {fuel : Nat}
    (scheduled : Scheduled layout before (front ++ process :: rest) taskOf)
    (here : before.currentProc = some process) (files : before.FilesOf (taskOf process) [])
    (enough : front.length + 2 ≤ fuel) :
    ∃ after events, Noted.schedulerExit fuel ⟨before, []⟩ = .ok () ⟨after, events⟩ ∧
      freedIn events = [taskOf process, process] ∧ NeverAfterFree events := by
  obtain ⟨less, rfl⟩ : ∃ less, fuel = less + 1 := ⟨fuel - 1, by omega⟩
  let cut : KernelState width Registers := { before with
    node := cutNodes before.node layout.proc process front.getLast? }
  have edited : Unarddeg.cutCurrentProc (less + 1) before = .ok () cut :=
    cutCurrentProc_returns scheduled here (by omega)
  have editing : ∃ events, Noted.cutCurrentProc (less + 1) ⟨before, []⟩ =
      .ok () ⟨cut, [] ++ events⟩ ∧ ∀ event ∈ events, event.IsTouch :=
    (Noted.cutCurrentProc_tracks _).returns edited
  obtain ⟨edits, editing, touches⟩ := editing
  have node := scheduled.node process (by simp)
  have same : cut.node process = before.node process := cutNodes_current scheduled
  have located := @Noted.currentTask_eq _ _ process ⟨cut, [] ++ edits⟩ (taskOf process) here
    (cutNodes_task scheduled)
  let notes := [] ++ edits ++ [HeapEvent.touch process] ++ [HeapEvent.touch (taskOf process)]
  have noted : note (.touch (taskOf process)) (⟨cut, [] ++ edits ++ [HeapEvent.touch process]⟩ :
      Ledger (KernelState width Registers) Address) =
        (.ok ⟨⟩ ⟨cut, notes⟩ : EStateM.Result Stop _ PUnit) := rfl
  have none : (cut.task (taskOf process)).files.next = none := files
  have closing : Noted.closeAll (less + 1) Option.none
      (⟨cut, notes⟩ : Ledger (KernelState width Registers) Address) = .ok () ⟨cut, notes⟩ := rfl
  have orphan : (cut.node process).parent = Option.none := by
    rw [same]
    exact node.parent
  have leaf : (cut.node process).firstChild = Option.none := by
    rw [same]
    exact node.firstChild
  obtain ⟨after, events, released, freed, clean⟩ := @Noted.release_ok _ _ cut process notes
    (less + 1) (taskOf process) orphan leaf (by omega) (fun cell around => by
      rw [same] at around
      exact task_apart scheduled around)
    (by
      rw [same, previous_current scheduled]
      exact ne_last scheduled)
    (by
      rw [same]
      exact next_ne scheduled)
  have quiet : freedIn notes = [] := by
    simp [notes, freedIn_of_touches touches]
  refine ⟨after, notes ++ events, ?_, ?_, ?_⟩
  · unfold Noted.schedulerExit
    rw [bind_of_ok editing, bind_of_ok located, bind_of_ok (quietly_of_ok (get_ok.mpr ⟨rfl, rfl⟩)),
      bind_of_ok noted, none, bind_of_ok closing, here]
    exact released
  · rw [freedIn_append, quiet, freed, List.nil_append]
  · apply NeverAfterFree.append_iff.mpr
    refine ⟨.of_freedIn quiet, clean, ?_⟩
    intro cell member
    rw [quiet] at member
    cases member

/-- An exit of a process without descriptors is safe. -/
theorem exitsSafely_empty (scheduled : Scheduled layout before (front ++ process :: rest) taskOf)
    (here : before.currentProc = some process) (files : before.FilesOf (taskOf process) []) :
    ExitsSafely before process (taskOf process) [] := by
  obtain ⟨after, events, returned, freed, clean⟩ :=
    Noted.schedulerExit_ok scheduled here files (Nat.le_refl _)
  have different : process ≠ taskOf process := task_apart scheduled (.inl rfl)
  refine ⟨_, after, events, (Noted.schedulerExit_tracks _).ok returned, returned, by simp, ?_, ?_,
    clean⟩
  · rw [freed, List.count_cons_self, List.count_eq_zero_of_not_mem (by simpa using different.symm)]
  · rw [freed, List.count_cons_of_ne different.symm, List.count_singleton_self]

/-- An exit that is safe has no descriptor to close. -/
theorem ExitsSafely.empty {entries : List Address}
    (scheduled : Scheduled layout before procs taskOf) (here : before.currentProc = some process)
    (files : before.FilesOf (taskOf process) entries)
    (safe : ExitsSafely before process (taskOf process) entries) : entries = [] := by
  obtain ⟨front, rest, rfl⟩ := List.append_of_mem (scheduled.current process here)
  obtain ⟨fuel, after, events, _, returned, _, _, _, clean⟩ := safe
  cases entries with
  | nil => rfl
  | cons entry later =>
    exact absurd clean (Noted.schedulerExit_spoils scheduled here files returned)

/-- **Exits.** The exit of a process with any list of descriptors is safe exactly when the list is
empty. -/
theorem exitsSafely_iff {entries : List Address} (scheduled : Scheduled layout before procs taskOf)
    (here : before.currentProc = some process) (files : before.FilesOf (taskOf process) entries) :
    ExitsSafely before process (taskOf process) entries ↔ entries = [] := by
  constructor
  · exact ExitsSafely.empty scheduled here files
  · intro none
    obtain ⟨front, rest, split⟩ := List.append_of_mem (scheduled.current process here)
    rw [split] at scheduled
    rw [none] at files ⊢
    exact exitsSafely_empty scheduled here files

end Safety

/-- The first process may exit right after the start. -/
theorem exitsSafely_iff_start : ExitsSafely sampleStart 3 4 [] := by
  obtain ⟨layout, first, taskOf, current, scheduled, noFiles⟩ :=
    scheduled_start (Boot.bareRoot 32 ()) sample_started
  have here : sampleStart.currentProc = some 3 := by decide +kernel
  have same := Option.some.inj (here.symm.trans current)
  rw [← same] at scheduled noFiles
  have data : (sampleStart.node 3).driverData = some 4 := by decide +kernel
  have task := Option.some.inj ((scheduled.node 3 (by simp)).driverData.symm.trans data)
  rw [← task]
  exact (exitsSafely_iff scheduled here (noFiles 3 (by simp))).mpr rfl

/-- A process that has opened `/proc` reads its entry behind the end of the entry. -/
theorem opened_exit_unsafe :
    ¬ ∀ (layout : Layout) (before : KernelState 32 Unit) (procs : List Address)
      (taskOf : Address → Address) (process : Address) (entries : List Address),
      Scheduled layout before procs taskOf → before.currentProc = some process →
      before.FilesOf (taskOf process) entries →
      ExitsSafely before process (taskOf process) entries := by
  intro claim
  obtain ⟨layout, procs, taskOf, filesOf, _, descriptors, _, _⟩ :=
    started_run (Boot.bareRoot 32 ()) bareRoot_parents (by decide +kernel) sample_started
      sample_file
  have scheduled := descriptors.scheduled
  have here : sampleOpened.currentProc = some 3 := by decide +kernel
  have member := scheduled.current 3 here
  have files := descriptors.files 3 member
  have empty := (claim _ _ _ _ _ _ scheduled here files).empty scheduled here files
  rw [empty] at files
  have stop : (sampleOpened.task (taskOf 3)).files.next = none := files
  have data : (sampleOpened.node 3).driverData = some 4 := by decide +kernel
  have task := Option.some.inj ((scheduled.node 3 member).driverData.symm.trans data)
  have next : (sampleOpened.task 4).files.next ≠ none := by decide +kernel
  rw [task] at stop
  exact next stop

end Unarddeg
