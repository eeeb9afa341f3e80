import Unarddeg.Kernel.Sched.Runs

/-!
# When a selection ends

The loop of `CommitNextProcess` goes round the children of `/proc` and passes over `self`. It ends
exactly as long as a process is left (`selection_iff`): after the exit of the last one it goes from
`self` to `self` for ever.
-/

namespace Unarddeg

open Library

variable {width : Nat} {Registers : Type}

section Selection

variable {layout : Layout} {before : KernelState width Registers} {procs : List Address}
  {taskOf : Address → Address} {fuel : Nat}

/-- From no process, or from `self`, the body of the loop moves to the first child. -/
theorem advanceProc_restart (scheduled : Scheduled layout before procs taskOf) {cursor : Pointer}
    (restart : cursor = none ∨ cursor = some layout.self) :
    advanceProc { before with currentProc := cursor } =
      .ok (some (procs.headD layout.self)) { before with currentProc := cursor } := by
  have first := scheduled.first
  have proc : readNode before.proc { before with currentProc := cursor } =
      .ok (before.node layout.proc) { before with currentProc := cursor } := by
    rw [scheduled.proc]
    rfl
  unfold advanceProc
  rw [bind_of_ok (get_ok.mpr ⟨rfl, rfl⟩)]
  rcases restart with rfl | rfl
  · dsimp only
    rw [bind_of_ok proc, first]
    rfl
  · dsimp only
    rw [scheduled.self_next]
    dsimp only
    rw [bind_of_ok proc, first]
    rfl

/-- A round of the loop that moves to a process is the last one. -/
theorem selectProc_last (scheduled : Scheduled layout before procs taskOf) {cursor : Pointer}
    {process : Address} (member : process ∈ procs)
    (moved : advanceProc { before with currentProc := cursor } =
      .ok (some process) { before with currentProc := cursor }) :
    selectProc (fuel + 1) { before with currentProc := cursor } =
      .ok () { before with currentProc := some process } := by
  have other : ¬ some process = before.selfProc := by
    rw [scheduled.selfProc]
    exact fun same => scheduled.ne_self member (Option.some.inj same)
  have stored : (set { before with currentProc := some process } :
      Kernel (KernelState width Registers) Unit) { before with currentProc := cursor } =
        .ok () { before with currentProc := some process } := rfl
  unfold selectProc
  rw [bind_of_ok moved, bind_of_ok (get_ok.mpr ⟨rfl, rfl⟩), bind_of_ok stored]
  unfold onlyIf
  rw [if_neg other]
  rfl

/-- A round of the loop that moves to `self` is followed by another one. -/
theorem selectProc_again (scheduled : Scheduled layout before procs taskOf) {cursor : Pointer}
    (moved : advanceProc { before with currentProc := cursor } =
      .ok (some layout.self) { before with currentProc := cursor }) :
    selectProc (fuel + 1) { before with currentProc := cursor } =
      selectProc fuel { before with currentProc := some layout.self } := by
  have same : some layout.self = before.selfProc := scheduled.selfProc.symm
  have stored : (set { before with currentProc := some layout.self } :
      Kernel (KernelState width Registers) Unit) { before with currentProc := cursor } =
        .ok () { before with currentProc := some layout.self } := rfl
  conv_lhs => unfold selectProc
  rw [bind_of_ok moved, bind_of_ok (get_ok.mpr ⟨rfl, rfl⟩), bind_of_ok stored]
  unfold onlyIf
  rw [if_pos same]

/-- From no process, or from `self`, the loop selects the first process. -/
theorem selectProc_restart (scheduled : Scheduled layout before procs taskOf) {cursor : Pointer}
    (restart : cursor = none ∨ cursor = some layout.self) (left : procs ≠ []) :
    ∃ process ∈ procs, selectProc (fuel + 1) { before with currentProc := cursor } =
      .ok () { before with currentProc := some process } := by
  obtain ⟨process, rest, rfl⟩ := List.exists_cons_of_ne_nil left
  have moved := advanceProc_restart scheduled restart
  rw [List.headD_cons] at moved
  exact ⟨process, List.mem_cons_self, selectProc_last scheduled List.mem_cons_self moved⟩

/-- As long as a process is left, the loop ends within two rounds. -/
theorem selectProc_returns (scheduled : Scheduled layout before procs taskOf) (left : procs ≠ []) :
    ∃ process ∈ procs, selectProc (fuel + 2) before =
      .ok () { before with currentProc := some process } := by
  cases here : before.currentProc with
  | none =>
    have same : before = { before with currentProc := none } := by rw [← here]
    rw [same]
    exact selectProc_restart scheduled (.inl rfl) left
  | some current =>
    obtain ⟨front, rest, rfl⟩ := List.append_of_mem (scheduled.current current here)
    have same : before = { before with currentProc := some current } := by rw [← here]
    have next := scheduled.next
    have moved : advanceProc { before with currentProc := some current } =
        .ok (some (rest.headD layout.self)) { before with currentProc := some current } := by
      unfold advanceProc
      rw [bind_of_ok (get_ok.mpr ⟨rfl, rfl⟩)]
      dsimp only
      rw [next]
      rfl
    cases rest with
    | nil =>
      -- The current process is the last one: the loop passes over `self`.
      obtain ⟨process, member, selected⟩ :=
        @selectProc_restart _ _ _ _ _ _ fuel scheduled _ (.inr rfl) left
      have again := @selectProc_again _ _ _ _ _ _ (fuel + 1) scheduled _ moved
      rw [← same] at again
      exact ⟨process, member, again.trans selected⟩
    | cons later rest =>
      have member : later ∈ front ++ current :: later :: rest := by simp
      have selected := @selectProc_last _ _ _ _ _ _ (fuel + 1) scheduled _ _ member moved
      rw [← same] at selected
      exact ⟨later, member, selected⟩

/-- The registers of a process are loaded. -/
theorem commitProcessLoad_returns {process task : Address}
    (here : before.currentProc = some process) (node : ProcNode (before.node process) task) :
    ∃ after, commitProcessLoad before = .ok () after ∧ after.currentProc = some process := by
  have running : before.currentProc ≠ none := by simp [here]
  have read : readNode before.currentProc before = .ok (before.node process) before := by
    rw [here]
    rfl
  have data : (before.node process).driverData ≠ none := by simp [node.driverData]
  have checked : panicIf ((before.node process).driverData = none) .nullPointerDereference before =
      .ok () before := panicIf_ok.mpr ⟨data, rfl⟩
  refine ⟨{ before with scratchProc := (before.task task).registers }, ?_, here⟩
  unfold commitProcessLoad
  rw [bind_of_ok (get_ok.mpr ⟨rfl, rfl⟩)]
  unfold onlyIf
  rw [if_pos running, bind_of_ok read, node.readFunction]
  unfold callRW taskReadFunction
  dsimp only
  rw [bind_of_ok checked, node.driverData]
  rfl

/-- As long as a process is left, `CommitNextProcess` returns and one is selected. -/
theorem commitNextProcess_returns (scheduled : Scheduled layout before procs taskOf)
    (left : procs ≠ []) :
    ∃ process after, commitNextProcess (fuel + 2) before = .ok () after ∧
      after.currentProc = some process ∧ process ∈ procs := by
  have ticked : Scheduled layout { before with ticks := before.ticks + 1 } procs taskOf :=
    scheduled.congr rfl rfl (fun _ live _ => live) (fun _ _ => .refl _) scheduled.current
  obtain ⟨process, member, selected⟩ : ∃ process ∈ procs,
      selectProc (fuel + 2) { before with ticks := before.ticks + 1 } =
        .ok () { before with ticks := before.ticks + 1, currentProc := some process } :=
    selectProc_returns ticked left
  have apart := scheduled.ne_self member
  let linked : KernelState width Registers :=
    { before with
      ticks := before.ticks + 1
      currentProc := some process
      node := Function.update before.node layout.self
        { before.node layout.self with link := some process } }
  have node : ProcNode (linked.node process) (taskOf process) := by
    change ProcNode (Function.update before.node _ _ process) _
    rw [Function.update_of_ne apart]
    exact scheduled.node process member
  have here : linked.currentProc = some process := rfl
  obtain ⟨after, loaded, current⟩ := commitProcessLoad_returns here node
  have counted : (set { before with ticks := before.ticks + 1 } :
      Kernel (KernelState width Registers) Unit) before =
        .ok () { before with ticks := before.ticks + 1 } := rfl
  have written : writeNode before.selfProc (fun self => { self with link := some process })
      { before with ticks := before.ticks + 1, currentProc := some process } = .ok () linked :=
    writeNode_ok.mpr ⟨layout.self, scheduled.selfProc, rfl⟩
  refine ⟨process, after, ?_, current, member⟩
  unfold commitNextProcess
  rw [bind_of_ok (get_ok.mpr ⟨rfl, rfl⟩), bind_of_ok counted, bind_of_ok selected,
    bind_of_ok (get_ok.mpr ⟨rfl, rfl⟩), bind_of_ok written]
  exact loaded

/-- The purpose of `CommitNextProcess`: it returns, and then the current process is a child of
`/proc` other than `self`. -/
def Selects (state : KernelState width Registers) : Prop :=
  ∃ fuel after process children, commitNextProcess fuel state = .ok () after ∧
    after.currentProc = some process ∧ state.ProcChildren children ∧ process ∈ children ∧
    some process ≠ state.selfProc

/-- Without a process the loop never ends. -/
theorem commitNextProcess_hangs (scheduled : Scheduled layout before [] taskOf)
    (after : KernelState width Registers) : commitNextProcess fuel before ≠ .ok () after := by
  intro returned
  obtain ⟨process, next, _⟩ := commitNextProcess_ok scheduled returned
  have member := Ring.successor_mem next
  cases member

/-- `CommitNextProcess` selects exactly as long as a process is left. -/
theorem selects_iff (scheduled : Scheduled layout before procs taskOf) :
    Selects before ↔ procs ≠ [] := by
  constructor
  · rintro ⟨fuel, after, process, children, returned, _⟩ rfl
    exact commitNextProcess_hangs scheduled after returned
  · intro left
    obtain ⟨process, after, returned, current, member⟩ :=
      @commitNextProcess_returns _ _ _ _ _ _ 0 scheduled left
    have other : some process ≠ before.selfProc := by
      rw [scheduled.selfProc]
      exact fun same => scheduled.ne_self member (Option.some.inj same)
    have listed : process ∈ procs ++ [layout.self] := List.mem_append_left _ member
    exact ⟨2, after, process, _, returned, current, scheduled.procChildren, listed, other⟩

end Selection

section Runs

variable {initial start state : KernelState width Registers} {boot : Finset Address}
  {allocator : Allocator} {fuel : Nat} {zeroState : Registers} {events : List SchedEvent}

/-- **Selection.** In every state that a run of the scheduler reaches, the loop of
`CommitNextProcess` ends with a process other than `self` exactly when a process is left. -/
theorem selection_iff (booted : Boot boot initial)
    (started : schedulerInitialise allocator fuel zeroState initial = .ok () start)
    (run : Run SchedStep start events state) :
    ∃ first, start.currentProc = some first ∧
      (Selects state ↔ events.foldl survivors [first] ≠ []) := by
  obtain ⟨layout, first, taskOf, here, scheduled, noFiles⟩ := scheduled_start booted started
  obtain ⟨taskOf, scheduled, _⟩ := scheduled_run scheduled noFiles run
  exact ⟨first, here, selects_iff scheduled⟩

/-- In the sample run two processes are left after the exit of the third. -/
theorem selection_iff_sample :
    ∃ first, sampleStart.currentProc = some first ∧
      (Selects sampleExit ↔ [SchedEvent.create 6, .create 9, .select (some 9), .select (some 6),
        .exit (some 6)].foldl survivors [first] ≠ []) :=
  selection_iff (Boot.bareRoot 32 ()) sample_started
    ((sample_created.snoc sample_newest).append sample_exits)

/-- The only process exits. -/
def sampleAlone : KernelState 32 Unit := stateAfter (schedulerExit 8) sampleStart

/-- The exit of the only process leaves nothing to select. -/
theorem last_exit_hangs :
    ¬ ∀ (initial start state : KernelState 32 Unit) (boot : Finset Address)
      (events : List SchedEvent), Boot boot initial →
      schedulerInitialise .next 4 () initial = .ok () start →
      Run SchedStep start events state → Selects state := by
  intro claim
  have exited : SchedStep sampleStart (.exit sampleStart.currentProc) sampleAlone :=
    .exit 8 (ok_of_resultOf (by decide +kernel))
  have here : sampleStart.currentProc = some 3 := by decide +kernel
  rw [here] at exited
  have run : Run SchedStep sampleStart [.exit (some 3)] sampleAlone := .snoc (.nil _) exited
  obtain ⟨layout, first, taskOf, current, scheduled, noFiles⟩ :=
    scheduled_start (Boot.bareRoot 32 ()) sample_started
  obtain rfl := Option.some.inj (here.symm.trans current)
  obtain ⟨taskOf, scheduled, _⟩ := scheduled_run scheduled noFiles run
  have selects := claim _ _ _ _ _ (Boot.bareRoot 32 ()) sample_started run
  exact (selects_iff scheduled).mp selects (by decide)

end Runs

end Unarddeg
