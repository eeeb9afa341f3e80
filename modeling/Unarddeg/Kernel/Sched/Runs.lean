import Unarddeg.Kernel.Sched.Exit
import Unarddeg.Kernel.Sched.Start

/-!
# Runs of the scheduler

Creations, exits and selections in any order after `SchedulerInitialise`. Every run keeps the
process list (`process_list`), and every step refines a step of the round-robin ring whose members
are the processes. Selection is therefore fair as long as each exit is (`round_robin`): an exit
takes the cursor away, and the processes in front of the leaving one overtake those behind it.
-/

namespace Unarddeg

open Library

variable {width : Nat} {Registers : Type}

/-- What happens to the processes, with the process it happens to. -/
inductive SchedEvent
  /-- `SchedulerCreateProc` returned a process. -/
  | create (process : Address)
  /-- The current process called `SchedulerExit`. -/
  | exit (process : Pointer)
  /-- `CommitNextProcess` selected a process. -/
  | select (process : Pointer)
  deriving DecidableEq, Repr

/-- One of the three scheduler functions returns. -/
inductive SchedStep :
    KernelState width Registers → SchedEvent → KernelState width Registers → Prop
  | create {before after : KernelState width Registers} {process : Address}
      (allocator : Allocator) (fuel : Nat) (initialState : Registers)
      (returned : schedulerCreateProc allocator fuel initialState before = .ok process after) :
      SchedStep before (.create process) after
  | exit {before after : KernelState width Registers} (fuel : Nat)
      (returned : schedulerExit fuel before = .ok () after) :
      SchedStep before (.exit before.currentProc) after
  | select {before after : KernelState width Registers} (fuel : Nat)
      (returned : commitNextProcess fuel before = .ok () after) :
      SchedStep before (.select after.currentProc) after

/-- The processes that live after an event, newest first. -/
def survivors (procs : List Address) : SchedEvent → List Address
  | .create process => process :: procs
  | .exit (some process) => procs.erase process
  | .exit none => procs
  | .select _ => procs

/-- The processes selected since they were created, after an event. -/
def observe (selected : List Address) : SchedEvent → List Address
  | .create _ => selected
  | .exit process => selected.filter fun member => some member ≠ process
  | .select process => process.toList ++ selected

/-- An event of the ring as an event of the scheduler. -/
def ofRingEvent : RingEvent Address → SchedEvent
  | .create process => .create process
  | .exit process => .exit (some process)
  | .select process => .select (some process)

/-- No process has an open descriptor. -/
def NoFiles (state : KernelState width Registers) (procs : List Address)
    (taskOf : Address → Address) : Prop :=
  ∀ process ∈ procs, state.FilesOf (taskOf process) []

section Step

variable {layout : Layout} {before after : KernelState width Registers} {procs : List Address}
  {taskOf : Address → Address} {event : SchedEvent}

/-- Each step keeps the list and is a step of the ring of the processes. -/
theorem SchedStep.ring (scheduled : Scheduled layout before procs taskOf)
    (noFiles : NoFiles before procs taskOf) (step : SchedStep before event after)
    (selected : List Address) :
    ∃ taskOf' ringEvent, Scheduled layout after (survivors procs event) taskOf' ∧
      NoFiles after (survivors procs event) taskOf' ∧ event = ofRingEvent ringEvent ∧
      Ring.Step ⟨procs, before.currentProc, selected⟩ ringEvent
        ⟨survivors procs event, after.currentProc, observe selected event⟩ := by
  cases step with
  | create allocator fuel initialState returned =>
    rename_i process
    obtain ⟨data, block, fresh, rfl⟩ := schedulerCreateProc_ok scheduled.found returned
    have absent : process ∉ procs := fun member =>
      fresh.newFree (scheduled.live process (.inr (.inr (.inr member))))
    refine ⟨_, .create process, scheduled.create fresh, ?_, rfl, .create absent⟩
    intro member inside
    rcases List.mem_cons.mp inside with rfl | old
    · rw [Function.update_self]
      simp [KernelState.FilesOf, Segment, KernelState.creating, KernelState.making]
    · have notNew : member ≠ process := fun same => absent (same ▸ old)
      have notData : taskOf member ≠ data := (fresh.ne (scheduled.task member old).1).2.1
      have empty : (before.task (taskOf member)).files.next = none := noFiles member old
      rw [Function.update_of_ne notNew]
      simpa [KernelState.FilesOf, Segment, KernelState.creating, KernelState.making, notData]
        using empty
  | exit fuel returned =>
    obtain ⟨process, here⟩ := schedulerExit_current returned
    obtain ⟨front, rest, rfl⟩ := List.append_of_mem (scheduled.current process here)
    obtain ⟨rfl, _⟩ := schedulerExit_ok scheduled here (noFiles process (by simp))
        (by simp) returned
    have absent : process ∉ front := fun member =>
      (List.nodup_append.mp (List.nodup_append.mp scheduled.nodup).1).2.2 process member process
        List.mem_cons_self rfl
    have remaining : survivors (front ++ process :: rest) (.exit (some process)) =
        front ++ rest := by
      rw [survivors, List.erase_append_right _ absent, List.erase_cons_head]
    have left : Scheduled layout (before.exiting layout.proc process (taskOf process)
        front.getLast? []) (front ++ rest) taskOf := scheduled.exit (by simp)
    rw [here, remaining]
    refine ⟨taskOf, .exit process, left, ?_, rfl, ?_⟩
    · intro member inside
      have old : member ∈ front ++ process :: rest := by
        simp only [List.mem_append, List.mem_cons] at inside ⊢
        tauto
      have empty : (before.task (taskOf member)).files.next = none := noFiles member old
      by_cases same : taskOf member = taskOf process
      · simp [KernelState.FilesOf, Segment, KernelState.exiting, KernelState.closing,
          KernelState.relinkAt, KernelState.setEntryAt, KernelState.setTask, same]
      · simpa [KernelState.FilesOf, Segment, KernelState.exiting, KernelState.closing,
          KernelState.relinkAt, KernelState.setEntryAt, KernelState.setTask, same] using empty
    · rw [← remaining]
      have step : Ring.Step ⟨front ++ process :: rest, before.currentProc, selected⟩
          (.exit process) _ := .exit here
      simpa [survivors, observe, here, KernelState.exiting] using step
  | select fuel returned =>
    obtain ⟨process, next, rfl⟩ := commitNextProcess_ok scheduled returned
    refine ⟨taskOf, .select process, scheduled.select (Ring.successor_mem next), noFiles, rfl,
      .select next⟩

end Step

section Runs

variable {initial start state : KernelState width Registers} {boot : Finset Address}
  {allocator : Allocator} {fuel : Nat} {zeroState : Registers} {events : List SchedEvent}

/-- The first process has no open descriptor. -/
theorem NoFiles.first {proc first data block : Address} :
    NoFiles { initial.creating proc first data block zeroState with currentProc := some first }
      [first] (Function.update (fun _ => 0) first data) := by
  intro process member
  obtain rfl := List.mem_singleton.mp member
  rw [Function.update_self]
  simp [KernelState.FilesOf, Segment, KernelState.creating, KernelState.making]

/-- `SchedulerInitialise` leaves one process, the current one, without descriptors. -/
theorem scheduled_start (booted : Boot boot initial)
    (started : schedulerInitialise allocator fuel zeroState initial = .ok () start) :
    ∃ layout first taskOf, start.currentProc = some first ∧
      Scheduled layout start [first] taskOf ∧ NoFiles start [first] taskOf := by
  obtain ⟨proc, self, first, data, block, procFresh, selfFresh, fresh, rfl⟩ :=
    schedulerInitialise_ok booted started
  exact ⟨_, first, _, rfl, booted.scheduled procFresh selfFresh fresh, .first⟩

/-- Every run keeps the list of the processes that survive its events. -/
theorem scheduled_run {layout : Layout} {procs : List Address} {taskOf : Address → Address}
    (scheduled : Scheduled layout start procs taskOf) (noFiles : NoFiles start procs taskOf)
    (run : Run SchedStep start events state) :
    ∃ taskOf', Scheduled layout state (events.foldl survivors procs) taskOf' ∧
      NoFiles state (events.foldl survivors procs) taskOf' := by
  induction run with
  | nil => exact ⟨taskOf, scheduled, noFiles⟩
  | snoc _ step ih =>
    obtain ⟨taskOf', scheduled, noFiles⟩ := ih
    obtain ⟨taskOf', _, scheduled, noFiles, _⟩ := step.ring scheduled noFiles []
    rw [List.foldl_append]
    exact ⟨taskOf', scheduled, noFiles⟩

/-- **The process list.** After every run the children of `/proc` are the living processes, newest
first, and then `self`; none stands twice, the links are inverse to each other, and the current
process, if any, is a living one. -/
theorem process_list (booted : Boot boot initial)
    (started : schedulerInitialise allocator fuel zeroState initial = .ok () start)
    (run : Run SchedStep start events state) :
    ∃ first self procs, start.currentProc = some first ∧ state.selfProc = some self ∧
      procs = events.foldl survivors [first] ∧ state.ProcChildren (procs ++ [self]) ∧
      (procs ++ [self]).Nodup ∧ (∀ process ∈ procs, process ∈ state.live) ∧
      (∀ left ∈ procs ++ [self], ∀ right ∈ procs ++ [self],
        (state.node left).next = some right ↔ (state.node right).previous = some left) ∧
      (∀ head, (procs ++ [self]).head? = some head → (state.node head).previous = none) ∧
      ∀ process, state.currentProc = some process → process ∈ procs ∧ process ≠ self := by
  obtain ⟨layout, first, taskOf, here, scheduled, noFiles⟩ := scheduled_start booted started
  obtain ⟨taskOf, scheduled, _⟩ := scheduled_run scheduled noFiles run
  refine ⟨first, layout.self, _, here, scheduled.selfProc, rfl, scheduled.procChildren,
    scheduled.nodup, fun process member => scheduled.live process (.inr (.inr (.inr member))),
    fun left leftMember right rightMember =>
      links_inverse scheduled.children scheduled.back leftMember rightMember, ?_, ?_⟩
  · intro head first
    have back := scheduled.back
    obtain ⟨rest, split⟩ := List.head?_eq_some_iff.mp first
    rw [split] at back
    exact back.1
  · intro process current
    have member := scheduled.current process current
    exact ⟨member, scheduled.ne_self member⟩

end Runs

/-! ## A run with an exit -/

/-- The scheduler after its start over the bare root. -/
def sampleStart : KernelState 32 Unit :=
  stateAfter (schedulerInitialise .next 4 ()) (.bareRoot 32 ())

/-- A second process. -/
def sampleSecond : KernelState 32 Unit := stateAfter (schedulerCreateProc .next 4 ()) sampleStart

/-- A third process. -/
def sampleThird : KernelState 32 Unit := stateAfter (schedulerCreateProc .next 4 ()) sampleSecond

/-- The newest process is selected. -/
def sampleNewest : KernelState 32 Unit := stateAfter (commitNextProcess 4) sampleThird

/-- The process behind it is selected. -/
def sampleMiddle : KernelState 32 Unit := stateAfter (commitNextProcess 4) sampleNewest

/-- That process exits. -/
def sampleExit : KernelState 32 Unit := stateAfter (schedulerExit 8) sampleMiddle

/-- The newest process is selected again. -/
def sampleAgain : KernelState 32 Unit := stateAfter (commitNextProcess 4) sampleExit

/-- The start returns. -/
theorem sample_started : schedulerInitialise .next 4 () (.bareRoot 32 () : KernelState 32 Unit) =
    .ok () sampleStart := ok_of_resultOf (by decide +kernel)

/-- Both creations return. -/
theorem sample_created : Run SchedStep sampleStart [.create 6, .create 9] sampleThird :=
  .snoc (.snoc (.nil _) (.create .next 4 () (ok_of_resultOf (by decide +kernel))))
    (.create .next 4 () (ok_of_resultOf (by decide +kernel)))

/-- The newest process is selected. -/
theorem sample_newest : SchedStep sampleThird (.select (some 9)) sampleNewest := by
  have here : sampleNewest.currentProc = some 9 := by decide +kernel
  rw [← here]
  exact .select 4 (ok_of_resultOf (by decide +kernel))

/-- The process behind it is selected and exits. -/
theorem sample_exits :
    Run SchedStep sampleNewest [.select (some 6), .exit (some 6)] sampleExit := by
  have selected : sampleMiddle.currentProc = some 6 := by decide +kernel
  have middle : SchedStep sampleNewest (.select sampleMiddle.currentProc) sampleMiddle :=
    .select 4 (ok_of_resultOf (by decide +kernel))
  have exit : SchedStep sampleMiddle (.exit sampleMiddle.currentProc) sampleExit :=
    .exit 8 (ok_of_resultOf (by decide +kernel))
  rw [selected] at middle exit
  exact .snoc (.snoc (.nil _) middle) exit

/-- The newest process is selected again. -/
theorem sample_again : SchedStep sampleExit (.select (some 9)) sampleAgain := by
  have here : sampleAgain.currentProc = some 9 := by decide +kernel
  rw [← here]
  exact .select 4 (ok_of_resultOf (by decide +kernel))

/-- The list after the exit in the sample run. -/
theorem process_list_sample :
    ∃ first self procs, sampleStart.currentProc = some first ∧ sampleExit.selfProc = some self ∧
      procs = [.create 6, .create 9, .select (some 9), .select (some 6), .exit (some 6)].foldl
        survivors [first] ∧ sampleExit.ProcChildren (procs ++ [self]) ∧
      (procs ++ [self]).Nodup ∧ (∀ process ∈ procs, process ∈ sampleExit.live) ∧
      (∀ left ∈ procs ++ [self], ∀ right ∈ procs ++ [self],
        (sampleExit.node left).next = some right ↔
          (sampleExit.node right).previous = some left) ∧
      (∀ head, (procs ++ [self]).head? = some head → (sampleExit.node head).previous = none) ∧
      ∀ process, sampleExit.currentProc = some process → process ∈ procs ∧ process ≠ self :=
  process_list (Boot.bareRoot 32 ()) sample_started
    ((sample_created.snoc sample_newest).append sample_exits)

/-! ## Round robin -/

/-- An exit that lets no selected process overtake another: no process stands behind the leaving
one, or none in front of it was selected since it was created. -/
def FairLeave (state : KernelState width Registers) (selected : List Address)
    (process : Address) : Prop :=
  (state.node process).next = state.selfProc ∨
    ∀ front rest, state.ProcChildren (front ++ process :: rest) →
      ∀ earlier ∈ front, earlier ∉ selected

/-- A step of the scheduler with the processes selected since their creation, in which an exit
lets no selected process overtake another. -/
def FairSchedStep (before : KernelState width Registers × List Address) (event : SchedEvent)
    (after : KernelState width Registers × List Address) : Prop :=
  (∀ process, event = .exit (some process) → FairLeave before.1 before.2 process) ∧
    SchedStep before.1 event after.1 ∧ after.2 = observe before.2 event

section Fair

variable {layout : Layout} {first second : KernelState width Registers × List Address}
  {procs : List Address} {taskOf : Address → Address} {event : SchedEvent}
  {events : List SchedEvent}

/-- The ring of the processes. -/
def ringOf (procs : List Address) (state : KernelState width Registers × List Address) :
    Library.Ring Address :=
  ⟨procs, state.1.currentProc, state.2⟩

/-- The ring of a scheduled state is valid. -/
theorem Scheduled.ring_valid (scheduled : Scheduled layout first.1 procs taskOf) :
    (ringOf procs first).Valid :=
  ⟨(List.nodup_append.mp scheduled.nodup).1, scheduled.current⟩

/-- A fair exit of the scheduler is a fair exit of the ring. -/
theorem FairLeave.ring {process : Address} (fair : FairLeave first.1 first.2 process)
    (scheduled : Scheduled layout first.1 procs taskOf) (member : process ∈ procs) :
    (ringOf procs first).FairExit process := by
  obtain ⟨front, rest, rfl⟩ := List.append_of_mem member
  have absent : process ∉ front := fun inside =>
    (List.nodup_append.mp (List.nodup_append.mp scheduled.nodup).1).2.2 process inside process
      List.mem_cons_self rfl
  rw [Ring.FairExit, ringOf, (Ring.span_append absent).1, (Ring.span_append absent).2]
  rcases fair with last | unselected
  · left
    rw [scheduled.next, scheduled.selfProc] at last
    cases rest with
    | nil => rfl
    | cons later rest => exact absurd (Option.some.inj last) (scheduled.ne_self (by simp))
  · right
    have children := scheduled.procChildren
    rw [List.append_assoc, List.cons_append] at children
    exact unselected front _ children

/-- A fair step of the scheduler is a fair step of the ring. -/
theorem FairSchedStep.ring (step : FairSchedStep first event second)
    (scheduled : Scheduled layout first.1 procs taskOf) (noFiles : NoFiles first.1 procs taskOf) :
    ∃ taskOf' ringEvent, Scheduled layout second.1 (survivors procs event) taskOf' ∧
      NoFiles second.1 (survivors procs event) taskOf' ∧ event = ofRingEvent ringEvent ∧
      Ring.FairStep (ringOf procs first) ringEvent (ringOf (survivors procs event) second) := by
  obtain ⟨fair, move, seen⟩ := step
  obtain ⟨taskOf', ringEvent, scheduled', noFiles', rfl, ring⟩ :=
    move.ring scheduled noFiles first.2
  rw [← seen] at ring
  refine ⟨taskOf', ringEvent, scheduled', noFiles', rfl, fun process exit => ?_, ring⟩
  subst exit
  exact (fair process rfl).ring scheduled (scheduled.current process ring.exit_cursor)

/-- A fair run of the scheduler is a fair run of the ring. -/
theorem fair_run_ring (run : Run FairSchedStep first events second)
    (scheduled : Scheduled layout first.1 procs taskOf) (noFiles : NoFiles first.1 procs taskOf) :
    ∃ procs' taskOf' ringEvents, Scheduled layout second.1 procs' taskOf' ∧
      NoFiles second.1 procs' taskOf' ∧ events = ringEvents.map ofRingEvent ∧
      Run Ring.FairStep (ringOf procs first) ringEvents (ringOf procs' second) := by
  induction run with
  | nil => exact ⟨procs, taskOf, [], scheduled, noFiles, rfl, .nil _⟩
  | snoc _ step ih =>
    obtain ⟨procs', taskOf', ringEvents, scheduled, noFiles, rfl, run⟩ := ih
    obtain ⟨taskOf', ringEvent, scheduled, noFiles, rfl, ring⟩ := step.ring scheduled noFiles
    exact ⟨_, taskOf', _, scheduled, noFiles, by simp, run.snoc ring⟩

end Fair

/-- A selection of the scheduler is a selection of the ring. -/
theorem select_ringEvent {event : RingEvent Address} {process : Address}
    (same : SchedEvent.select (some process) = ofRingEvent event) : event = .select process := by
  cases event <;> simp_all [ofRingEvent]

/-- **Round robin.** In every run whose exits are fair, between two selections of one process every
other process that stays under `/proc` is selected. -/
theorem round_robin {initial start : KernelState width Registers} {boot : Finset Address}
    {allocator : Allocator} {fuel : Nat} {zeroState : Registers}
    {first second third last : KernelState width Registers × List Address}
    {history events : List SchedEvent} {process other self : Address} {children : List Address}
    (booted : Boot boot initial)
    (started : schedulerInitialise allocator fuel zeroState initial = .ok () start)
    (past : Run FairSchedStep (start, []) history first)
    (begins : FairSchedStep first (.select (some process)) second)
    (run : Run FairSchedStep second events third)
    (ends : FairSchedStep third (.select (some process)) last)
    (listed : second.1.ProcChildren children) (present : other ∈ children)
    (isSelf : second.1.selfProc = some self) (notSelf : other ≠ self)
    (different : other ≠ process)
    (stays : .exit (some other) ∉ events ∧ .exit (some process) ∉ events) :
    .select (some other) ∈ events := by
  obtain ⟨layout, initialProc, taskOf, _, scheduled, noFiles⟩ := scheduled_start booted started
  obtain ⟨procs, taskOf, _, scheduled, noFiles, _, _⟩ := fair_run_ring past scheduled noFiles
  obtain ⟨taskOf', beginEvent, scheduled', noFiles', beginIs, begins⟩ :=
    begins.ring scheduled noFiles
  obtain ⟨procs', taskOf'', ringEvents, scheduled'', noFiles'', rfl, ringRun⟩ :=
    fair_run_ring run scheduled' noFiles'
  obtain ⟨_, endEvent, _, _, endIs, ends⟩ := ends.ring scheduled'' noFiles''
  obtain rfl := select_ringEvent beginIs
  obtain rfl := select_ringEvent endIs
  have member : other ∈ survivors procs (.select (some process)) := by
    have inside : other ∈ survivors procs (.select (some process)) ++ [layout.self] :=
      scheduled'.procChildren.unique listed ▸ present
    have apart : other ≠ layout.self := fun same =>
      notSelf (same.trans (Option.some.inj (scheduled'.selfProc.symm.trans isSelf)))
    simpa [apart] using inside
  have chosen := Ring.selected_between scheduled.ring_valid begins ringRun ends member different
    ⟨fun leaves => stays.1 (List.mem_map_of_mem leaves),
      fun leaves => stays.2 (List.mem_map_of_mem leaves)⟩
  exact List.mem_map_of_mem chosen

/-- Two processes take turns. -/
def sampleTurn : Nat → KernelState 32 Unit
  | 0 => sampleSecond
  | count + 1 => stateAfter (commitNextProcess 4) (sampleTurn count)

/-- A turn of the two processes is a fair step. -/
theorem sampleTurn_step (count : Nat) (selected : List Address) (process : Address)
    (returned : resultOf (commitNextProcess 4) (sampleTurn count) = some ())
    (here : (sampleTurn (count + 1)).currentProc = some process) :
    FairSchedStep (sampleTurn count, selected) (.select (some process))
      (sampleTurn (count + 1), process :: selected) := by
  have step : SchedStep (sampleTurn count) (.select (sampleTurn (count + 1)).currentProc)
      (sampleTurn (count + 1)) := .select 4 (ok_of_resultOf returned)
  rw [here] at step
  exact ⟨fun _ exit => (by cases exit), step, rfl⟩

/-- Between two turns of one of the two processes the other one has its turn. -/
theorem round_robin_two : SchedEvent.select (some 3) ∈ [SchedEvent.select (some 3)] := by
  have created : FairSchedStep (sampleStart, []) (.create 6) (sampleSecond, []) :=
    ⟨fun _ exit => (by cases exit), .create .next 4 () (ok_of_resultOf (by decide +kernel)), rfl⟩
  have children : (sampleTurn 1).ProcChildren [6, 3, 2] :=
    ⟨1, by decide +kernel, by decide +kernel, by decide +kernel, by decide +kernel,
      (by decide +kernel : (sampleTurn 1).nextOf 2 = none)⟩
  have selfProc : (sampleTurn 1).selfProc = some 2 := by decide +kernel
  exact round_robin (Boot.bareRoot 32 ()) sample_started (.snoc (.nil _) created)
    (sampleTurn_step 0 [] 6 (by decide +kernel) (by decide +kernel))
    (.snoc (.nil _) (sampleTurn_step 1 [6] 3 (by decide +kernel) (by decide +kernel)))
    (sampleTurn_step 2 [3, 6] 6 (by decide +kernel) (by decide +kernel))
    children (by decide) selfProc (by decide) (by decide) (by decide)

/-- Without the condition the exit of the middle of three processes lets the newest one be selected
twice before the oldest one. -/
theorem exit_overtakes :
    ¬ ∀ (initial start first second third last : KernelState 32 Unit) (boot : Finset Address)
      (history events : List SchedEvent) (process other self : Address)
      (children : List Address), Boot boot initial →
      schedulerInitialise .next 4 () initial = .ok () start →
      Run SchedStep start history first → SchedStep first (.select (some process)) second →
      Run SchedStep second events third → SchedStep third (.select (some process)) last →
      second.ProcChildren children → other ∈ children → second.selfProc = some self →
      other ≠ self → other ≠ process → .exit (some other) ∉ events →
      .exit (some process) ∉ events → .select (some other) ∈ events := by
  intro claim
  have children : sampleNewest.ProcChildren [9, 6, 3, 2] :=
    ⟨1, by decide +kernel, by decide +kernel, by decide +kernel, by decide +kernel,
      by decide +kernel, (by decide +kernel : sampleNewest.nextOf 2 = none)⟩
  have chosen := claim _ _ _ _ _ _ _ _ _ 9 3 2 _ (Boot.bareRoot 32 ()) sample_started
    sample_created sample_newest sample_exits sample_again children (by decide)
    (by decide +kernel) (by decide) (by decide) (by decide) (by decide)
  exact absurd chosen (by decide)

end Unarddeg
