import Unarddeg.Kernel.Sched.Descriptors
import Unarddeg.Kernel.Sched.Runs

/-!
# Switching between processes

What the timer code of every port does with the kernel: it stores the registers of the interrupted
process in `ScratchProc`, calls `CommitProcessSave` and `CommitNextProcess`, and loads the registers
it finds in `ScratchProc`. These are the ones stored when the selected process was last
interrupted, or those it was created with (`switch_resumes`).
-/

namespace Unarddeg

open Library

variable {width : Nat} {Registers Saved Context : Type}

/-- The two halves of the timer code of a port. -/
structure Port (Registers Saved Context : Type) where
  /-- The registers stored for a processor. -/
  stores : Saved → Registers
  /-- What a process continues with when registers are loaded. -/
  loads : Registers → Context

/-- What a process was last given: the processor at its last interrupt, or its initial registers. -/
inductive Given (Registers Saved : Type)
  /-- The processor at the last interrupt. -/
  | interrupted (saved : Saved)
  /-- The registers it was created with. -/
  | created (initialState : Registers)

/-- The registers in the task of a process. -/
def Port.registers (port : Port Registers Saved Context) : Given Registers Saved → Registers
  | .interrupted saved => port.stores saved
  | .created initialState => initialState

/-- What happens to the processes and their registers. -/
inductive SwitchEvent (Registers Saved Context : Type)
  /-- The current process executes. -/
  | execute
  /-- A process was created with registers. -/
  | create (process : Address) (initialState : Registers)
  /-- The current process called `SchedulerExit`. -/
  | exit (process : Pointer)
  /-- The process that was interrupted, if any, the processor then, the process that is resumed,
  and what it continues with. -/
  | switch (interrupted : Pointer) (saved : Saved) (resumed : Pointer) (continued : Context)

/-- The kernel in a step of a port. -/
inductive SwitchStep (port : Port Registers Saved Context) : KernelState width Registers →
    SwitchEvent Registers Saved Context → KernelState width Registers → Prop
  | execute (state : KernelState width Registers) : SwitchStep port state .execute state
  | create {before after : KernelState width Registers} {process : Address}
      (allocator : Allocator) (fuel : Nat) (initialState : Registers)
      (returned : schedulerCreateProc allocator fuel initialState before = .ok process after) :
      SwitchStep port before (.create process initialState) after
  | exit {before after : KernelState width Registers} (fuel : Nat)
      (returned : schedulerExit fuel before = .ok () after) :
      SwitchStep port before (.exit before.currentProc) after
  | switch {before middle after : KernelState width Registers} (saved : Saved) (fuel : Nat)
      (stored : commitProcessSave { before with scratchProc := port.stores saved } =
        .ok () middle)
      (advanced : commitNextProcess fuel middle = .ok () after) :
      SwitchStep port before
        (.switch before.currentProc saved after.currentProc (port.loads after.scratchProc)) after

/-- What each process was last given, with another value for one of them. -/
def remember (given : Address → Option (Given Registers Saved)) (process : Pointer)
    (value : Option (Given Registers Saved)) : Address → Option (Given Registers Saved) :=
  match process with
  | none => given
  | some process => Function.update given process value

/-- What each process was last given, after an event. -/
def lastGiven (given : Address → Option (Given Registers Saved)) :
    SwitchEvent Registers Saved Context → Address → Option (Given Registers Saved)
  | .execute => given
  | .create process initialState => remember given (some process) (some (.created initialState))
  | .exit process => remember given process none
  | .switch interrupted saved _ _ => remember given interrupted (some (.interrupted saved))

/-- What each process was last given, after the events since the scheduler started with its first
process. -/
def givenAfter (first : Address) (zeroState : Registers)
    (events : List (SwitchEvent Registers Saved Context)) :
    Address → Option (Given Registers Saved) :=
  events.foldl lastGiven (Function.update (fun _ => none) first (some (.created zeroState)))

/-- A process that was just interrupted was last given its interrupt. -/
theorem givenAfter_interrupted (first process : Address) (zeroState : Registers)
    (events : List (SwitchEvent Registers Saved Context)) (saved : Saved) (resumed : Pointer)
    (continued : Context) :
    givenAfter first zeroState (events ++ [.switch (some process) saved resumed continued])
        process =
      some (.interrupted saved) := by
  rw [givenAfter, List.foldl_append]
  exact Function.update_self ..

/-- The invariant of the switches: the tasks hold the registers given to the processes, none of
which has descriptors. -/
structure Tasks (port : Port Registers Saved Context) (layout : Layout)
    (state : KernelState width Registers) (procs : List Address) (taskOf : Address → Address)
    (given : Address → Option (Given Registers Saved)) : Prop where
  /-- The processes are scheduled and have no descriptors. -/
  descriptors : Descriptors layout state procs taskOf fun _ => []
  /-- The registers in the task of each process. -/
  registers : ∀ process ∈ procs, ∃ value, given process = some value ∧
    (state.task (taskOf process)).registers = port.registers value

section Step

variable {layout : Layout} {before middle after state start : KernelState width Registers}
  {procs : List Address} {taskOf : Address → Address}
      {given : Address → Option (Given Registers Saved)}
  {port : Port Registers Saved Context} {event : SwitchEvent Registers Saved Context}
  {events : List (SwitchEvent Registers Saved Context)}

/-- What stands in `ScratchProc` between two switches does not matter. -/
theorem Tasks.scratch (holds : Tasks port layout state procs taskOf given)
    (scratchProc : Registers) :
    Tasks port layout { state with scratchProc } procs taskOf given :=
  ⟨holds.descriptors.congr { holds.descriptors.scheduled with } (fun _ => rfl) rfl rfl,
    holds.registers⟩

/-- A creation gives the new process its registers. -/
theorem Tasks.create (holds : Tasks port layout before procs taskOf given)
    {allocator : Allocator} {fuel : Nat} {initialState : Registers} {process : Address}
    (returned : schedulerCreateProc allocator fuel initialState before = .ok process after) :
    ∃ taskOf', Tasks port layout after (process :: procs) taskOf'
      (remember given (some process) (some (.created initialState))) := by
  have scheduled := holds.descriptors.scheduled
  obtain ⟨data, block, fresh, rfl⟩ := schedulerCreateProc_ok scheduled.found returned
  have descriptors := @Descriptors.create _ _ _ _ _ _ _ holds.descriptors _ _ _ initialState fresh
  rw [Function.update_eq_self process fun _ : Address => ([] : List Address)] at descriptors
  refine ⟨_, descriptors, fun member inside => ?_⟩
  rcases List.mem_cons.mp inside with rfl | old
  · exact ⟨.created initialState, by simp [remember],
      by simp [KernelState.creating, KernelState.making, Port.registers]⟩
  · have notNew : member ≠ process :=
      (fresh.ne (scheduled.live member (.inr (.inr (.inr old))))).1
    have notData : taskOf member ≠ data := (fresh.ne (scheduled.task member old).1).2.1
    rw [remember, Function.update_of_ne notNew, Function.update_of_ne notNew]
    simpa [KernelState.creating, KernelState.making, notData] using holds.registers member old

/-- An exit takes the registers of the leaving process away. -/
theorem Tasks.exit (holds : Tasks port layout before procs taskOf given) {fuel : Nat}
    (returned : schedulerExit fuel before = .ok () after) :
    Tasks port layout after (survivors procs (.exit before.currentProc)) taskOf
      (remember given before.currentProc none) := by
  have scheduled := holds.descriptors.scheduled
  obtain ⟨process, here⟩ := schedulerExit_current returned
  obtain ⟨front, rest, rfl⟩ := List.append_of_mem (scheduled.current process here)
  obtain ⟨rfl, _⟩ := schedulerExit_ok scheduled here (holds.descriptors.files process (by simp))
    (by simp) returned
  have absent : process ∉ front := fun member =>
    (List.nodup_append.mp (List.nodup_append.mp scheduled.nodup).1).2.2 process member process
      List.mem_cons_self rfl
  rw [here, survivors, List.erase_append_right _ absent, List.erase_cons_head]
  refine ⟨holds.descriptors.exit (by simp), fun member inside => ?_⟩
  obtain ⟨old, other⟩ := (mem_remaining scheduled).mp inside
  rw [remember, Function.update_of_ne other]
  simpa [KernelState.exiting, KernelState.closing] using holds.registers member old

/-- A switch saves the registers of the interrupted process and loads those of the selected one. -/
theorem Tasks.switch (holds : Tasks port layout before procs taskOf given) {fuel : Nat}
    {saved : Saved}
    (stored : commitProcessSave { before with scratchProc := port.stores saved } = .ok () middle)
    (advanced : commitNextProcess fuel middle = .ok () after) :
    Tasks port layout after procs taskOf
        (remember given before.currentProc (some (.interrupted saved))) ∧
      ∃ process value, after.currentProc = some process ∧
        remember given before.currentProc (some (.interrupted saved)) process = some value ∧
        after.scratchProc = port.registers value := by
  have descriptors := (holds.scratch (port.stores saved)).descriptors
  have scheduled := descriptors.scheduled
  -- The state between the two calls.
  have kept : Tasks port layout middle procs taskOf
      (remember given before.currentProc (some (.interrupted saved))) := by
    rcases commitProcessSave_ok scheduled stored with ⟨absent, rfl⟩ | ⟨process, here, rfl⟩
    · have nobody : remember given before.currentProc (some (.interrupted saved)) = given := by
        rw [show before.currentProc = none from absent]
        rfl
      rw [nobody]
      exact ⟨descriptors, holds.registers⟩
    · have somebody : remember given before.currentProc (some (.interrupted saved)) =
          Function.update given process (some (.interrupted saved)) := by
        rw [show before.currentProc = some process from here]
        rfl
      rw [somebody]
      refine ⟨descriptors.congr (scheduled.setTask _ _) (fun task => ?_) rfl rfl,
        fun member inside => ?_⟩
      · simp only [KernelState.setTask, Function.update_apply]
        split_ifs with same
        · rw [same]
        · rfl
      · by_cases same : member = process
        · subst same
          exact ⟨.interrupted saved, by simp, by simp [KernelState.setTask, Port.registers]⟩
        · have other : taskOf member ≠ taskOf process := fun shared =>
            same (scheduled.distinct member inside process (scheduled.current process here) shared)
          rw [Function.update_of_ne same]
          simpa [KernelState.setTask, other] using holds.registers member inside
  obtain ⟨process, next, rfl⟩ := commitNextProcess_ok kept.descriptors.scheduled advanced
  have member := Ring.successor_mem next
  obtain ⟨value, given, registers⟩ := kept.registers process member
  exact ⟨⟨kept.descriptors.congr (kept.descriptors.scheduled.select member) (fun _ => rfl) rfl rfl,
    kept.registers⟩, process, value, rfl, given, registers⟩

/-- A step keeps the registers in the tasks. -/
theorem SwitchStep.tasks (step : SwitchStep port before event after)
    (holds : Tasks port layout before procs taskOf given) :
    ∃ procs' taskOf', Tasks port layout after procs' taskOf' (lastGiven given event) := by
  cases step with
  | execute => exact ⟨procs, taskOf, holds⟩
  | create allocator fuel initialState returned => exact ⟨_, holds.create returned⟩
  | exit fuel returned => exact ⟨_, taskOf, holds.exit returned⟩
  | switch saved fuel stored advanced => exact ⟨procs, taskOf, (holds.switch stored advanced).1⟩

/-- Every run keeps the registers in the tasks. -/
theorem tasks_run (holds : Tasks port layout start procs taskOf given)
    (run : Run (SwitchStep port) start events state) :
    ∃ procs' taskOf', Tasks port layout state procs' taskOf' (events.foldl lastGiven given) := by
  induction run with
  | nil => exact ⟨procs, taskOf, holds⟩
  | snoc _ step ih =>
    obtain ⟨procs', taskOf', holds⟩ := ih
    rw [List.foldl_append]
    exact step.tasks holds

/-- A switch changes no field of a task but its registers. -/
theorem SwitchStep.fields {interrupted resumed : Pointer} {saved : Saved} {continued : Context}
    (holds : Tasks port layout before procs taskOf given)
    (step : SwitchStep port before (.switch interrupted saved resumed continued) after)
    (task : Address) : (after.task task).programIdentifier = (before.task task).programIdentifier ∧
      (after.task task).files = (before.task task).files ∧
      (after.task task).baseDir = (before.task task).baseDir := by
  cases step with
  | switch saved fuel stored advanced =>
    have scheduled := (holds.scratch (port.stores saved)).descriptors.scheduled
    rcases commitProcessSave_ok scheduled stored with ⟨_, rfl⟩ | ⟨process, _, rfl⟩
    · obtain ⟨_, _, rfl⟩ := commitNextProcess_ok scheduled advanced
      exact ⟨rfl, rfl, rfl⟩
    · obtain ⟨_, _, rfl⟩ := commitNextProcess_ok (scheduled.setTask _ _) advanced
      simp only [KernelState.selecting, KernelState.setTask, Function.update_apply]
      split_ifs with same
      · rw [same]
        exact ⟨rfl, rfl, rfl⟩
      · exact ⟨rfl, rfl, rfl⟩

/-- A switch continues with the registers of the selected process. -/
theorem SwitchStep.resumes {interrupted resumed : Pointer} {saved : Saved} {continued : Context}
    (holds : Tasks port layout before procs taskOf given)
    (step : SwitchStep port before (.switch interrupted saved resumed continued) after) :
    ∃ process value, resumed = some process ∧
      lastGiven given (.switch interrupted saved resumed continued) process = some value ∧
      continued = port.loads (port.registers value) := by
  cases step with
  | switch saved fuel stored advanced =>
    obtain ⟨_, process, value, selected, last, registers⟩ := holds.switch stored advanced
    exact ⟨process, value, selected, last, congrArg port.loads registers⟩

/-- When the scheduler starts, the first process has zero registers. -/
theorem tasks_start {initial : KernelState width Registers} {boot : Finset Address}
    {allocator : Allocator} {fuel : Nat} {zeroState : Registers} (booted : Boot boot initial)
    (started : schedulerInitialise allocator fuel zeroState initial = .ok () start)
    (port : Port Registers Saved Context) :
    ∃ layout first taskOf, start.currentProc = some first ∧ Tasks port layout start [first] taskOf
      (Function.update (fun _ => none) first (some (.created zeroState))) := by
  obtain ⟨proc, self, first, data, block, procFresh, selfFresh, fresh, rfl⟩ :=
    schedulerInitialise_ok booted started
  have descriptors := @Descriptors.start _ _ _ _ _ _ _ _ _ zeroState booted procFresh selfFresh
      fresh
  rw [Function.update_eq_self first fun _ : Address => ([] : List Address)] at descriptors
  refine ⟨_, first, _, rfl, descriptors, fun process member => ?_⟩
  obtain rfl := List.mem_singleton.mp member
  refine ⟨.created zeroState, by simp, ?_⟩
  simp [KernelState.creating, KernelState.making, Port.registers]

/-- **Switching.** In every run a resumed process continues with what its registers were when it was
last interrupted, or with what it was created with. -/
theorem switch_resumes {initial : KernelState width Registers} {boot : Finset Address}
    {allocator : Allocator} {fuel : Nat} {zeroState : Registers} (booted : Boot boot initial)
    (started : schedulerInitialise allocator fuel zeroState initial = .ok () start)
    (run : Run (SwitchStep port) start events state) {interrupted resumed : Pointer}
    {saved : Saved} {continued : Context}
    (step : SwitchStep port state (.switch interrupted saved resumed continued) after) :
    ∃ first process value, start.currentProc = some first ∧ resumed = some process ∧
      givenAfter first zeroState (events ++ [.switch interrupted saved resumed continued]) process =
        some value ∧
      continued = port.loads (port.registers value) ∧
      ∀ task, (after.task task).programIdentifier = (state.task task).programIdentifier ∧
        (after.task task).files = (state.task task).files ∧
        (after.task task).baseDir = (state.task task).baseDir := by
  obtain ⟨layout, first, taskOf, here, holds⟩ := tasks_start booted started port
  obtain ⟨procs, taskOf, holds⟩ := tasks_run holds run
  obtain ⟨process, value, selected, given, continues⟩ := step.resumes holds
  refine ⟨first, process, value, here, selected, ?_, continues, step.fields holds⟩
  rw [givenAfter, List.foldl_append]
  exact given

end Step

end Unarddeg
