import Unarddeg.Kernel.Sched.Runs
import Unarddeg.Kernel.Vfs.Composed
import Unarddeg.Kernel.Vfs.Folded

/-!
# The link at `/proc/self`

`CommitNextProcess` keeps the link of `self` at the current process, but `SchedulerCreateProcDir`
makes the node without `VFS_LINK`, so that no path ever follows the link. The names of the
processes are digits, so the search in `/proc` passes them and stops at `self` itself, after
every run (`self_never_current`).
-/

namespace Unarddeg

open Library

variable {width : Nat} {Registers : Type}

/-! ## The names of the processes -/

/-- The name of `/proc/self` in its directory. -/
def selfDir : List UInt8 := cString ['s', 'e', 'l', 'f']

/-- The path of `/proc/self` from the root. -/
def selfPath : List UInt8 := joined (slash :: procDir) selfDir

/-- The first letter of that name. -/
def letterS : UInt8 := 's'.toUInt8

/-- A digit is not that letter. -/
theorem digit_ne (number : Nat) : UInt8.ofNat (number % 10 + 48) ≠ letterS := by
  intro same
  have value := congrArg UInt8.toNat same
  have letter : letterS.toNat = 115 := by decide
  rw [letter, UInt8.toNat_ofNat'] at value
  omega

/-- The digit loop writes digits. -/
theorem ulDigits_plain (remaining number : Nat) : letterS ∉ ulDigits remaining number := by
  induction remaining generalizing number with
  | zero => exact List.not_mem_nil
  | succ remaining ih =>
    rw [ulDigits, List.mem_cons, not_or]
    refine ⟨(digit_ne number).symm, ?_⟩
    split
    · exact List.not_mem_nil
    · exact ih _

/-- A byte of a string without the letter is not the letter, nor is what is read behind its end. -/
theorem getD_plain {bytes : List UInt8} (plain : letterS ∉ bytes) (index : Nat) :
    bytes.getD index 0 ≠ letterS := by
  by_cases inside : index < bytes.length
  · rw [List.getD_eq_getElem _ _ inside]
    exact fun same => plain (same ▸ List.getElem_mem inside)
  · rw [List.getD_eq_default _ _ (Nat.le_of_not_lt inside)]
    decide

/-- An exchange keeps a string without the letter. -/
theorem swapBytes_plain {bytes : List UInt8} (plain : letterS ∉ bytes) (left right : Nat) :
    letterS ∉ swapBytes bytes left right := by
  intro member
  rcases List.mem_or_eq_of_mem_set member with inside | same
  · rcases List.mem_or_eq_of_mem_set inside with old | same
    · exact plain old
    · exact getD_plain plain right same.symm
  · exact getD_plain plain left same.symm

/-- `UlToString` writes digits. -/
theorem ulToString_plain (size number : Nat) : letterS ∉ ulToString size number := by
  have start := ulDigits_plain (size * 3) number
  unfold ulToString
  generalize ulDigits (size * 3) number = digits at start
  dsimp only
  generalize List.range (digits.length - 1) = indices
  generalize digits.length - 1 = last
  induction indices generalizing digits with
  | nil => exact start
  | cons index indices ih => exact ih _ (swapBytes_plain start index (last - index))

/-- The name of a process has not the letter. -/
theorem processName_plain (width : Nat) (programIdentifier : UInt64) {node : VNode}
    (named : node.name = processName width programIdentifier) : letterS ∉ node.fullName := by
  unfold VNode.fullName
  rw [named]
  intro member
  obtain ⟨index, _, same⟩ := List.mem_map.mp member
  exact getD_plain (ulToString_plain _ _) index same

/-! ## The invariant -/

/-- The name of a node and what kind it is. -/
def VNode.kind (node : VNode) : VNodeString × Bool × Bool :=
  (node.name, hasFlag node.flags vfsLink, hasFlag node.flags vfsOnDisk)

/-- The node `self` has its name and is no link; the processes have other names. -/
structure SelfPlain (layout : Layout) (state : KernelState width Registers)
    (procs : List Address) : Prop where
  /-- The name of `self`. -/
  selfName : (state.node layout.self).name = ⟨selfDir, 4⟩
  /-- `self` is not marked as a link. -/
  selfPlain : hasFlag (state.node layout.self).flags vfsLink = false
  /-- The children of `/proc` are in memory. -/
  procMemory : hasFlag (state.node layout.proc).flags vfsOnDisk = false
  /-- A process has the name of its number. -/
  numbered : ∀ process ∈ procs, letterS ∉ (state.node process).fullName

namespace SelfPlain

variable {layout : Layout} {before after : KernelState width Registers}
  {procs procs' : List Address} {taskOf : Address → Address} {event : SchedEvent}

/-- A change that keeps the kinds of the nodes keeps the names. -/
theorem congr (plain : SelfPlain layout before procs) (members : ∀ other ∈ procs', other ∈ procs)
    (kinds : ∀ address, layout.IsNode procs address →
      (after.node address).kind = (before.node address).kind) :
    SelfPlain layout after procs' := by
  have own := kinds layout.self (.inr (.inr (.inl rfl)))
  have dir := kinds layout.proc (.inr (.inl rfl))
  constructor
  · exact (congrArg Prod.fst own).trans plain.selfName
  · exact (congrArg (fun kind => kind.2.1) own).trans plain.selfPlain
  · exact (congrArg (fun kind => kind.2.2) dir).trans plain.procMemory
  · intro process member
    have known : layout.IsNode procs process := .inr (.inr (.inr (members process member)))
    have name : (after.node process).name = (before.node process).name :=
      congrArg Prod.fst (kinds process known)
    unfold VNode.fullName
    rw [name]
    exact plain.numbered process (members process member)

/-- A creation keeps the names. -/
theorem create (plain : SelfPlain layout before procs)
    (scheduled : Scheduled layout before procs taskOf) {new data block : Address}
    {initialState : Registers} (fresh : FreshBlocks before.live new data block) :
    SelfPlain layout (before.creating layout.proc new data block initialState) (new :: procs) := by
  have old : SelfPlain layout (before.creating layout.proc new data block initialState) procs := by
    apply plain.congr
    · exact fun _ member => member
    · intro address known
      rw [creating_node scheduled initialState fresh (scheduled.live address known)]
      rfl
  exact { old with
    numbered := fun process member => by
      rcases List.mem_cons.mp member with rfl | listed
      · apply processName_plain width before.programIdentifier
        rw [creating_new scheduled fresh]
        rfl
      · exact old.numbered process listed }

/-- Each step keeps the names. -/
theorem step (plain : SelfPlain layout before procs)
    (scheduled : Scheduled layout before procs taskOf) (noFiles : NoFiles before procs taskOf)
    (step : SchedStep before event after) : SelfPlain layout after (survivors procs event) := by
  cases step with
  | create allocator fuel initialState returned =>
    obtain ⟨data, block, fresh, rfl⟩ := schedulerCreateProc_ok scheduled.found returned
    exact plain.create scheduled fresh
  | exit fuel returned =>
    obtain ⟨process, here⟩ := schedulerExit_current returned
    obtain ⟨front, rest, rfl⟩ := List.append_of_mem (scheduled.current process here)
    obtain ⟨rfl, _⟩ := schedulerExit_ok scheduled here (noFiles process (by simp))
        (by simp) returned
    rw [here]
    apply plain.congr
    · exact fun other member => List.mem_of_mem_erase member
    · intro address _
      apply exiting_field VNode.kind
      · intro node
        unfold VNode.kind
        rw [hasFlag_closed (by decide), hasFlag_closed (by decide)]
        rfl
      · exact fun _ _ => rfl
      · exact fun _ _ => rfl
      · exact fun _ _ => rfl
  | select fuel returned =>
    obtain ⟨process, next, rfl⟩ := commitNextProcess_ok scheduled returned
    apply plain.congr
    · exact fun _ member => member
    · intro address _
      simp only [KernelState.selecting, Function.update_apply]
      split_ifs with same
      · rw [same]
        rfl
      · rfl

/-- When the scheduler starts, the first process has its number for a name. -/
theorem start {boot : Finset Address} {proc self first data block : Address}
    {zeroState : Registers} (booted : Boot boot before) (procFresh : proc ∉ before.live)
    (selfFresh : self ∉ insert proc before.live)
    (fresh : FreshBlocks (before.withDir proc self).live first data block) :
    SelfPlain ⟨boot, proc, self⟩
      { (before.withDir proc self).creating proc first data block zeroState with
        currentProc := some first } [first] := by
  have nobody : SelfPlain ⟨boot, proc, self⟩
      { before.withDir proc self with proc := some proc, currentProc := none } [] := by
    constructor
    · exact congrArg VNode.name (withDir_self booted procFresh selfFresh)
    · dsimp only
      rw [withDir_self booted procFresh selfFresh]
      exact (by decide : hasFlag vfsSystem vfsLink = false)
    · dsimp only
      rw [withDir_proc booted procFresh selfFresh]
      exact (by decide : hasFlag processFlags vfsOnDisk = false)
    · exact fun process member => absurd member List.not_mem_nil
  have made : SelfPlain _ (KernelState.creating { before.withDir proc self with
      proc := some proc, currentProc := none } proc first data block zeroState) [first] :=
    nobody.create (booted.withDir procFresh selfFresh) fresh
  exact made.congr (fun _ member => member) fun _ _ => rfl

end SelfPlain

/-! ## The search for `self` -/

section Search

variable {layout : Layout} {state : KernelState width Registers} {procs : List Address}
  {taskOf : Address → Address} {fuel : Nat}

/-- The bytes of the two names. -/
theorem selfDir_plain : ∀ byte ∈ selfDir, byte ≠ 0 := plain_of_all (by decide)

/-- The walk to `/proc` arrives there. -/
theorem walk_procDir (scheduled : Scheduled layout state procs taskOf) (positive : 0 < fuel) :
    walk state.node fuel (some rootVNode) (slash :: procDir) = .ok (some layout.proc) := by
  obtain ⟨less, rfl⟩ : ∃ less, fuel = less + 1 := ⟨fuel - 1, by omega⟩
  have named : namedAs (state.node layout.proc) procDir = true := by
    rw [namedAs, scheduled.procName]
    decide
  rw [walk_slash, walk_single _ (by decide) (by decide),
    stepComponent_child (by decide) scheduled.rootPlain, scheduled.rootFirst, findChild,
    if_pos named]
  rfl

/-- The search in `/proc` passes the processes. -/
theorem findChild_selfDir (scheduled : Scheduled layout state procs taskOf)
    (plain : SelfPlain layout state procs) (enough : (procs ++ [layout.self]).length < fuel) :
    findChild state.node selfDir fuel (state.node layout.proc).firstChild =
      .ok (some layout.self) := by
  have passed : ∀ process ∈ procs, ¬ (state.node process).fullName = selfDir := by
    intro process member same
    apply plain.numbered process member
    rw [same]
    decide
  have found : (state.node layout.self).fullName = selfDir := by
    unfold VNode.fullName
    rw [plain.selfName]
    decide
  rw [findChild_eq selfDir_plain scheduled.children enough, List.find?_append,
    List.find?_eq_none.mpr (by simpa using passed)]
  simp [found]

/-- The walk to `/proc/self` arrives at the node itself. -/
theorem walk_selfPath (scheduled : Scheduled layout state procs taskOf)
    (plain : SelfPlain layout state procs) (enough : (procs ++ [layout.self]).length < fuel) :
    walk state.node fuel (some rootVNode) selfPath = .ok (some layout.self) := by
  unfold selfPath joined
  rw [walk_append, walk_procDir scheduled (by omega)]
  simp only [Except.bind]
  rw [walk_slash, walk_single _ (by decide) (by decide),
    stepComponent_child (by decide) plain.procMemory, findChild_selfDir scheduled plain enough]
  rfl

/-- `/proc/self` is the node itself. -/
theorem relativeFind_selfPath (scheduled : Scheduled layout state procs taskOf)
    (plain : SelfPlain layout state procs) (enough : (procs ++ [layout.self]).length < fuel) :
    relativeFind state.node fuel (some rootVNode) selfPath = .ok (some layout.self) := by
  have start : walkStart rootVNode selfPath = rootVNode := rfl
  rw [relativeFind_eq, start, walk_selfPath scheduled plain enough]
  simp [Except.bind, followLink, plain.selfPlain]

/-- A path behind `/proc/self` is resolved from the node itself. -/
theorem relativeFind_behind_selfPath (scheduled : Scheduled layout state procs taskOf)
    (plain : SelfPlain layout state procs) (enough : (procs ++ [layout.self]).length < fuel)
    {rest : List UInt8} (relative : IsRelative rest) :
    relativeFind state.node fuel (some rootVNode) (joined selfPath rest) =
      relativeFind state.node fuel (some layout.self) rest := by
  apply relativeFind_joined relative
  unfold ContinuesAt
  exact walk_selfPath scheduled plain enough

end Search

/-! ## Runs -/

/-- What `/proc/self` is for: it resolves to the current process, and so does the front of a path
behind it. -/
def SelfIsCurrent (state : KernelState width Registers) (fuel : Nat) : Prop :=
  relativeFind state.node fuel (some rootVNode) selfPath = .ok state.currentProc ∧
    ∀ rest, IsRelative rest →
      relativeFind state.node fuel (some rootVNode) (joined selfPath rest) =
        relativeFind state.node fuel state.currentProc rest

section Runs

variable {initial start middle state : KernelState width Registers} {boot : Finset Address}
  {allocator : Allocator} {fuel : Nat} {zeroState : Registers} {events : List SchedEvent}
  {selected : Pointer}

/-- Every run keeps the names. -/
theorem selfPlain_run {layout : Layout} {procs : List Address} {taskOf : Address → Address}
    (scheduled : Scheduled layout start procs taskOf) (noFiles : NoFiles start procs taskOf)
    (plain : SelfPlain layout start procs) (run : Run SchedStep start events state) :
    ∃ procs' taskOf', Scheduled layout state procs' taskOf' ∧ NoFiles state procs' taskOf' ∧
      SelfPlain layout state procs' := by
  induction run with
  | nil => exact ⟨procs, taskOf, scheduled, noFiles, plain⟩
  | snoc _ move ih =>
    obtain ⟨_, _, scheduled, noFiles, plain⟩ := ih
    obtain ⟨taskOf', _, scheduled', noFiles', _⟩ := move.ring scheduled noFiles []
    exact ⟨_, taskOf', scheduled', noFiles', plain.step scheduled noFiles move⟩

/-- **`/proc/self` is never the current process.** After every run that ends with a selection, the
path resolves to the node `self` itself, and a path behind it is resolved from there. -/
theorem self_never_current (booted : Boot boot initial)
    (started : schedulerInitialise allocator fuel zeroState initial = .ok () start)
    (run : Run SchedStep start events middle)
    (selects : SchedStep middle (.select selected) state) :
    ∃ self process children, state.selfProc = some self ∧ state.currentProc = some process ∧
      self ≠ process ∧ state.ProcChildren children ∧ ∀ enough, children.length < enough →
        relativeFind state.node enough (some rootVNode) selfPath = .ok (some self) ∧
        (∀ rest, IsRelative rest →
          relativeFind state.node enough (some rootVNode) (joined selfPath rest) =
            relativeFind state.node enough (some self) rest) ∧
        ¬ SelfIsCurrent state enough := by
  obtain ⟨proc, self, first, data, block, procFresh, selfFresh, fresh, rfl⟩ :=
    schedulerInitialise_ok booted started
  obtain ⟨procs, taskOf, scheduled, noFiles, plain⟩ :=
    selfPlain_run (booted.scheduled procFresh selfFresh fresh) .first
      (.start booted procFresh selfFresh fresh) run
  have plain' := plain.step scheduled noFiles selects
  obtain ⟨taskOf', _, scheduled', _⟩ := selects.ring scheduled noFiles []
  obtain ⟨process, here⟩ : ∃ process, state.currentProc = some process := by
    cases selects with
    | select fuel returned =>
      obtain ⟨process, _, rfl⟩ := commitNextProcess_ok scheduled returned
      exact ⟨process, rfl⟩
  have other := scheduled'.ne_self (scheduled'.current process here)
  refine ⟨self, process, _, scheduled'.selfProc, here, other.symm, scheduled'.procChildren, ?_⟩
  intro enough room
  have resolved := relativeFind_selfPath scheduled' plain' room
  refine ⟨resolved, ?_, ?_⟩
  · exact fun rest relative => relativeFind_behind_selfPath scheduled' plain' room relative
  · rintro ⟨current, _⟩
    rw [resolved, here] at current
    exact other (Option.some.inj (Except.ok.inj current)).symm

end Runs

/-- The newest of three processes is selected, and `/proc/self` is the node `self`. -/
theorem self_never_current_sample : ∃ self process children,
    sampleNewest.selfProc = some self ∧ sampleNewest.currentProc = some process ∧
      self ≠ process ∧ sampleNewest.ProcChildren children ∧ ∀ enough, children.length < enough →
        relativeFind sampleNewest.node enough (some rootVNode) selfPath = .ok (some self) ∧
        (∀ rest, IsRelative rest →
          relativeFind sampleNewest.node enough (some rootVNode) (joined selfPath rest) =
            relativeFind sampleNewest.node enough (some self) rest) ∧
        ¬ SelfIsCurrent sampleNewest enough :=
  self_never_current (Boot.bareRoot 32 ()) sample_started sample_created sample_newest

/-- With the process at `9` selected, `/proc/self` resolves to the node at `2`. -/
theorem self_not_followed : ¬ ∀ (start middle state : KernelState 32 Unit)
    (events : List SchedEvent) (selected : Pointer),
    schedulerInitialise .next 4 () (.bareRoot 32 ()) = .ok () start →
    Run SchedStep start events middle → SchedStep middle (.select selected) state →
    SelfIsCurrent state 8 := by
  intro claim
  obtain ⟨current, _⟩ := claim _ _ _ _ _ sample_started sample_created sample_newest
  have here : sampleNewest.currentProc = some 9 := by decide +kernel
  have resolved : relativeFind sampleNewest.node 8 (some rootVNode) selfPath = .ok (some 2) := by
    decide +kernel
  rw [here, resolved] at current
  cases current

end Unarddeg
