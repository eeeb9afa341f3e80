import Mathlib

/-!
# Stoppable computations and their runs

A computation over a state either returns a value or stops with a reason, and keeps the state
it stopped in; `EStateM` is that monad. The rules below read a successful computation backwards,
one constructor at a time, so that a proof about a function never unfolds the monad. `Run` is a
finite sequence of labelled steps, and `Run.invariant` is the one induction over it: a property
that every step keeps holds at the end of every run that starts in it.
-/

namespace Unarddeg.Library

section Exec

variable {ε σ α β : Type}

/-- A sequence returns exactly when its two parts return one after the other. -/
theorem bind_ok {first : EStateM ε σ α} {next : α → EStateM ε σ β} {before after : σ}
    {result : β} :
    (first >>= next) before = .ok result after ↔
      ∃ value middle, first before = .ok value middle ∧ next value middle = .ok result after := by
  constructor
  · intro returned
    cases head : first before with
    | ok value middle =>
      refine ⟨value, middle, rfl, ?_⟩
      simpa [bind, EStateM.bind, head] using returned
    | error reason middle => simp [bind, EStateM.bind, head] at returned
  · rintro ⟨value, middle, head, tail⟩
    simpa [bind, EStateM.bind, head] using tail

/-- A sequence whose first part returns continues with its second part. -/
theorem bind_of_ok {first : EStateM ε σ α} {next : α → EStateM ε σ β} {before middle : σ}
    {value : α} (head : first before = .ok value middle) :
    (first >>= next) before = next value middle := by
  simp [bind, EStateM.bind, head]

/-- A sequence whose first part stops has stopped there. -/
theorem bind_of_error {first : EStateM ε σ α} {next : α → EStateM ε σ β} {before middle : σ}
    {reason : ε} (head : first before = .error reason middle) :
    (first >>= next) before = .error reason middle := by
  simp [bind, EStateM.bind, head]

/-- A sequence stops exactly when its first part stops, or its second part after the first one. -/
theorem bind_error {first : EStateM ε σ α} {next : α → EStateM ε σ β} {before stopped : σ}
    {reason : ε} :
    (first >>= next) before = .error reason stopped ↔
      first before = .error reason stopped ∨
        ∃ value middle, first before = .ok value middle ∧
          next value middle = .error reason stopped := by
  cases head : first before with
  | ok value middle =>
    rw [bind_of_ok head]
    simp
  | error cause middle =>
    rw [bind_of_error head]
    simp

/-- Returning a value changes nothing. -/
theorem pure_ok {value result : α} {before after : σ} :
    (pure value : EStateM ε σ α) before = .ok result after ↔ value = result ∧ before = after := by
  simp [pure, EStateM.pure]

/-- Reading the state returns it unchanged. -/
theorem get_ok {before after result : σ} :
    (get : EStateM ε σ σ) before = .ok result after ↔ before = result ∧ before = after := by
  simp [get, getThe, MonadStateOf.get, EStateM.get]

/-- Updating the state always returns. -/
theorem modify_ok {update : σ → σ} {before after : σ} {result : PUnit} :
    (modify update : EStateM ε σ PUnit) before = .ok result after ↔ update before = after := by
  simp [modify, modifyGet, MonadStateOf.modifyGet, EStateM.modifyGet]

/-- Replacing the state always returns. -/
theorem set_ok {replacement before after : σ} {result : PUnit} :
    (set replacement : EStateM ε σ PUnit) before = .ok result after ↔ replacement = after := by
  simp [set, MonadStateOf.set, EStateM.set]

/-- A stopped computation never returns. -/
theorem throw_ok {reason : ε} {before after : σ} {result : α} :
    (throw reason : EStateM ε σ α) before = .ok result after ↔ False := by
  simp [throw, throwThe, MonadExceptOf.throw, EStateM.throw]

/-- A conditional computation returns as the branch that is taken. -/
theorem ite_ok {test : Prop} [Decidable test] {yes no : EStateM ε σ α} {before after : σ}
    {result : α} :
    (if test then yes else no) before = .ok result after ↔
      (test ∧ yes before = .ok result after) ∨ (¬ test ∧ no before = .ok result after) := by
  by_cases holds : test <;> simp [holds]

/-- A loop over a list ends where the effects of its rounds lead, one after the other. -/
theorem forM_ok {ι : Type} {body : ι → EStateM ε σ PUnit} {effect : σ → ι → σ}
    (each : ∀ item before after, body item before = .ok ⟨⟩ after → after = effect before item)
    {items : List ι} {before after : σ} {result : PUnit}
    (returned : items.forM body before = .ok result after) :
    after = items.foldl effect before := by
  induction items generalizing before with
  | nil => exact ((pure_ok).mp returned).2.symm
  | cons item items ih =>
    obtain ⟨_, middle, first, rest⟩ := bind_ok.mp returned
    obtain rfl := each item before middle first
    exact ih rest

/-- The value that a computation returns, if it returns. -/
def resultOf (action : EStateM ε σ α) (before : σ) : Option α :=
  match action before with
  | .ok value _ => some value
  | .error _ _ => none

/-- The state in which a computation ends. -/
def stateAfter (action : EStateM ε σ α) (before : σ) : σ :=
  match action before with
  | .ok _ after => after
  | .error _ after => after

/-- A computation with a result returns it and its last state. -/
theorem ok_of_resultOf {action : EStateM ε σ α} {before : σ} {value : α}
    (result : resultOf action before = some value) :
    action before = .ok value (stateAfter action before) := by
  cases ended : action before with
  | ok returned after => simp_all [resultOf, stateAfter]
  | error reason after => simp [resultOf, ended] at result

end Exec

section Runs

variable {σ ι : Type*}

/-- A finite sequence of labelled steps from one state to another. -/
inductive Run (step : σ → ι → σ → Prop) : σ → List ι → σ → Prop
  /-- The empty run stays where it is. -/
  | nil (state : σ) : Run step state [] state
  /-- One more step at the end of a run. -/
  | snoc {first middle last : σ} {labels : List ι} {label : ι} :
      Run step first labels middle → step middle label last →
        Run step first (labels ++ [label]) last

namespace Run

variable {step : σ → ι → σ → Prop} {first last : σ} {labels : List ι}

/-- A property that every step keeps holds after every run that starts in it. -/
theorem invariant (good : σ → Prop)
    (keep : ∀ state label next, good state → step state label next → good next)
    (run : Run step first labels last) : good first → good last := by
  induction run with
  | nil => exact id
  | snoc _ move ih => exact fun start => keep _ _ _ (ih start) move

/-- A run that starts where another one ends continues it. -/
theorem append {middle : σ} {more : List ι} (run : Run step first labels middle)
    (next : Run step middle more last) : Run step first (labels ++ more) last := by
  induction next with
  | nil => simpa using run
  | snoc _ move ih => exact List.append_assoc .. ▸ ih.snoc move

/-- A run with one label is one step. -/
theorem single {label : ι} (run : Run step first [label] last) : step first label last := by
  generalize same : [label] = labels at run
  cases run with
  | nil => cases same
  | @snoc _ _ before _ earlier move =>
    rw [List.singleton_eq_append_iff] at same
    rcases same with ⟨rfl, last⟩ | ⟨_, empty⟩
    · obtain rfl := List.singleton_inj.mp last
      generalize nothing : ([] : List ι) = blank at earlier
      cases earlier with
      | nil => exact move
      | snoc => simp at nothing
    · cases empty

/-- A run is a run of every system that its steps refine. -/
theorem map {τ : Type} {abstract : τ → ι → τ → Prop} (view : σ → τ)
    (refines : ∀ state label next, step state label next →
      abstract (view state) label (view next))
    (run : Run step first labels last) : Run abstract (view first) labels (view last) := by
  induction run with
  | nil => exact .nil _
  | snoc _ move ih => exact .snoc ih (refines _ _ _ move)

/-- A run of steps that refine another system only while they keep a property is a run of that
system, and ends with the property. -/
theorem refine {τ : Type*} {abstract : τ → ι → τ → Prop} (view : σ → τ) (good : σ → Prop)
    (refines : ∀ state label next, good state → step state label next →
      abstract (view state) label (view next) ∧ good next)
    (run : Run step first labels last) (start : good first) :
    Run abstract (view first) labels (view last) ∧ good last := by
  induction run with
  | nil => exact ⟨.nil _, start⟩
  | snoc _ move ih =>
    obtain ⟨before, kept⟩ := ih
    obtain ⟨step, keeps⟩ := refines _ _ _ kept move
    exact ⟨.snoc before step, keeps⟩

end Run

end Runs

section Update

variable {ι α : Type} [DecidableEq α] {β : Type}

/-- Updates at the images of a list keep every other place. -/
theorem foldl_update_of_ne {place : ι → α} {value : ι → β} {items : List ι} {start : α → β}
    {other : α} (apart : ∀ item ∈ items, place item ≠ other) :
    items.foldl (fun values item => Function.update values (place item) (value item)) start other =
      start other := by
  induction items generalizing start with
  | nil => rfl
  | cons item items ih =>
    rw [List.foldl_cons, ih fun later member => apart later (List.mem_cons_of_mem _ member),
      Function.update_of_ne (apart item List.mem_cons_self).symm]

/-- Updates at different places leave at each of them its own value. -/
theorem foldl_update_of_mem {place : ι → α} (different : Function.Injective place)
    {value : ι → β} {items : List ι} {start : α → β} {item : ι} (member : item ∈ items) :
    items.foldl (fun values item => Function.update values (place item) (value item)) start
      (place item) = value item := by
  induction items generalizing start with
  | nil => cases member
  | cons first items ih =>
    rw [List.foldl_cons]
    by_cases later : item ∈ items
    · exact ih later
    · obtain rfl := (List.mem_cons.mp member).resolve_right later
      have apart : ∀ other ∈ items, place other ≠ place item := fun other inside same =>
        later ((different same : other = item) ▸ inside)
      rw [foldl_update_of_ne apart, Function.update_self]

end Update

end Unarddeg.Library
