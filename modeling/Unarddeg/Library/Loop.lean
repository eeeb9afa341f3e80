import Unarddeg.Library.Exec

/-!
# Counting loops

A C loop `for (i = 0; test(i); i++)` whose body may return from the function. `Reaches` says which
rounds it begins, and in which states. Where the body of each round acts as a list of pure steps the
loop runs all the steps in a row (`loop_runAll`).
-/

namespace Unarddeg.Library

section Loop

variable {ε σ : Type}

/-- A loop over an index, of at most some rounds. It returns `false` when its body does. -/
def loop (test body : Nat → EStateM ε σ Bool) : (count index : Nat) → EStateM ε σ Bool
  | 0, _ => pure true
  | count + 1, index => do
    if ← test index then
      if ← body index then loop test body count (index + 1)
      else pure false
    else pure true

/-- The rounds that a loop begins, and the states they begin in. -/
inductive Reaches (test body : Nat → EStateM ε σ Bool) : Nat → σ → Nat → σ → Prop
  /-- The first round begins where the loop does. -/
  | start (index : Nat) (state : σ) : Reaches test body index state index state
  /-- The next round begins where a round ended. -/
  | next {index last : Nat} {state tested middle reached : σ} :
      test index state = .ok true tested → body index tested = .ok true middle →
        Reaches test body (index + 1) middle last reached →
          Reaches test body index state last reached

/-- A loop only goes on. -/
theorem Reaches.le {test body : Nat → EStateM ε σ Bool} {index last : Nat} {state reached : σ}
    (reach : Reaches test body index state last reached) : index ≤ last := by
  induction reach with
  | start => exact Nat.le_refl _
  | next _ _ _ ih => exact Nat.le_of_succ_le ih

/-- Some steps in a row. A step that fails ends the row and leaves the state. -/
def runAll : List (σ → Option σ) → σ → Bool × σ
  | [], state => (true, state)
  | step :: steps, state =>
    match step state with
    | some next => runAll steps next
    | none => (false, state)

/-- The result of some steps in a row, as a computation. -/
def running (steps : List (σ → Option σ)) : EStateM ε σ Bool := fun state =>
  .ok (runAll steps state).1 (runAll steps state).2

variable {steps more : List (σ → Option σ)} {state : σ}

/-- Steps that are run one after the other. -/
theorem runAll_append : runAll (steps ++ more) state =
    if (runAll steps state).1 then runAll more (runAll steps state).2 else runAll steps state := by
  induction steps generalizing state with
  | nil => rfl
  | cons step steps ih =>
    rw [List.cons_append, runAll, runAll]
    cases step state with
    | none => rfl
    | some next => exact ih

/-- What every step keeps, a row of them keeps. -/
theorem runAll_keeps {good : σ → Prop}
    (keep : ∀ step ∈ steps, ∀ state next, good state → step state = some next → good next)
    (start : good state) : good (runAll steps state).2 := by
  induction steps generalizing state with
  | nil => exact start
  | cons step steps ih =>
    rw [runAll]
    cases taken : step state with
    | none => exact start
    | some next =>
      exact ih (fun later member => keep later (List.mem_cons_of_mem _ member))
        (keep step List.mem_cons_self state next start taken)

section Optional

variable {ι β : Type} {value : ι → Option β} {effect : ι → β → σ → σ} {items : List ι}

/-- Steps that each need a value are all taken exactly when all have one. -/
theorem runAll_optional :
    (runAll (items.map fun item state => (value item).map (effect item · state)) state).1 = true ↔
      ∀ item ∈ items, value item ≠ none := by
  induction items generalizing state with
  | nil => simp [runAll]
  | cons item items ih =>
    rw [List.map_cons, runAll, List.forall_mem_cons]
    cases found : value item with
    | none => simp
    | some result =>
      rw [Option.map_some]
      exact ih.trans (by simp)

/-- Steps that each have their value are taken one after the other. -/
theorem runAll_effects {default : β} (all : ∀ item ∈ items, value item ≠ none) :
    (runAll (items.map fun item state => (value item).map (effect item · state)) state).2 =
      items.foldl (fun state item => effect item ((value item).getD default) state) state := by
  induction items generalizing state with
  | nil => rfl
  | cons item items ih =>
    obtain ⟨first, rest⟩ := List.forall_mem_cons.mp all
    rw [List.map_cons, runAll, List.foldl_cons]
    cases found : value item with
    | none => exact absurd found first
    | some result =>
      rw [Option.map_some]
      exact ih rest

end Optional

/-- A loop whose rounds act as rows of steps runs all of them. -/
theorem loop_runAll {test body : Nat → EStateM ε σ Bool} {good : σ → Prop} {rounds : Nat}
    {acts : Nat → List (σ → Option σ)}
    (tests : ∀ index state, good state → test index state = .ok (decide (index < rounds)) state)
    (bodies : ∀ index < rounds, ∀ state, good state → body index state = running (acts index) state)
    (keep : ∀ index < rounds, ∀ step ∈ acts index, ∀ state next, good state →
      step state = some next → good next)
    {count index : Nat} (first : index ≤ rounds) (enough : rounds ≤ index + count)
    (start : good state) :
    loop test body count index state =
      running ((List.range' index (rounds - index)).flatMap acts) state := by
  induction count generalizing index state with
  | zero =>
    obtain rfl : index = rounds := by omega
    simp [loop, running, runAll, pure, EStateM.pure]
  | succ count ih =>
    rw [loop, bind_of_ok (tests index state start)]
    by_cases more : index < rounds
    · have kept := runAll_keeps (keep index more) start
      obtain ⟨left, split⟩ : ∃ left, rounds - index = left + 1 := ⟨rounds - index - 1, by omega⟩
      have rest : left = rounds - (index + 1) := by omega
      rw [decide_eq_true more, if_pos rfl, bind_of_ok (bodies index more state start), split,
        List.range'_succ, List.flatMap_cons, rest, running, runAll_append]
      cases ended : (runAll (acts index) state).1 with
      | false => simp [pure, EStateM.pure, ended]
      | true => exact ih (by omega) (by omega) kept
    · obtain rfl : index = rounds := by omega
      simp [running, runAll, pure, EStateM.pure]

/-- In a loop that returns `true` the body of every round that it reaches and tests returns
`true`. -/
theorem loop_true {test body : Nat → EStateM ε σ Bool} {count index last : Nat}
    {after reached tested : σ} (returned : loop test body count index state = .ok true after)
    (reach : Reaches test body index state last reached) (inside : last < index + count)
    (more : test last reached = .ok true tested) : ∃ next, body last tested = .ok true next := by
  induction reach generalizing count with
  | start index state =>
    obtain ⟨rounds, rfl⟩ : ∃ rounds, count = rounds + 1 := ⟨count - 1, by omega⟩
    rw [loop, bind_of_ok more, if_pos rfl] at returned
    obtain ⟨done, middle, taken, rest⟩ := bind_ok.mp returned
    cases done with
    | true => exact ⟨middle, taken⟩
    | false => exact absurd (pure_ok.mp rest).1 (by decide)
  | next tests taken later ih =>
    have above := later.le
    obtain ⟨rounds, rfl⟩ : ∃ rounds, count = rounds + 1 := ⟨count - 1, by omega⟩
    rw [loop, bind_of_ok tests, if_pos rfl, bind_of_ok taken, if_pos rfl] at returned
    exact ih returned (by omega) more

/-- What the body of every round that it reaches keeps, a loop keeps. -/
theorem loop_keeps {τ : Type} {view : σ → τ} {test body : Nat → EStateM ε σ Bool}
    (tests : ∀ index state result tested, test index state = .ok result tested → tested = state)
    {count index : Nat}
    (bodies : ∀ last reached result next, Reaches test body index state last reached →
      test last reached = .ok true reached → body last reached = .ok result next →
        view next = view reached)
    {result : Bool} {after : σ} (returned : loop test body count index state = .ok result after) :
    view after = view state := by
  induction count generalizing index state with
  | zero => rw [← (pure_ok.mp returned).2]
  | succ count ih =>
    obtain ⟨more, tested, tries, rest⟩ := bind_ok.mp returned
    obtain rfl := tests _ _ _ _ tries
    rcases ite_ok.mp rest with ⟨rfl, rest⟩ | ⟨_, done⟩
    · obtain ⟨goesOn, middle, taken, rest⟩ := bind_ok.mp rest
      have kept := bodies index tested goesOn middle (.start index tested) tries taken
      rcases ite_ok.mp rest with ⟨rfl, rest⟩ | ⟨_, done⟩
      · exact (ih (fun last reached result next reach =>
          bodies last reached result next (.next tries taken reach)) rest).trans kept
      · rw [← (pure_ok.mp done).2, kept]
    · rw [← (pure_ok.mp done).2]

/-- A loop over numbers in a row goes through a sequence of states. -/
theorem forM_range'_ok {body : Nat → EStateM ε σ PUnit} {state : Nat → σ} {start count : Nat}
    (each : ∀ index, start ≤ index → index < start + count →
      body index (state index) = .ok ⟨⟩ (state (index + 1))) :
    (List.range' start count).forM body (state start) = .ok ⟨⟩ (state (start + count)) := by
  induction count generalizing start with
  | zero => rfl
  | succ count ih =>
    have rest := @ih (start + 1) fun index above below => each index (by omega) (by omega)
    show (body start >>= fun _ => (List.range' (start + 1) count).forM body) (state start) = _
    rw [bind_of_ok (each start (Nat.le_refl _) (by omega)), rest, Nat.add_right_comm]
    rfl

/-- A loop over the first numbers goes through a sequence of states. -/
theorem forM_range_ok {body : Nat → EStateM ε σ PUnit} {state : Nat → σ} {count : Nat}
    (each : ∀ index < count, body index (state index) = .ok ⟨⟩ (state (index + 1))) :
    (List.range count).forM body (state 0) = .ok ⟨⟩ (state count) := by
  have whole := @forM_range'_ok _ _ body state 0 count fun index _ below =>
    each index (by omega)
  rwa [Nat.zero_add, ← List.range_eq_range'] at whole

end Loop

end Unarddeg.Library
