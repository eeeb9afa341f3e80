import Unarddeg.Library.Exec

/-!
# Loops that end with enough fuel

A loop that waits for its surroundings is written with fuel. `Settles` says that it returns, and
always the same, once there is enough of it; the rules below put such computations together, so
that no proof counts rounds.
-/

namespace Unarddeg.Library

variable {ε σ α β : Type}

/-- With enough fuel an action returns a value and a state. -/
def Settles (action : Nat → EStateM ε σ α) (before : σ) (value : α) (after : σ) : Prop :=
  ∃ enough, ∀ fuel, enough ≤ fuel → action fuel before = .ok value after

namespace Settles

variable {action : Nat → EStateM ε σ α} {next : Nat → α → EStateM ε σ β}
  {before middle after other : σ} {value second : α} {result : β}

/-- An action that always returns settles. -/
theorem of_ok (returned : ∀ fuel, action fuel before = .ok value after) :
    Settles action before value after :=
  ⟨0, fun fuel _ => returned fuel⟩

/-- An action settles on one value and one state. -/
theorem unique (first : Settles action before value after)
    (again : Settles action before second other) : value = second ∧ after = other := by
  obtain ⟨enough, returned⟩ := first
  obtain ⟨more, returnedAgain⟩ := again
  have same := (returned (max enough more) (le_max_left ..)).symm.trans
    (returnedAgain (max enough more) (le_max_right ..))
  simpa using same

/-- Two actions settle one after the other. -/
theorem bind (first : Settles action before value middle)
    (rest : Settles (fun fuel => next fuel value) middle result after) :
    Settles (fun fuel => action fuel >>= next fuel) before result after := by
  obtain ⟨enough, returned⟩ := first
  obtain ⟨more, continued⟩ := rest
  exact ⟨max enough more, fun fuel large =>
    (bind_of_ok (returned fuel (le_of_max_le_left large))).trans
      (continued fuel (le_of_max_le_right large))⟩

/-- The state is read at once. -/
theorem bind_get {next : Nat → σ → EStateM ε σ β}
    (rest : Settles (fun fuel => next fuel before) before result after) :
    Settles (fun fuel => get >>= next fuel) before result after :=
  bind (of_ok fun _ => rfl) rest

/-- It is changed at once. -/
theorem bind_modify {change : σ → σ} {next : Nat → PUnit → EStateM ε σ β}
    (rest : Settles (fun fuel => next fuel ⟨⟩) (change before) result after) :
    Settles (fun fuel => modify change >>= next fuel) before result after :=
  bind (of_ok fun _ => rfl) rest

/-- A value is returned at once. -/
theorem returns : Settles (fun _ => (pure value : EStateM ε σ α)) before value before :=
  of_ok fun _ => rfl

/-- What is the same for all fuel settles the same. -/
theorem congr {same : Nat → EStateM ε σ α} (equal : ∀ fuel, action fuel before = same fuel before)
    (settles : Settles same before value after) : Settles action before value after := by
  obtain ⟨enough, returned⟩ := settles
  exact ⟨enough, fun fuel large => (equal fuel).trans (returned fuel large)⟩

/-- What goes on as another action from another state settles as that one does. -/
theorem continues {same : Nat → EStateM ε σ α}
    (equal : ∀ fuel, action fuel before = same fuel middle)
    (settles : Settles same middle value after) : Settles action before value after := by
  obtain ⟨enough, returned⟩ := settles
  exact ⟨enough, fun fuel large => (equal fuel).trans (returned fuel large)⟩

end Settles

end Unarddeg.Library
