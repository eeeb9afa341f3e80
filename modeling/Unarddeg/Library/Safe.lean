import Unarddeg.Library.Loop

/-!
# Computations that never stop for a reason

`Safe bad good post action` says that an action keeps a property of the state, never stops with the
reason `bad`, and only returns values with a property. The rules follow the constructors of the
monad, so a function is safe when its parts are.
-/

namespace Unarddeg.Library

variable {ε σ α β : Type}

/-- From good states an action never stops with a reason, and returns in a good state a value with
a property. -/
def Safe (bad : ε) (good : σ → Prop) (post : α → Prop) (action : EStateM ε σ α) : Prop :=
  ∀ before, good before → (∀ after, action before ≠ .error bad after) ∧
    ∀ value after, action before = .ok value after → post value ∧ good after

namespace Safe

variable {bad reason : ε} {good : σ → Prop} {post other : α → Prop} {last : β → Prop}
  {action : EStateM ε σ α} {next : α → EStateM ε σ β}

/-- A weaker property of the value. -/
theorem mono (safe : Safe bad good post action) (weaker : ∀ value, post value → other value) :
    Safe bad good other action := by
  intro before start
  obtain ⟨never, returns⟩ := safe before start
  refine ⟨never, fun value after returned => ?_⟩
  obtain ⟨known, kept⟩ := returns value after returned
  exact ⟨weaker value known, kept⟩

/-- Two actions one after the other. -/
theorem bind (first : Safe bad good post action)
    (rest : ∀ value, post value → Safe bad good last (next value)) :
    Safe bad good last (action >>= next) := by
  intro before start
  obtain ⟨never, returns⟩ := first before start
  cases ended : action before with
  | ok value middle =>
    obtain ⟨known, kept⟩ := returns value middle ended
    rw [bind_of_ok ended]
    exact rest value known middle kept
  | error stopped middle =>
    rw [bind_of_error ended]
    refine ⟨fun after same => ?_, fun value after same => ?_⟩
    · cases same
      exact never middle ended
    · cases same

/-- A value. -/
theorem pure {value : α} (known : post value) :
    Safe bad good post (Pure.pure value : EStateM ε σ α) := by
  intro before start
  refine ⟨fun after same => (by cases same), fun result after returned => ?_⟩
  obtain ⟨rfl, rfl⟩ := pure_ok.mp returned
  exact ⟨known, start⟩

/-- A stop for another reason. -/
theorem throw (differs : reason ≠ bad) :
    Safe bad good post (MonadExcept.throw reason : EStateM ε σ α) := by
  intro before start
  refine ⟨fun after same => ?_, fun value after returned => (throw_ok.mp returned).elim⟩
  cases same
  exact differs rfl

/-- The state itself. -/
theorem get : Safe bad good good (MonadState.get : EStateM ε σ σ) := by
  intro before start
  refine ⟨fun after same => (by cases same), fun value after returned => ?_⟩
  obtain ⟨rfl, rfl⟩ := get_ok.mp returned
  exact ⟨start, start⟩

/-- Another state. -/
theorem set {state : σ} (kept : good state) :
    Safe bad good (fun _ => True) (MonadState.set state : EStateM ε σ PUnit) := by
  intro before start
  refine ⟨fun after same => (by cases same), fun value after returned => ?_⟩
  exact ⟨trivial, set_ok.mp returned ▸ kept⟩

/-- A change of the state. -/
theorem change {update : σ → σ} (keep : ∀ state, good state → good (update state)) :
    Safe bad good (fun _ => True) (modify update : EStateM ε σ PUnit) := by
  intro before start
  refine ⟨fun after same => (by cases same), fun value after returned => ?_⟩
  exact ⟨trivial, modify_ok.mp returned ▸ keep before start⟩

/-- A branch. -/
theorem ite {test : Prop} [Decidable test] {yes no : EStateM ε σ α}
    (whenTrue : test → Safe bad good post yes) (whenFalse : ¬ test → Safe bad good post no) :
    Safe bad good post (if test then yes else no) := by
  by_cases holds : test
  · rw [if_pos holds]
    exact whenTrue holds
  · rw [if_neg holds]
    exact whenFalse holds

/-- A loop whose tests say which rounds there are. -/
theorem loop {test body : Nat → EStateM ε σ Bool} {inside : Nat → Prop}
    (tests : ∀ index, Safe bad good (fun more => more = true → inside index) (test index))
    (bodies : ∀ index, inside index → Safe bad good (fun _ => True) (body index))
    (count index : Nat) : Safe bad good (fun _ => True) (Library.loop test body count index) := by
  induction count generalizing index with
  | zero => exact pure trivial
  | succ count ih =>
    rw [Library.loop]
    apply (tests index).bind
    intro more known
    apply ite
    · intro yes
      apply (bodies index (known yes)).bind
      intro goes _
      apply ite
      · intro _
        exact ih (index + 1)
      · intro _
        exact pure trivial
    · intro _
      exact pure trivial

end Safe

end Unarddeg.Library
