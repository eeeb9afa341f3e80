import Unarddeg.Library.Follow

/-!
# Loops that go in circles

A loop along a chain of finitely many links does not end exactly when it comes back to a link that
it has passed (`scanChain_stuck_iff`): without a stop it passes more links than there are, so it
passes one of them twice, and from there it does again what it did before.
-/

namespace Unarddeg.Library

variable {ε κ σ α : Type}

/-- From a start the loop passes some links up to one that it comes back to. -/
def Circles (goesOn : κ → Bool) (next : κ → Except ε κ) (passes : κ → Prop) (start : κ) : Prop :=
  ∃ front circle link, circle ≠ [] ∧ Path goesOn next start front link ∧
    Path goesOn next link circle link ∧ ∀ passed ∈ front ++ circle, passes passed

/-- A list with a member that stands in it twice. -/
theorem split_of_duplicate {member : κ} {links : List κ} (twice : List.Duplicate member links) :
    ∃ front middle rest, links = front ++ (member :: middle ++ member :: rest) := by
  induction twice with
  | cons_mem inside =>
    obtain ⟨middle, rest, rfl⟩ := List.append_of_mem inside
    exact ⟨[], middle, rest, rfl⟩
  | @cons_duplicate other links _ ih =>
    obtain ⟨front, middle, rest, rfl⟩ := ih
    exact ⟨other :: front, middle, rest, rfl⟩

section Circle

variable {goesOn : κ → Bool} {next : κ → Except ε κ} {find : κ → Option α} {collect : σ → κ → σ}
  {stuck : ε} {fuel : Nat} {start stop : κ} {links : List κ} {state : σ} {passes : κ → Prop}

/-- A path begins at its first link. -/
theorem Path.head {link : κ} (path : Path goesOn next start (link :: links) stop) : start = link :=
  path.1

/-- A path with more links than there are goes in a circle. -/
theorem Path.circles [Fintype κ] (path : Path goesOn next start links stop)
    (long : Fintype.card κ < links.length) (passed : ∀ link ∈ links, passes link) :
    Circles goesOn next passes start := by
  have repeated : ¬ links.Nodup := fun distinct =>
    Nat.not_lt_of_le distinct.length_le_card long
  obtain ⟨link, twice⟩ := List.exists_duplicate_iff_not_nodup.mpr repeated
  obtain ⟨front, middle, rest, rfl⟩ := split_of_duplicate twice
  obtain ⟨first, before, behind⟩ := Path.append_iff.mp path
  obtain ⟨second, circle, after⟩ := Path.append_iff.mp behind
  obtain rfl := circle.head
  obtain rfl := after.head
  refine ⟨front, _, _, by simp, before, circle, ?_⟩
  intro passed' member
  apply passed
  rw [← List.append_assoc]
  exact List.mem_append_left _ member

/-- A scan that is stuck passed as many links as it had fuel for. -/
theorem scanChain_stuck_path (quiet : ∀ link, next link ≠ .error stuck)
    (returned : scanChain goesOn next find stuck fuel start = .error stuck) :
    ∃ links stop, links.length = fuel ∧ Path goesOn next start links stop ∧
      ∀ link ∈ links, find link = none := by
  induction fuel generalizing start with
  | zero => exact ⟨[], start, rfl, rfl, by simp⟩
  | succ fuel ih =>
    rw [scanChain] at returned
    by_cases goes : goesOn start = true
    · rw [if_pos goes] at returned
      cases here : find start with
      | some result =>
        rw [here] at returned
        cases returned
      | none =>
        rw [here] at returned
        cases leads : next start with
        | error reason =>
          rw [leads] at returned
          obtain rfl := Except.error.inj returned
          exact absurd leads (quiet start)
        | ok after =>
          rw [leads] at returned
          cases rest : scanChain goesOn next find stuck fuel after with
          | ok value =>
            simp only [bind, Except.bind, rest] at returned
            cases returned
          | error reason =>
            simp only [bind, Except.bind, rest] at returned
            obtain rfl := Except.error.inj returned
            obtain ⟨links, stop, length, path, nothing⟩ := ih rest
            refine ⟨start :: links, stop, congrArg Nat.succ length,
              ⟨rfl, goes, after, leads, path⟩, ?_⟩
            intro link member
            rcases List.mem_cons.mp member with rfl | member
            · exact here
            · exact nothing link member
    · rw [if_neg goes] at returned
      cases returned

/-- A scan is stuck if it is stuck behind a path. -/
theorem scanChain_stuck_of_path (path : Path goesOn next start links stop)
    (nothing : ∀ link ∈ links, find link = none)
    (later : scanChain goesOn next find stuck fuel stop = .error stuck) :
    scanChain goesOn next find stuck (fuel + links.length) start = .error stuck := by
  induction links generalizing start with
  | nil =>
    obtain rfl := path
    exact later
  | cons link links ih =>
    obtain ⟨rfl, goes, after, leads, path⟩ := path
    have rest := ih path fun passed member => nothing passed (List.mem_cons_of_mem _ member)
    rw [List.length_cons, ← Nat.add_assoc, scanChain, if_pos goes, nothing _ List.mem_cons_self]
    simp only [leads, bind, Except.bind, rest]

/-- A scan that is stuck would be stuck with less fuel. -/
theorem scanChain_stuck_less {less : Nat} (quiet : ∀ link, next link ≠ .error stuck)
    (returned : scanChain goesOn next find stuck fuel start = .error stuck) (below : less ≤ fuel) :
    scanChain goesOn next find stuck less start = .error stuck := by
  obtain ⟨links, stop, length, path, nothing⟩ := scanChain_stuck_path quiet returned
  have shape := List.take_append_drop less links
  rw [← shape] at path
  obtain ⟨middle, before, _⟩ := Path.append_iff.mp path
  have stopped := @scanChain_stuck_of_path _ _ _ _ _ find stuck 0 _ _ _ before
    (fun link member => nothing link (List.mem_of_mem_take member)) rfl
  rwa [Nat.zero_add, List.length_take, length, Nat.min_eq_left below] at stopped

/-- A scan that is not stuck does the same with more fuel. -/
theorem scanChain_more {more : Nat} (ended : scanChain goesOn next find stuck fuel start ≠
    .error stuck) (above : fuel ≤ more) :
    scanChain goesOn next find stuck more start = scanChain goesOn next find stuck fuel start := by
  induction fuel generalizing start more with
  | zero => exact absurd rfl ended
  | succ fuel ih =>
    obtain ⟨less, rfl⟩ : ∃ less, more = less + 1 := ⟨more - 1, by omega⟩
    rw [scanChain] at ended
    rw [scanChain, scanChain]
    by_cases goes : goesOn start = true
    · rw [if_pos goes] at ended
      rw [if_pos goes, if_pos goes]
      cases here : find start with
      | some result => rfl
      | none =>
        rw [here] at ended
        cases leads : next start with
        | error reason => rfl
        | ok after =>
          have rest : scanChain goesOn next find stuck fuel after ≠ .error stuck := by
            intro stops
            apply ended
            simp [leads, bind, Except.bind, stops]
          simp only [bind, Except.bind, ih rest (Nat.le_of_succ_le_succ above)]
    · rw [if_neg goes, if_neg goes]

/-- **Circles.** A scan of finitely many links never ends exactly when it goes in a circle. -/
theorem scanChain_stuck_iff [Fintype κ] (quiet : ∀ link, next link ≠ .error stuck) :
    (∀ fuel, scanChain goesOn next find stuck fuel start = .error stuck) ↔
      Circles goesOn next (fun link => find link = none) start := by
  constructor
  · intro always
    obtain ⟨links, stop, length, path, nothing⟩ :=
      scanChain_stuck_path quiet (always (Fintype.card κ + 1))
    exact path.circles (by omega) nothing
  · rintro ⟨front, circle, link, nonempty, before, around, nothing⟩ fuel
    -- The circle uses as much fuel as one likes.
    have rounds : ∀ count, scanChain goesOn next find stuck (count * circle.length) link =
        .error stuck := by
      intro count
      induction count with
      | zero => simp [scanChain]
      | succ count ih =>
        rw [Nat.succ_mul]
        exact scanChain_stuck_of_path around
          (fun passed member => nothing passed (List.mem_append_right _ member)) ih
    have all := scanChain_stuck_of_path before
      (fun passed member => nothing passed (List.mem_append_left _ member)) (rounds fuel)
    have enough : fuel * 1 ≤ fuel * circle.length :=
      Nat.mul_le_mul_left fuel (List.length_pos_of_ne_nil nonempty)
    exact scanChain_stuck_less quiet all (by omega)

/-- A loop that collects stops where a scan does that looks for nothing. -/
theorem foldChain_error {reason : ε} :
    foldChain goesOn next collect stuck fuel start state = .error reason ↔
      scanChain goesOn next (fun _ => (none : Option Unit)) stuck fuel start = .error reason := by
  induction fuel generalizing start state with
  | zero => simp [foldChain, scanChain]
  | succ fuel ih =>
    rw [foldChain, scanChain]
    by_cases goes : goesOn start = true
    · rw [if_pos goes, if_pos goes]
      cases leads : next start with
      | error other => simp [bind, Except.bind]
      | ok after =>
        have rest := @ih after (collect state start)
        cases scanned : scanChain goesOn next (fun _ => (none : Option Unit)) stuck fuel after <;>
          cases folded : foldChain goesOn next collect stuck fuel after (collect state start) <;>
            simp_all [bind, Except.bind, pure, Except.pure]
    · rw [if_neg goes, if_neg goes]
      simp

end Circle

end Unarddeg.Library
