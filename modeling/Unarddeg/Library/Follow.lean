import Mathlib

/-!
# Loops along a chain

A loop that goes from one link to the next until a link says stop: `scanChain` looks for something
at the links, `foldChain` collects from them. Both return the links they entered as well. `Path`
says which links lie between two; the rules read a loop that returned as a path, and run a loop
along a path. A loop whose links never say stop never returns.
-/

namespace Unarddeg.Library

variable {ε κ σ α : Type}

/-- `while (goesOn(link)) { if found at link, return it; link = next(link); }` with the links it
entered; `stuck` stands for the rounds it had no fuel for. -/
def scanChain (goesOn : κ → Bool) (next : κ → Except ε κ) (find : κ → Option α) (stuck : ε) :
    (fuel : Nat) → κ → Except ε (List κ × Option α)
  | 0, _ => .error stuck
  | fuel + 1, link =>
    if goesOn link then
      match find link with
      | some result => .ok ([link], some result)
      | none => do
        let (entered, result) ← scanChain goesOn next find stuck fuel (← next link)
        pure (link :: entered, result)
    else .ok ([], none)

/-- `while (goesOn(link)) { collect from link; link = next(link); }` with the links it entered. -/
def foldChain (goesOn : κ → Bool) (next : κ → Except ε κ) (collect : σ → κ → σ) (stuck : ε) :
    (fuel : Nat) → κ → σ → Except ε (List κ × σ)
  | 0, _, _ => .error stuck
  | fuel + 1, link, state =>
    if goesOn link then do
      let (entered, last) ← foldChain goesOn next collect stuck fuel (← next link)
        (collect state link)
      pure (link :: entered, last)
    else .ok ([], state)

/-- The links between two: each goes on, and leads to the next one. -/
def Path (goesOn : κ → Bool) (next : κ → Except ε κ) : κ → List κ → κ → Prop
  | start, [], stop => start = stop
  | start, link :: rest, stop => start = link ∧ goesOn link = true ∧
    ∃ after, next link = .ok after ∧ Path goesOn next after rest stop

section Follow

variable {goesOn : κ → Bool} {next : κ → Except ε κ} {find : κ → Option α} {collect : σ → κ → σ}
  {stuck : ε} {fuel : Nat} {start stop link : κ} {links front : List κ} {state last : σ}
  {result : Option α}

/-- A computation that may stop has a value exactly when its parts have. -/
theorem except_bind_ok {β : Type} {first : Except ε α} {rest : α → Except ε β} {value : β} :
    (first >>= rest) = .ok value ↔ ∃ middle, first = .ok middle ∧ rest middle = .ok value := by
  cases first <;> simp [bind, Except.bind]

/-- A path only depends on what its links lead to. -/
theorem Path.congr {other : κ → Except ε κ} (same : ∀ link ∈ links, other link = next link)
    (path : Path goesOn next start links stop) : Path goesOn other start links stop := by
  induction links generalizing start with
  | nil => exact path
  | cons link rest ih =>
    obtain ⟨rfl, goes, after, leads, rest⟩ := path
    exact ⟨rfl, goes, after, (same _ List.mem_cons_self).trans leads,
      ih (fun later member => same later (List.mem_cons_of_mem _ member)) rest⟩

/-- Two paths one after the other are a path. -/
theorem Path.append_iff {rest : List κ} : Path goesOn next start (front ++ rest) stop ↔
    ∃ middle, Path goesOn next start front middle ∧ Path goesOn next middle rest stop := by
  induction front generalizing start with
  | nil => simp [Path]
  | cons link front ih =>
    simp only [List.cons_append, Path, ih]
    constructor
    · rintro ⟨here, goes, after, leads, middle, first, second⟩
      exact ⟨middle, ⟨here, goes, after, leads, first⟩, second⟩
    · rintro ⟨middle, ⟨here, goes, after, leads, first⟩, second⟩
      exact ⟨here, goes, after, leads, middle, first, second⟩

/-- Every link of a path goes on. -/
theorem Path.goes (path : Path goesOn next start links stop) : ∀ link ∈ links,
    goesOn link = true := by
  induction links generalizing start with
  | nil => exact fun _ none => absurd none List.not_mem_nil
  | cons link rest ih =>
    obtain ⟨_, goes, after, _, path⟩ := path
    intro later member
    rcases List.mem_cons.mp member with rfl | member
    · exact goes
    · exact ih path later member

/-- The first round of a scan that returned: the link stops, has something, or leads on. -/
theorem scanChain_round (returned : scanChain goesOn next find stuck (fuel + 1) start =
    .ok (links, result)) :
    (goesOn start = false ∧ links = [] ∧ result = none) ∨
    (goesOn start = true ∧ ∃ found, find start = some found ∧ links = [start] ∧
      result = some found) ∨
    (goesOn start = true ∧ find start = none ∧ ∃ after entered, next start = .ok after ∧
      links = start :: entered ∧
      scanChain goesOn next find stuck fuel after = .ok (entered, result)) := by
  rw [scanChain] at returned
  by_cases goes : goesOn start = true
  · rw [if_pos goes] at returned
    cases here : find start with
    | some found =>
      rw [here] at returned
      obtain ⟨rfl, rfl⟩ := Prod.mk.inj (Except.ok.inj returned)
      exact .inr (.inl ⟨goes, found, rfl, rfl, rfl⟩)
    | none =>
      rw [here] at returned
      obtain ⟨after, leads, rest⟩ := except_bind_ok.mp returned
      obtain ⟨⟨entered, found⟩, scanned, same⟩ := except_bind_ok.mp rest
      obtain ⟨rfl, rfl⟩ := Prod.mk.inj (Except.ok.inj same)
      exact .inr (.inr ⟨goes, rfl, after, entered, leads, rfl, scanned⟩)
  · rw [if_neg goes] at returned
    obtain ⟨rfl, rfl⟩ := Prod.mk.inj (Except.ok.inj returned)
    exact .inl ⟨Bool.eq_false_iff.mpr goes, rfl, rfl⟩

/-- A scan that found nothing went along a whole path. -/
theorem scanChain_none (returned : scanChain goesOn next find stuck fuel start =
    .ok (links, none)) :
    ∃ stop, Path goesOn next start links stop ∧ goesOn stop = false ∧
      ∀ link ∈ links, find link = none := by
  induction fuel generalizing start links with
  | zero => cases returned
  | succ fuel ih =>
    rcases scanChain_round returned with ⟨stops, rfl, _⟩ | ⟨_, _, _, _, same⟩ |
      ⟨goes, here, after, entered, leads, rfl, scanned⟩
    · exact ⟨start, rfl, stops, List.forall_mem_nil _⟩
    · cases same
    · obtain ⟨stop, path, stops, nothing⟩ := ih scanned
      exact ⟨stop, ⟨rfl, goes, after, leads, path⟩, stops,
        List.forall_mem_cons.mpr ⟨here, nothing⟩⟩

/-- A scan that found something went along a path to the link where it is. -/
theorem scanChain_some {found : α} (returned : scanChain goesOn next find stuck fuel start =
    .ok (links, some found)) :
    ∃ front stop, links = front ++ [stop] ∧ Path goesOn next start front stop ∧
      goesOn stop = true ∧ find stop = some found ∧ ∀ link ∈ front, find link = none := by
  induction fuel generalizing start links with
  | zero => cases returned
  | succ fuel ih =>
    rcases scanChain_round returned with ⟨_, _, same⟩ | ⟨goes, _, here, rfl, same⟩ |
      ⟨goes, here, after, entered, leads, rfl, scanned⟩
    · cases same
    · obtain rfl := Option.some.inj same
      exact ⟨[], start, rfl, rfl, goes, here, List.forall_mem_nil _⟩
    · obtain ⟨front, stop, rfl, path, stops, there, nothing⟩ := ih scanned
      exact ⟨start :: front, stop, rfl, ⟨rfl, goes, after, leads, path⟩, stops, there,
        List.forall_mem_cons.mpr ⟨here, nothing⟩⟩

/-- A scan along a path without anything goes on behind it. -/
theorem scanChain_along (path : Path goesOn next start front stop)
    (nothing : ∀ link ∈ front, find link = none)
    (later : scanChain goesOn next find stuck fuel stop = .ok (links, result)) :
    scanChain goesOn next find stuck (fuel + front.length) start =
      .ok (front ++ links, result) := by
  induction front generalizing start with
  | nil =>
    obtain rfl := path
    exact later
  | cons link front ih =>
    obtain ⟨rfl, goes, after, leads, path⟩ := path
    have rest := ih path fun passed member => nothing passed (List.mem_cons_of_mem _ member)
    rw [List.length_cons, ← Nat.add_assoc, scanChain, if_pos goes, nothing _ List.mem_cons_self]
    exact except_bind_ok.mpr ⟨after, leads, except_bind_ok.mpr ⟨_, rest, rfl⟩⟩

/-- A scan along a path finds what is at the link behind it. -/
theorem scanChain_of_path {found : α} (path : Path goesOn next start front stop)
    (goes : goesOn stop = true) (there : find stop = some found)
    (nothing : ∀ link ∈ front, find link = none) (enough : front.length < fuel) :
    scanChain goesOn next find stuck fuel start = .ok (front ++ [stop], some found) := by
  obtain ⟨more, rfl⟩ : ∃ more, fuel = more + 1 + front.length :=
    ⟨fuel - (front.length + 1), by omega⟩
  apply scanChain_along path nothing
  rw [scanChain, if_pos goes, there]

/-- A scan along a whole path without anything finds nothing. -/
theorem scanChain_of_path_none (path : Path goesOn next start links stop)
    (stops : goesOn stop = false) (nothing : ∀ link ∈ links, find link = none)
    (enough : links.length < fuel) :
    scanChain goesOn next find stuck fuel start = .ok (links, none) := by
  obtain ⟨more, rfl⟩ : ∃ more, fuel = more + 1 + links.length :=
    ⟨fuel - (links.length + 1), by omega⟩
  have stopped : scanChain goesOn next find stuck (more + 1) stop = .ok ([], none) := by
    rw [scanChain, stops, if_neg Bool.false_ne_true]
  have whole := scanChain_along path nothing stopped
  rwa [List.append_nil] at whole

/-- A scan of a whole path finds what its first link with something gives. -/
theorem scanChain_findSome (path : Path goesOn next start links stop)
    (stops : goesOn stop = false) :
    ∃ entered, scanChain goesOn next find stuck (links.length + 1) start =
      .ok (entered, links.findSome? find) := by
  cases found : links.findSome? find with
  | none =>
    have nothing := List.findSome?_eq_none_iff.mp found
    exact ⟨links, scanChain_of_path_none path stops nothing (Nat.lt_succ_self _)⟩
  | some result =>
    obtain ⟨front, link, behind, rfl, there, nothing⟩ := List.findSome?_eq_some_iff.mp found
    obtain ⟨middle, before, rest⟩ := Path.append_iff.mp path
    obtain ⟨rfl, goes, _⟩ := rest
    refine ⟨front ++ [middle], scanChain_of_path before goes there nothing ?_⟩
    rw [List.length_append]
    omega

/-- A scan that returned returns the same with more rounds. -/
theorem scanChain_mono {more : Nat} (enough : fuel ≤ more)
    (returned : scanChain goesOn next find stuck fuel start = .ok (links, result)) :
    scanChain goesOn next find stuck more start = .ok (links, result) := by
  induction fuel generalizing start links more with
  | zero => cases returned
  | succ fuel ih =>
    obtain ⟨more, rfl⟩ := Nat.exists_eq_succ_of_ne_zero (Nat.ne_zero_of_lt enough)
    rw [scanChain]
    rcases scanChain_round returned with ⟨stops, rfl, rfl⟩ | ⟨goes, found, here, rfl, rfl⟩ |
      ⟨goes, here, after, entered, leads, rfl, scanned⟩
    · rw [stops, if_neg Bool.false_ne_true]
    · rw [if_pos goes, here]
    · rw [if_pos goes, here]
      have later := ih (Nat.le_of_succ_le_succ enough) scanned
      exact except_bind_ok.mpr ⟨after, leads, except_bind_ok.mpr ⟨_, later, rfl⟩⟩

/-- A scan for images finds the images of what a scan finds. -/
theorem scanChain_map {β : Type} (image : α → β) :
    scanChain goesOn next (fun link => (find link).map image) stuck fuel start =
      (scanChain goesOn next find stuck fuel start).map fun result =>
        (result.1, result.2.map image) := by
  induction fuel generalizing start with
  | zero => rfl
  | succ fuel ih =>
    unfold scanChain
    by_cases goes : goesOn start = true
    · rw [if_pos goes, if_pos goes]
      cases find start with
      | some found => rfl
      | none =>
        cases leads : next start with
        | error reason => rfl
        | ok after =>
          show (scanChain goesOn next (fun link => (find link).map image) stuck fuel after >>= _) = _
          rw [ih]
          show _ = Except.map _ (scanChain goesOn next find stuck fuel after >>= _)
          cases scanChain goesOn next find stuck fuel after <;> rfl
    · rw [if_neg goes, if_neg goes]
      rfl

/-- A loop that collects went along a whole path and collected from its links in order. -/
theorem foldChain_ok (returned : foldChain goesOn next collect stuck fuel start state =
    .ok (links, last)) :
    (∃ stop, Path goesOn next start links stop ∧ goesOn stop = false) ∧
      last = links.foldl collect state := by
  induction fuel generalizing start links state with
  | zero => cases returned
  | succ fuel ih =>
    rw [foldChain] at returned
    by_cases goes : goesOn start = true
    · rw [if_pos goes] at returned
      obtain ⟨after, leads, rest⟩ := except_bind_ok.mp returned
      obtain ⟨⟨entered, collected⟩, folded, same⟩ := except_bind_ok.mp rest
      obtain ⟨rfl, rfl⟩ := Prod.mk.inj (Except.ok.inj same)
      obtain ⟨⟨stop, path, stops⟩, rfl⟩ := ih folded
      exact ⟨⟨stop, ⟨rfl, goes, after, leads, path⟩, stops⟩, rfl⟩
    · rw [if_neg goes] at returned
      obtain ⟨rfl, rfl⟩ := Prod.mk.inj (Except.ok.inj returned)
      exact ⟨⟨start, rfl, Bool.eq_false_iff.mpr goes⟩, rfl⟩

/-- A loop collects from the links of a whole path in order. -/
theorem foldChain_of_path (path : Path goesOn next start links stop)
    (stops : goesOn stop = false) (enough : links.length < fuel) :
    foldChain goesOn next collect stuck fuel start state =
      .ok (links, links.foldl collect state) := by
  obtain ⟨fuel, rfl⟩ := Nat.exists_eq_succ_of_ne_zero (Nat.ne_zero_of_lt enough)
  induction links generalizing start state fuel with
  | nil =>
    obtain rfl := path
    simp [foldChain, stops]
  | cons link links ih =>
    obtain ⟨rfl, here, after, leads, path⟩ := path
    obtain ⟨fuel, rfl⟩ := Nat.exists_eq_succ_of_ne_zero
      (Nat.ne_zero_of_lt (Nat.lt_of_succ_lt_succ enough))
    rw [foldChain, if_pos here]
    exact except_bind_ok.mpr ⟨after, leads, except_bind_ok.mpr
      ⟨_, ih path fuel (Nat.lt_of_succ_lt_succ enough), rfl⟩⟩

/-- From links that only lead to links that go on no path leads to a stop. -/
theorem Path.never_stops (goes : goesOn start = true)
    (onward : ∀ link after, next link = .ok after → goesOn after = true)
    (path : Path goesOn next start links stop) : goesOn stop = true := by
  induction links generalizing start with
  | nil =>
    obtain rfl := path
    exact goes
  | cons link links ih =>
    obtain ⟨rfl, _, after, leads, path⟩ := path
    exact ih (onward _ after leads) path

end Follow

end Unarddeg.Library
