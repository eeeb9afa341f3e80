import Mathlib

/-!
# Linked lists in a store

A store gives each cell a successor. `Segment next start cells stop` says that following the
successors from `start` visits exactly `cells` and arrives at `stop`; `Backlinked` says that the
predecessor links of the visited cells lead back. The rules split and join segments, frame
updates of other cells, and insert and remove one cell. Segments that end in no cell determine
their cells and never repeat one.
-/

namespace Unarddeg.Library

variable {α : Type*}

/-- Following `next` from `start` visits exactly `cells` and arrives at `stop`. -/
def Segment (next : α → Option α) : Option α → List α → Option α → Prop
  | start, [], stop => start = stop
  | start, cell :: rest, stop => start = some cell ∧ Segment next (next cell) rest stop

/-- Each of `cells` leads back to the one before it, the first one to `before`. -/
def Backlinked (previous : α → Option α) : Option α → List α → Prop
  | _, [] => True
  | before, cell :: rest => previous cell = before ∧ Backlinked previous (some cell) rest

namespace Segment

variable {next other : α → Option α} {start stop : Option α} {cells front rest : List α} {cell : α}

/-- Splitting the visited cells splits the segment. -/
theorem append_iff : Segment next start (front ++ rest) stop ↔
    ∃ middle, Segment next start front middle ∧ Segment next middle rest stop := by
  induction front generalizing start with
  | nil => simp [Segment]
  | cons cell front ih => simp [Segment, ih, and_assoc]

/-- A segment only depends on the successors of the cells it visits. -/
theorem congr (same : ∀ cell ∈ cells, other cell = next cell)
    (segment : Segment next start cells stop) : Segment other start cells stop := by
  induction cells generalizing start with
  | nil => exact segment
  | cons cell rest ih =>
    obtain ⟨rfl, tail⟩ := segment
    refine ⟨rfl, ?_⟩
    rw [same cell List.mem_cons_self]
    exact ih (fun later member => same later (List.mem_cons_of_mem _ member)) tail

/-- Writing the successor of a cell that is not visited keeps a segment. -/
theorem update [DecidableEq α] {link : Option α} (absent : cell ∉ cells)
    (segment : Segment next start cells stop) :
    Segment (Function.update next cell link) start cells stop :=
  segment.congr fun later member =>
    Function.update_of_ne (fun same : later = cell => absent (same ▸ member)) _ _

/-- Two segments from one start to no cell visit the same cells. -/
theorem unique {left right : List α} (first : Segment next start left none)
    (second : Segment next start right none) : left = right := by
  induction left generalizing start right with
  | nil =>
    cases right with
    | nil => rfl
    | cons cell right =>
      obtain ⟨rfl, _⟩ := second
      cases first
  | cons cell left ih =>
    obtain ⟨rfl, tail⟩ := first
    cases right with
    | nil => cases second
    | cons cell' right =>
      obtain ⟨same, tail'⟩ := second
      obtain rfl := Option.some.inj same
      rw [ih tail tail']

/-- A segment that ends in no cell visits no cell twice. -/
theorem nodup (segment : Segment next start cells none) : cells.Nodup := by
  induction cells generalizing start with
  | nil => exact List.nodup_nil
  | cons cell rest ih =>
    obtain ⟨rfl, tail⟩ := segment
    refine List.nodup_cons.mpr ⟨fun member => ?_, ih tail⟩
    -- A second visit would give one cell two remainders of different lengths.
    obtain ⟨front, back, rfl⟩ := List.append_of_mem member
    obtain ⟨middle, _, same, again⟩ := append_iff.mp tail
    have lengths := congrArg List.length (unique tail again)
    simp only [List.length_append, List.length_cons] at lengths
    omega

/-- The cell after a visited one is visited next. -/
theorem next_eq (segment : Segment next start (front ++ cell :: rest) stop) :
    next cell = (rest.head?).or stop := by
  obtain ⟨_, _, _, tail⟩ := append_iff.mp segment
  cases rest with
  | nil => simpa [Segment] using tail
  | cons later rest => simpa using tail.1

/-- A segment starts at its first cell, or where it stops. -/
theorem start_eq (segment : Segment next start cells stop) : start = (cells.head?).or stop := by
  cases cells with
  | nil => simpa [Segment] using segment
  | cons cell rest => simpa using segment.1

/-- Writing the successor of the last visited cell redirects the segment. -/
theorem relink [DecidableEq α] {link : Option α}
    (segment : Segment next start (front ++ [cell]) stop)
    (absent : cell ∉ front) :
    Segment (Function.update next cell link) start (front ++ [cell]) link := by
  obtain ⟨middle, head, here, _⟩ := append_iff.mp segment
  refine append_iff.mpr ⟨middle, head.update absent, here, ?_⟩
  simp [Segment]

/-- A cell in front of a segment. -/
theorem insert (forward : other cell = start) (same : ∀ later ∈ cells, other later = next later)
    (segment : Segment next start cells stop) : Segment other (some cell) (cell :: cells) stop :=
  ⟨rfl, forward ▸ segment.congr same⟩

/-- Removing one cell: the cell before it, or the start, takes over its successor. -/
theorem remove [DecidableEq α] (segment : Segment next start (front ++ cell :: rest) none)
    (forward : ∀ last, front.getLast? = some last → other last = next cell)
    (same : ∀ later, later ≠ cell → front.getLast? ≠ some later → other later = next later) :
    Segment other (if front = [] then next cell else start) (front ++ rest) none := by
  have distinct := segment.nodup
  obtain ⟨middle, head, rfl, tail⟩ := append_iff.mp segment
  have apart : ∀ later ∈ rest, later ≠ cell ∧ front.getLast? ≠ some later := by
    intro later member
    have split := List.nodup_append.mp distinct
    refine ⟨fun equal => ?_, fun last => ?_⟩
    · exact (List.nodup_cons.mp split.2.1).1 (equal ▸ member)
    · exact split.2.2 later (List.mem_of_getLast? last) later (List.mem_cons_of_mem _ member) rfl
  have after : Segment other (next cell) rest none :=
    tail.congr fun later member => same later (apart later member).1 (apart later member).2
  rcases List.eq_nil_or_concat front with rfl | ⟨before, last, rfl⟩
  · simpa using after
  · rw [List.concat_eq_append] at *
    have split := List.nodup_append.mp distinct
    have fresh : last ∉ before := by
      have inner := List.nodup_append.mp split.1
      exact fun member => inner.2.2 last member last (List.mem_singleton_self _) rfl
    have redirected : Segment (Function.update next last (next cell)) start (before ++ [last])
        (next cell) := head.relink fresh
    have written : Segment other start (before ++ [last]) (next cell) := by
      refine redirected.congr fun later member => ?_
      by_cases here : later = last
      · subst here
        rw [Function.update_self]
        exact forward later (by simp)
      · rw [Function.update_of_ne here]
        refine same later ?_ ?_
        · rintro rfl
          exact split.2.2 later member later List.mem_cons_self rfl
        · simpa using fun equal => here equal.symm
    simp only [List.append_eq_nil_iff, List.cons_ne_nil, and_false, if_false]
    exact append_iff.mpr ⟨_, written, after⟩

end Segment

namespace Backlinked

variable {previous other : α → Option α} {before : Option α} {cells front rest : List α} {cell : α}

/-- Backward links only depend on the predecessors of the cells. -/
theorem congr (same : ∀ cell ∈ cells, other cell = previous cell)
    (linked : Backlinked previous before cells) : Backlinked other before cells := by
  induction cells generalizing before with
  | nil => trivial
  | cons cell rest ih =>
    refine ⟨(same cell List.mem_cons_self).trans linked.1, ?_⟩
    exact ih (fun later member => same later (List.mem_cons_of_mem _ member)) linked.2

/-- Splitting the cells splits the backward links at the last cell of the front. -/
theorem append_iff : Backlinked previous before (front ++ rest) ↔
    Backlinked previous before front ∧
      Backlinked previous ((front.getLast?).or before) rest := by
  induction front generalizing before with
  | nil => simp [Backlinked]
  | cons cell front ih =>
    simp only [List.cons_append, Backlinked, ih, and_assoc]
    cases front with
    | nil => simp
    | cons later front => simp [List.getLast?_cons]

/-- A cell leads back to the one visited before it. -/
theorem previous_eq (linked : Backlinked previous before (front ++ cell :: rest)) :
    previous cell = (front.getLast?).or before :=
  (append_iff.mp linked).2.1

/-- A cell in front of linked cells: the old first cell leads back to it. -/
theorem insert (back : other cell = none)
    (first : ∀ later, cells.head? = some later → other later = some cell)
    (same : ∀ later ∈ cells.tail, other later = previous later)
    (linked : Backlinked previous none cells) : Backlinked other none (cell :: cells) := by
  refine ⟨back, ?_⟩
  cases cells with
  | nil => trivial
  | cons later rest => exact ⟨first later rfl, linked.2.congr same⟩

/-- Removing one cell: the cell behind it takes over its predecessor. -/
theorem remove (linked : Backlinked previous none (front ++ cell :: rest))
    (backward : ∀ later, rest.head? = some later → other later = previous cell)
    (sameFront : ∀ later ∈ front, other later = previous later)
    (sameRest : ∀ later ∈ rest.tail, other later = previous later) :
    Backlinked other none (front ++ rest) := by
  obtain ⟨head, here, tail⟩ := append_iff.mp linked
  refine append_iff.mpr ⟨head.congr sameFront, ?_⟩
  cases rest with
  | nil => trivial
  | cons later rest => exact ⟨(backward later rfl).trans here, tail.2.congr sameRest⟩

end Backlinked

/-- In a list without repetition that is linked both ways, the links are mutual inverses. -/
theorem links_inverse {next previous : α → Option α} {start : Option α} {cells : List α}
    (segment : Segment next start cells none) (linked : Backlinked previous none cells)
    {left right : α} (leftMember : left ∈ cells) (rightMember : right ∈ cells) :
    next left = some right ↔ previous right = some left := by
  have distinct := segment.nodup
  constructor
  · intro forward
    obtain ⟨front, rest, rfl⟩ := List.append_of_mem leftMember
    have following := segment.next_eq
    rw [forward] at following
    cases rest with
    | nil => simp at following
    | cons later rest =>
      simp only [List.head?_cons, Option.some_or, Option.some.injEq] at following
      subst following
      have shifted : front ++ left :: right :: rest = (front ++ [left]) ++ right :: rest := by simp
      rw [shifted] at linked
      simpa using linked.previous_eq
  · intro backward
    obtain ⟨front, rest, rfl⟩ := List.append_of_mem rightMember
    have preceding := linked.previous_eq
    rw [backward] at preceding
    cases last : front.getLast? with
    | none => simp [last] at preceding
    | some cell =>
      simp only [last, Option.some_or, Option.some.injEq] at preceding
      subst preceding
      obtain ⟨front, rfl⟩ := List.getLast?_eq_some_iff.mp last
      rw [List.append_assoc, List.singleton_append] at segment
      simpa using segment.next_eq

end Unarddeg.Library
