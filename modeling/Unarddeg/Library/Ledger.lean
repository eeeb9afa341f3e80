import Unarddeg.Library.Exec

/-!
# What a program does with a heap

A computation over a state that also notes what it does with the cells of a heap: which it reads or
writes, and which it frees. Noting changes nothing else and only appends (`Tracks`). A record of
events is clean when no cell is touched behind its end (`NeverAfterFree`); records are joined by
`append_iff`.
-/

namespace Unarddeg.Library

/-- What happens to a cell of a heap. -/
inductive HeapEvent (α : Type)
  /-- The cell is read or written. -/
  | touch (cell : α)
  /-- The cell is freed. -/
  | free (cell : α)
  deriving DecidableEq, Repr

/-- A state with the events so far. -/
structure Ledger (σ α : Type) where
  /-- The state. -/
  state : σ
  /-- The events, the first one first. -/
  events : List (HeapEvent α)

variable {ε σ α β γ : Type}

/-- A computation that touches no cell. -/
def quietly (action : EStateM ε σ β) : EStateM ε (Ledger σ α) β := fun ledger =>
  match action ledger.state with
  | .ok value state => .ok value { ledger with state }
  | .error reason state => .error reason { ledger with state }

/-- An event is noted. -/
def note (event : HeapEvent α) : EStateM ε (Ledger σ α) PUnit := fun ledger =>
  .ok ⟨⟩ { ledger with events := ledger.events ++ [event] }

section Rules

variable {action : EStateM ε σ β} {event : HeapEvent α} {before after : Ledger σ α}

/-- A computation that touches no cell keeps the events. -/
@[simp] theorem quietly_ok {result : β} : quietly action before = .ok result after ↔
    action before.state = .ok result after.state ∧ after.events = before.events := by
  unfold quietly
  cases returned : action before.state with
  | ok value state =>
    constructor
    · intro same
      cases same
      exact ⟨rfl, rfl⟩
    · intro ⟨same, events⟩
      cases same
      rw [← events]
  | error reason state => simp

/-- Noting an event appends it. -/
@[simp] theorem note_ok {result : PUnit} : note event before = (.ok result after :
      EStateM.Result ε (Ledger σ α) PUnit) ↔
    { before with events := before.events ++ [event] } = after := by
  unfold note
  simp

/-- A computation that touches no cell runs as it does without the events. -/
theorem quietly_of_ok {state : σ} {events : List (HeapEvent α)} {result : β} {last : σ}
    (returned : action state = .ok result last) :
    quietly action ⟨state, events⟩ = .ok result ⟨last, events⟩ := by
  unfold quietly
  rw [returned]

end Rules

/-! ## With and without the events -/

/-- The cell is read or written. -/
def HeapEvent.IsTouch : HeapEvent α → Prop
  | .touch _ => True
  | .free _ => False

/-- A result without the events. -/
def forget : EStateM.Result ε (Ledger σ α) β → EStateM.Result ε σ β
  | .ok value ledger => .ok value ledger.state
  | .error reason ledger => .error reason ledger.state

/-- A computation with notes does what one without them does, and each event that it notes before
it returns is allowed. -/
structure Tracks (allowed : HeapEvent α → Prop) (noted : EStateM ε (Ledger σ α) β)
    (plain : EStateM ε σ β) : Prop where
  /-- Without the events the two are the same. -/
  erases : ∀ ledger, forget (noted ledger) = plain ledger.state
  /-- The events are appended to those before. -/
  notes : ∀ before result after, noted before = .ok result after →
    ∃ events, after.events = before.events ++ events ∧ ∀ event ∈ events, allowed event

namespace Tracks

variable {allowed : HeapEvent α → Prop} {noted : EStateM ε (Ledger σ α) β}
  {plain : EStateM ε σ β}

/-- A computation that touches no cell. -/
theorem quietly (plain : EStateM ε σ β) : Tracks allowed (Library.quietly plain) plain where
  erases := by
    intro ledger
    unfold Library.quietly
    cases plain ledger.state <;> rfl
  notes := by
    intro before result after returned
    have same := (quietly_ok.mp returned).2
    exact ⟨[], by rw [same, List.append_nil], by simp⟩

/-- A value. -/
theorem pure (value : β) :
    Tracks allowed (Pure.pure value : EStateM ε (Ledger σ α) β) (Pure.pure value) where
  erases _ := rfl
  notes := by
    intro before result after returned
    have same := (pure_ok.mp returned).2
    exact ⟨[], by rw [← same, List.append_nil], by simp⟩

/-- A stop. -/
theorem throw (reason : ε) :
    Tracks allowed (MonadExcept.throw reason : EStateM ε (Ledger σ α) β)
      (MonadExcept.throw reason) where
  erases _ := rfl
  notes := by
    intro before result after returned
    cases returned

/-- One computation after another. -/
theorem bind {next : β → EStateM ε (Ledger σ α) γ} {plainNext : β → EStateM ε σ γ}
    (first : Tracks allowed noted plain)
    (rest : ∀ value, Tracks allowed (next value) (plainNext value)) :
    Tracks allowed (noted >>= next) (plain >>= plainNext) where
  erases := by
    intro ledger
    have same := first.erases ledger
    simp only [Bind.bind, EStateM.bind]
    cases returned : noted ledger with
    | ok value middle =>
      rw [returned] at same
      rw [← same]
      exact (rest value).erases middle
    | error reason middle =>
      rw [returned] at same
      rw [← same]
      rfl
  notes := by
    intro before result after returned
    obtain ⟨value, middle, head, tail⟩ := bind_ok.mp returned
    obtain ⟨front, frontIs, frontFine⟩ := first.notes _ _ _ head
    obtain ⟨back, backIs, backFine⟩ := (rest value).notes _ _ _ tail
    refine ⟨front ++ back, by rw [backIs, frontIs, List.append_assoc], ?_⟩
    intro event member
    rcases List.mem_append.mp member with inside | inside
    · exact frontFine event inside
    · exact backFine event inside

/-- An event by itself does nothing. -/
theorem note {event : HeapEvent α} (fine : allowed event) :
    Tracks allowed (Library.note event : EStateM ε (Ledger σ α) PUnit) (Pure.pure ⟨⟩) where
  erases _ := rfl
  notes := by
    intro before result after returned
    have same := note_ok.mp returned
    refine ⟨[event], by rw [← same], ?_⟩
    intro other member
    rw [List.mem_singleton.mp member]
    exact fine

/-- A computation behind an event. -/
theorem behind {event : HeapEvent α} (fine : allowed event) (rest : Tracks allowed noted plain) :
    Tracks allowed (Library.note event >>= fun _ => noted) plain :=
  bind (note fine) fun _ => rest

/-- One of two computations. -/
theorem ite {test : Prop} [Decidable test] {yes no : EStateM ε (Ledger σ α) β}
    {plainYes plainNo : EStateM ε σ β} (first : Tracks allowed yes plainYes)
    (second : Tracks allowed no plainNo) :
    Tracks allowed (if test then yes else no) (if test then plainYes else plainNo) := by
  split
  · exact first
  · exact second

/-- Allowed events may be taken for any. -/
theorem any (tracks : Tracks allowed noted plain) : Tracks (fun _ => True) noted plain where
  erases := tracks.erases
  notes := by
    intro before result after returned
    obtain ⟨events, same, _⟩ := tracks.notes before result after returned
    exact ⟨events, same, fun _ _ => trivial⟩

/-- What returns with events returns without them. -/
theorem ok {result : β} {before after : Ledger σ α} (tracks : Tracks allowed noted plain)
    (returned : noted before = .ok result after) :
    plain before.state = .ok result after.state := by
  rw [← tracks.erases before, returned]
  rfl

/-- What returns without events returns with them. -/
theorem returns {result : β} {before : Ledger σ α} {last : σ}
    (tracks : Tracks allowed noted plain) (returned : plain before.state = .ok result last) :
    ∃ events, noted before = .ok result ⟨last, before.events ++ events⟩ ∧
      ∀ event ∈ events, allowed event := by
  have kept := tracks.erases before
  rw [returned] at kept
  cases ended : noted before with
  | ok value after =>
    rw [ended] at kept
    cases kept
    obtain ⟨events, same, fine⟩ := tracks.notes _ _ _ ended
    exact ⟨events, by rw [← same], fine⟩
  | error reason after =>
    rw [ended] at kept
    cases kept

end Tracks

/-! ## Records of events -/

/-- The cell that an event frees. -/
def HeapEvent.freed : HeapEvent α → Option α
  | .touch _ => none
  | .free cell => some cell

/-- The cells that are freed, in their order. -/
def freedIn (events : List (HeapEvent α)) : List α := events.filterMap HeapEvent.freed

/-- No cell is touched behind the event that frees it. -/
def NeverAfterFree (events : List (HeapEvent α)) : Prop :=
  events.Pairwise fun earlier later => ∀ cell, earlier = .free cell → later ≠ .touch cell

section Records

variable {front rest events : List (HeapEvent α)} {event : HeapEvent α} {cell : α}

/-- The cells that two records free. -/
@[simp] theorem freedIn_append : freedIn (front ++ rest) = freedIn front ++ freedIn rest :=
  List.filterMap_append

/-- A touched cell is not freed. -/
@[simp] theorem freedIn_touch : freedIn (.touch cell :: rest) = freedIn rest := rfl

/-- A freed cell. -/
@[simp] theorem freedIn_free : freedIn (.free cell :: rest) = cell :: freedIn rest := rfl

/-- Nothing happened. -/
@[simp] theorem freedIn_nil : freedIn ([] : List (HeapEvent α)) = [] := rfl

/-- A cell is freed when there is an event that frees it. -/
theorem mem_freedIn : cell ∈ freedIn events ↔ .free cell ∈ events := by
  unfold freedIn
  rw [List.mem_filterMap]
  constructor
  · intro ⟨event, member, frees⟩
    cases event with
    | touch other => cases frees
    | free other =>
      obtain rfl := Option.some.inj frees
      exact member
  · intro member
    exact ⟨_, member, rfl⟩

/-- Two records are clean when each is and the second touches nothing that the first frees. -/
theorem NeverAfterFree.append_iff : NeverAfterFree (front ++ rest) ↔
    NeverAfterFree front ∧ NeverAfterFree rest ∧
      ∀ cell ∈ freedIn front, .touch cell ∉ rest := by
  unfold NeverAfterFree
  rw [List.pairwise_append]
  apply and_congr_right
  intro _
  apply and_congr_right
  intro _
  constructor
  · intro apart cell freed member
    exact apart _ (mem_freedIn.mp freed) _ member cell rfl rfl
  · intro apart earlier before later behind cell frees touches
    rw [frees] at before
    rw [touches] at behind
    exact apart cell (mem_freedIn.mpr before) behind

/-- A record without a freed cell is clean. -/
theorem NeverAfterFree.of_freedIn (nothing : freedIn events = []) : NeverAfterFree events := by
  apply List.Pairwise.imp_of_mem _ (List.pairwise_of_forall fun _ _ => trivial)
  intro earlier later before _ _ cell frees
  rw [frees] at before
  have freed := mem_freedIn.mpr before
  rw [nothing] at freed
  cases freed

/-- A record of touched cells frees none. -/
theorem freedIn_of_touches (touches : ∀ event ∈ events, event.IsTouch) :
    freedIn events = [] := by
  apply List.filterMap_eq_nil_iff.mpr
  intro event member
  have touch := touches event member
  cases event with
  | touch cell => rfl
  | free cell => cases touch

/-- A cell that is touched behind its end spoils a record. -/
theorem NeverAfterFree.not_of_touch (freed : .free cell ∈ front) (touched : .touch cell ∈ rest) :
    ¬ NeverAfterFree (front ++ rest) := by
  intro clean
  exact (append_iff.mp clean).2.2 cell (mem_freedIn.mpr freed) touched

end Records

end Unarddeg.Library
