import Unarddeg.Library.Exec

/-!
# Round-robin selection over a changing list

The members of a ring stand in a list; a cursor marks the one selected last. A selection takes the
member behind the cursor, or the first one when there is none; a new member is put in front; the
member at the cursor may leave, which takes the cursor away, so that the next selection starts at
the front again.

`upcoming` is the order in which the present members would be selected. A selection rotates it and
a new member keeps the order of the others. When the member at the cursor leaves, the members in
front of it overtake those behind it; that is harmless as long as none of them was selected since
it came in, or none stands behind (`FairExit`). Between two selections of one member every other
member that stayed is then selected (`Ring.selected_between`).
-/

namespace Unarddeg.Library

/-- A list of members, the cursor, and the members selected since they came in. -/
structure Ring (α : Type*) where
  /-- The members, newest first. -/
  members : List α
  /-- The member selected last, if it is still there. -/
  cursor : Option α
  /-- The members selected since they came in. -/
  selected : List α

/-- What happens to a ring. -/
inductive RingEvent (α : Type*)
  /-- A new member is put in front. -/
  | create (member : α)
  /-- The member at the cursor leaves. -/
  | exit (member : α)
  /-- A member is selected. -/
  | select (member : α)
  deriving DecidableEq

namespace Ring

variable {α : Type*} [DecidableEq α]

/-- The members in front of one of them. -/
def ahead (members : List α) (member : α) : List α := members.takeWhile (· ≠ member)

/-- The members behind one of them. -/
def behind (members : List α) (member : α) : List α := (members.dropWhile (· ≠ member)).tail

/-- The member that is selected next. -/
def successor (members : List α) : Option α → Option α
  | none => members.head?
  | some cursor => ((behind members cursor).head?).or members.head?

/-- One event on a ring. -/
inductive Step : Ring α → RingEvent α → Ring α → Prop
  | create {ring : Ring α} {member : α} (fresh : member ∉ ring.members) :
      Step ring (.create member) { ring with members := member :: ring.members }
  | exit {ring : Ring α} {member : α} (current : ring.cursor = some member) :
      Step ring (.exit member)
        ⟨ring.members.erase member, none, ring.selected.filter (· ≠ member)⟩
  | select {ring : Ring α} {member : α}
      (next : successor ring.members ring.cursor = some member) :
      Step ring (.select member) ⟨ring.members, some member, member :: ring.selected⟩

/-- No member is twice in the ring, and the cursor is at a member. -/
structure Valid (ring : Ring α) : Prop where
  /-- No member stands twice. -/
  nodup : ring.members.Nodup
  /-- The cursor stands at a member. -/
  cursor : ∀ member, ring.cursor = some member → member ∈ ring.members

/-- The list splits at a member that stands once. -/
theorem span_append {front rest : List α} {member : α} (absent : member ∉ front) :
    ahead (front ++ member :: rest) member = front ∧
      behind (front ++ member :: rest) member = rest := by
  induction front with
  | nil => simp [ahead, behind]
  | cons first front ih =>
    simp only [List.mem_cons, not_or] at absent
    obtain ⟨before, after⟩ := ih absent.2
    have other : first ≠ member := Ne.symm absent.1
    unfold ahead behind at *
    rw [List.cons_append, List.takeWhile_cons_of_pos (by simpa using other),
      List.dropWhile_cons_of_pos (by simpa using other), before]
    exact ⟨rfl, after⟩

/-- The member selected behind a member that stands once. -/
theorem successor_append {front rest : List α} {member : α} (absent : member ∉ front) :
    successor (front ++ member :: rest) (some member) =
      (rest.head?).or (front ++ member :: rest).head? := by
  rw [successor, (span_append absent).2]

/-- A selected member is in the ring. -/
theorem successor_mem {members : List α} {cursor : Option α} {member : α}
    (next : successor members cursor = some member) : member ∈ members := by
  cases cursor with
  | none => exact List.mem_of_head? next
  | some cursor =>
    rcases Option.or_eq_some_iff.mp next with later | ⟨_, first⟩
    · have tail := List.mem_of_mem_tail (List.mem_of_head? later)
      exact (List.dropWhile_sublist _).subset tail
    · exact List.mem_of_head? first

/-- Only the member at the cursor leaves. -/
theorem Step.exit_cursor {before after : Ring α} {member : α}
    (step : Step before (.exit member) after) : before.cursor = some member := by
  cases step with
  | exit current => exact current

/-- Every event keeps a ring valid. -/
theorem Step.valid {before after : Ring α} {event : RingEvent α} (step : Step before event after)
    (valid : Valid before) : Valid after := by
  cases step with
  | create fresh =>
    exact ⟨List.nodup_cons.mpr ⟨fresh, valid.nodup⟩, fun member here =>
      List.mem_cons_of_mem _ (valid.cursor member here)⟩
  | exit current => exact ⟨valid.nodup.erase _, by simp⟩
  | select next =>
    refine ⟨valid.nodup, fun member here => ?_⟩
    obtain rfl := Option.some.inj here
    exact successor_mem next

/-! ## The upcoming order -/

/-- The members in the order in which they would be selected from now on. -/
def upcoming (ring : Ring α) : List α :=
  match ring.cursor with
  | none => ring.members
  | some cursor => behind ring.members cursor ++ (ahead ring.members cursor ++ [cursor])

/-- The upcoming order behind the cursor. -/
theorem upcoming_append (ring : Ring α) (front rest : List α) {cursor : α}
    (here : ring.cursor = some cursor) (split : ring.members = front ++ cursor :: rest)
    (nodup : ring.members.Nodup) : ring.upcoming = rest ++ (front ++ [cursor]) := by
  have absent : cursor ∉ front := fun member =>
    (List.nodup_append.mp (split ▸ nodup)).2.2 cursor member cursor List.mem_cons_self rfl
  obtain ⟨before, after⟩ := @span_append _ _ _ rest _ absent
  simp only [upcoming, here, split, before, after]

/-- The upcoming order holds every member once. -/
theorem Valid.upcoming_perm {ring : Ring α} (valid : Valid ring) :
    ring.upcoming.Perm ring.members := by
  cases here : ring.cursor with
  | none => simp [upcoming, here]
  | some cursor =>
    obtain ⟨front, rest, split⟩ := List.append_of_mem (valid.cursor cursor here)
    have joined : ring.members = (front ++ [cursor]) ++ rest := by simp [split]
    rw [upcoming_append _ _ _ here split valid.nodup, joined]
    exact List.perm_append_comm

/-- The member selected next is the first upcoming one, and the selection rotates the order. -/
theorem Valid.select {ring : Ring α} (valid : Valid ring) {member : α}
    (next : successor ring.members ring.cursor = some member) :
    ∃ rest, ring.upcoming = member :: rest ∧
      upcoming ⟨ring.members, some member, member :: ring.selected⟩ = rest ++ [member] := by
  have first : ∀ rest, ring.members = member :: rest →
      upcoming ⟨ring.members, some member, member :: ring.selected⟩ = rest ++ [member] :=
    fun rest split => upcoming_append _ [] rest rfl split valid.nodup
  cases here : ring.cursor with
  | none =>
    rw [here] at next
    obtain ⟨rest, split⟩ := List.head?_eq_some_iff.mp next
    exact ⟨rest, by simp only [upcoming, here, split], first rest split⟩
  | some cursor =>
    obtain ⟨front, rest, split⟩ := List.append_of_mem (valid.cursor cursor here)
    have order := upcoming_append _ _ _ here split valid.nodup
    have absent : cursor ∉ front := fun member =>
      (List.nodup_append.mp (split ▸ valid.nodup)).2.2 cursor member cursor List.mem_cons_self rfl
    rw [here, split, successor_append absent] at next
    cases rest with
    | nil =>
      simp only [List.head?_nil, Option.none_or] at next
      obtain ⟨rest, whole⟩ := List.head?_eq_some_iff.mp next
      rw [List.nil_append, ← split] at order
      exact ⟨rest, by rw [order, split, whole], first rest (by rw [split, whole])⟩
    | cons later rest =>
      simp only [List.head?_cons, Option.some_or, Option.some.injEq] at next
      subst next
      refine ⟨rest ++ (front ++ [cursor]), order, ?_⟩
      have rotated := upcoming_append ⟨ring.members, some later, later :: ring.selected⟩
        (front ++ [cursor]) rest rfl (by simp [split]) valid.nodup
      rw [rotated]
      simp

/-- A leaving member has no member behind it, or none in front of it that was selected. -/
def FairExit (ring : Ring α) (member : α) : Prop :=
  behind ring.members member = [] ∨
    ∀ earlier ∈ ahead ring.members member, earlier ∉ ring.selected

/-- A step whose leaving member, if any, leaves fairly. -/
def FairStep (before : Ring α) (event : RingEvent α) (after : Ring α) : Prop :=
  (∀ member, event = .exit member → FairExit before member) ∧ Step before event after

/-- Fair events keep the order of two upcoming members, the later one selected, that they do not
name. -/
theorem FairStep.order {before after : Ring α} {event : RingEvent α}
    (step : FairStep before event after) (valid : Valid before) {left right : α}
    (order : [left, right].Sublist before.upcoming) (past : right ∈ before.selected)
    (stays : event ≠ .exit left ∧ event ≠ .exit right) (waits : event ≠ .select left) :
    [left, right].Sublist after.upcoming ∧ right ∈ after.selected := by
  obtain ⟨fair, step⟩ := step
  cases step with
  | @create member fresh =>
    refine ⟨?_, past⟩
    cases here : before.cursor with
    | none =>
      simp only [upcoming, here] at order ⊢
      exact order.trans (List.sublist_cons_self _ _)
    | some cursor =>
      obtain ⟨front, rest, split⟩ := List.append_of_mem (valid.cursor cursor here)
      rw [upcoming_append _ _ _ here split valid.nodup] at order
      have longer := upcoming_append ⟨member :: before.members, some cursor, before.selected⟩
        (member :: front) rest rfl (by simp [split]) (List.nodup_cons.mpr ⟨fresh, valid.nodup⟩)
      rw [longer]
      refine order.trans ((List.Sublist.refl rest).append ?_)
      exact List.sublist_cons_self _ _
  | @exit member current =>
    obtain ⟨front, rest, split⟩ := List.append_of_mem (valid.cursor member current)
    have absent : member ∉ front := fun inside =>
      (List.nodup_append.mp (split ▸ valid.nodup)).2.2 member inside member List.mem_cons_self rfl
    have leftOther : left ≠ member := fun same => stays.1 (same ▸ rfl)
    have rightOther : right ≠ member := fun same => stays.2 (same ▸ rfl)
    refine ⟨?_, List.mem_filter.mpr ⟨past, by simpa using rightOther⟩⟩
    rw [upcoming_append _ _ _ current split valid.nodup] at order
    have shorter : [left, right].Sublist (rest ++ front) := by
      rw [← List.append_assoc, List.sublist_append_iff] at order
      obtain ⟨most, last, whole, contained, single⟩ := order
      rcases List.sublist_singleton.mp single with rfl | rfl
      · rw [List.append_nil] at whole
        exact whole ▸ contained
      · have ends := congrArg List.getLast? whole
        simp [rightOther] at ends
    have remaining : before.members.erase member = front ++ rest := by
      rw [split, List.erase_append_right _ absent, List.erase_cons_head]
    simp only [upcoming, remaining]
    have exit := fair member rfl
    rw [FairExit, split, (span_append absent).1, (span_append absent).2] at exit
    rcases exit with rfl | unselected
    · simpa using shorter
    · obtain ⟨most, last, whole, inRest, inFront⟩ := List.sublist_append_iff.mp shorter
      rcases List.eq_nil_or_concat last with rfl | ⟨_, final, rfl⟩
      · rw [List.append_nil] at whole
        subst whole
        exact inRest.trans (List.sublist_append_right _ _)
      · have ends := congrArg List.getLast? whole
        simp only [List.getLast?_cons_cons, List.getLast?_singleton, List.concat_eq_append,
          List.getLast?_append, Option.some_or, Option.some.injEq] at ends
        have inside : right ∈ front := inFront.subset (by simp [ends])
        exact absurd past (unselected right inside)
  | @select member next =>
    obtain ⟨rest, whole, rotated⟩ := valid.select next
    refine ⟨?_, List.mem_cons_of_mem _ past⟩
    rw [rotated]
    rw [whole] at order
    have other : left ≠ member := fun same => waits (same ▸ rfl)
    cases order with
    | cons _ later => exact later.trans (List.sublist_append_left _ _)
    | cons_cons _ _ => exact absurd rfl other

/-- In a valid ring another member stands in front of the one just selected. -/
theorem Step.order_selected {before after : Ring α} {left right : α}
    (step : Step before (.select right) after) (valid : Valid before)
    (present : left ∈ after.members) (other : left ≠ right) :
    [left, right].Sublist after.upcoming ∧ right ∈ after.selected := by
  cases step with
  | select next =>
    obtain ⟨rest, whole, rotated⟩ := valid.select next
    rw [rotated]
    refine ⟨?_, List.mem_cons_self⟩
    have inside : left ∈ rest := by
      have listed : left ∈ before.upcoming := valid.upcoming_perm.mem_iff.mpr present
      rw [whole] at listed
      exact (List.mem_cons.mp listed).resolve_left other
    exact (List.singleton_sublist.mpr inside).append (List.Sublist.refl [right])

/-- A selection never takes a member that another one stands in front of. -/
theorem Step.select_first {before after : Ring α} {left right : α}
    (step : Step before (.select right) after) (valid : Valid before)
    (order : [left, right].Sublist before.upcoming) : False := by
  cases step with
  | select next =>
    obtain ⟨rest, whole, _⟩ := valid.select next
    have nodup := valid.upcoming_perm.nodup_iff.mpr valid.nodup
    rw [whole] at order nodup
    have absent := (List.nodup_cons.mp nodup).1
    cases order with
    | cons _ later => exact absent (later.subset (by simp))
    | cons_cons _ later => exact absent (later.subset (by simp))

/-- **Round robin.** Between two selections of one member, over fair events, every other member
that stays is selected. -/
theorem selected_between {first second third last : Ring α} {events : List (RingEvent α)}
    {left right : α} (valid : Valid first) (begins : FairStep first (.select right) second)
    (run : Run FairStep second events third) (ends : FairStep third (.select right) last)
    (present : left ∈ second.members) (other : left ≠ right)
    (stays : RingEvent.exit left ∉ events ∧ RingEvent.exit right ∉ events) :
    RingEvent.select left ∈ events := by
  by_contra waits
  have kept : Valid third ∧ [left, right].Sublist third.upcoming ∧ right ∈ third.selected := by
    clear ends
    induction run with
    | nil => exact ⟨begins.2.valid valid, begins.2.order_selected valid present other⟩
    | snoc _ step ih =>
      simp only [List.mem_append, List.mem_singleton, not_or] at stays waits
      obtain ⟨valid, order, past⟩ := ih ⟨stays.1.1, stays.2.1⟩ waits.1
      exact ⟨step.2.valid valid, step.order valid order past ⟨Ne.symm stays.1.2,
        Ne.symm stays.2.2⟩ (Ne.symm waits.2)⟩
  exact ends.2.select_first kept.1 kept.2.1

end Ring

end Unarddeg.Library
