import Unarddeg.Library.Exec

/-!
# Handles of open objects

Owners open objects and get handles for them; a handle is given back to close its object. Beside
what each owner holds, in the order of the opens, the state keeps every handle that was ever
returned. As long as no handle was returned twice, the handles of an owner are different from
each other, so that what it holds is a finite map in the order of its insertions, and closing a
handle removes exactly its entry.
-/

namespace Unarddeg.Library

/-- What owners hold, and the handles returned so far. -/
structure Handles (Owner Handle Object : Type) where
  /-- The open objects of an owner with their handles, in the order of the opens. -/
  held : Owner → List (Handle × Object)
  /-- Every handle that was returned, latest first. -/
  returned : List Handle

/-- What happens to handles. -/
inductive HandleCall (Owner Handle Object : Type)
  /-- An owner opened an object. -/
  | opened (owner : Owner) (handle : Handle) (object : Object)
  /-- An owner closed a handle. -/
  | closed (owner : Owner) (handle : Handle)
  /-- An owner begins with nothing. -/
  | cleared (owner : Owner)
  /-- Something that concerns no handle. -/
  | other

/-- The handle that a call returned. -/
def HandleCall.returns {Owner Handle Object : Type} :
    HandleCall Owner Handle Object → Option Handle
  | .opened _ handle _ => some handle
  | _ => none

namespace Handles

variable {Owner Handle Object : Type}

/-- Nobody holds anything. -/
def empty : Handles Owner Handle Object := ⟨fun _ => [], []⟩

/-- No owner holds a handle twice, and each held handle was returned. -/
structure Distinct (handles : Handles Owner Handle Object) : Prop where
  /-- The handles of an owner are different. -/
  nodup : ∀ owner, ((handles.held owner).map Prod.fst).Nodup
  /-- They were returned. -/
  returned : ∀ owner, ∀ entry ∈ handles.held owner, entry.1 ∈ handles.returned

/-- Nobody holds a handle twice at the beginning. -/
theorem distinct_empty : Distinct (empty : Handles Owner Handle Object) where
  nodup _ := List.nodup_nil
  returned _ _ member := by cases member

variable [DecidableEq Owner]

/-- One call: an open appends an entry, a close removes the first entry with the handle, and all
other entries of all owners stay, in their order. -/
inductive Step : Handles Owner Handle Object → HandleCall Owner Handle Object →
    Handles Owner Handle Object → Prop
  | opened {handles : Handles Owner Handle Object} (owner : Owner) (handle : Handle)
      (object : Object) :
      Step handles (.opened owner handle object)
        ⟨Function.update handles.held owner (handles.held owner ++ [(handle, object)]),
          handle :: handles.returned⟩
  | closed {handles : Handles Owner Handle Object} {owner : Owner} {handle : Handle}
      {object : Object} {front back : List (Handle × Object)}
      (split : handles.held owner = front ++ (handle, object) :: back)
      (first : handle ∉ front.map Prod.fst) :
      Step handles (.closed owner handle)
        ⟨Function.update handles.held owner (front ++ back), handles.returned⟩
  | cleared {handles : Handles Owner Handle Object} (owner : Owner) :
      Step handles (.cleared owner) ⟨Function.update handles.held owner [], handles.returned⟩
  | other {handles : Handles Owner Handle Object} : Step handles .other handles

/-- The handles returned by a call are in front of those returned before. -/
theorem Step.returned_eq {before after : Handles Owner Handle Object}
    {call : HandleCall Owner Handle Object} (step : Step before call after) :
    after.returned = call.returns.toList ++ before.returned := by
  cases step <;> rfl

/-- Other entries for one owner keep the handles different when they are. -/
theorem Distinct.update {handles : Handles Owner Handle Object} (distinct : Distinct handles)
    (owner : Owner) {entries : List (Handle × Object)} {returned : List Handle}
    (nodup : (entries.map Prod.fst).Nodup) (inside : ∀ entry ∈ entries, entry.1 ∈ returned)
    (grows : ∀ handle ∈ handles.returned, handle ∈ returned) :
    Distinct ⟨Function.update handles.held owner entries, returned⟩ := by
  constructor
  · intro other
    dsimp only
    by_cases same : other = owner
    · rw [same, Function.update_self]
      exact nodup
    · rw [Function.update_of_ne same]
      exact distinct.nodup other
  · intro other entry member
    dsimp only at member ⊢
    by_cases same : other = owner
    · rw [same, Function.update_self] at member
      exact inside entry member
    · rw [Function.update_of_ne same] at member
      exact grows _ (distinct.returned other entry member)

/-- A call that returns no handle a second time keeps the handles of each owner different. -/
theorem Step.distinct {before after : Handles Owner Handle Object}
    {call : HandleCall Owner Handle Object} (step : Step before call after)
    (fresh : after.returned.Nodup) (distinct : Distinct before) : Distinct after := by
  cases step with
  | opened owner handle object =>
    have new : handle ∉ before.returned := (List.nodup_cons.mp fresh).1
    apply distinct.update
    · rw [List.map_append, List.nodup_append]
      refine ⟨distinct.nodup owner, by simp, ?_⟩
      intro left held right single shared
      obtain ⟨entry, member, rfl⟩ := List.mem_map.mp held
      obtain rfl : right = handle := by simpa using single
      exact new (shared ▸ distinct.returned owner entry member)
    · intro entry member
      rcases List.mem_append.mp member with old | single
      · exact List.mem_cons_of_mem _ (distinct.returned owner entry old)
      · rw [List.mem_singleton.mp single]
        exact List.mem_cons_self
    · exact fun _ => List.mem_cons_of_mem _
  | @closed owner handle object front back split first =>
    have sublist : (front ++ back).Sublist (before.held owner) := by
      rw [split]
      exact (List.sublist_cons_self _ _).append_left front
    apply distinct.update
    · exact (distinct.nodup owner).sublist (sublist.map _)
    · exact fun entry member => distinct.returned owner entry (sublist.mem member)
    · exact fun _ => id
  | cleared owner =>
    apply distinct.update
    · exact List.nodup_nil
    · exact fun _ member => absurd member (List.not_mem_nil)
    · exact fun _ => id
  | other => exact distinct

/-- After a run that returned no handle twice the handles of each owner are different. -/
theorem distinct_run {before after : Handles Owner Handle Object}
    {calls : List (HandleCall Owner Handle Object)} (run : Run Step before calls after)
    (start : Distinct before) (fresh : after.returned.Nodup) : Distinct after := by
  induction run with
  | nil => exact start
  | snoc _ step ih =>
    apply step.distinct fresh
    apply ih
    rw [step.returned_eq] at fresh
    exact fresh.of_append_right

end Handles

end Unarddeg.Library
