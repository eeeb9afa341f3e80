import Unarddeg.Library.Exec

/-!
# Tables of fixed capacity

A table has room for some entries and counts the ones in use, which come first. An entry is only
appended inside the capacity. `appendAll_iff` says which values fit: those that come in the end
behind the ones in use.
-/

namespace Unarddeg.Library

/-- A table with room for some entries, and the number in use. -/
structure BoundedTable (α : Type) (capacity : Nat) where
  /-- All entries. -/
  entries : Vector α capacity
  /-- The number of entries in use. -/
  count : Nat

namespace BoundedTable

section Append

variable {ε α ι : Type} {capacity : Nat} {table next : BoundedTable α capacity} {value : α}
  {values : List α}

/-- The entries in use. -/
def inUse (table : BoundedTable α capacity) : List α := table.entries.toList.take table.count

/-- Another entry behind the ones in use; it stops with a reason when there is no room. -/
def append (reason : ε) (value : α) : EStateM ε (BoundedTable α capacity) PUnit := fun table =>
  if room : table.count < capacity then
    .ok ⟨⟩ ⟨table.entries.set table.count value room, table.count + 1⟩
  else .error reason table

/-- A table whose number is inside its capacity has that many entries in use. -/
theorem length_inUse : table.inUse.length = min table.count capacity := by
  rw [inUse, List.length_take, Vector.length_toList]

/-- An entry is put behind the ones in use. -/
theorem append_inUse {reason : ε} (returned : append reason value table = .ok ⟨⟩ next) :
    next.inUse = table.inUse ++ [value] ∧ next.count = table.count + 1 := by
  unfold append at returned
  split at returned
  · next room =>
    cases returned
    refine ⟨?_, rfl⟩
    have inside : table.count < table.entries.toList.length := by
      rwa [Vector.length_toList]
    unfold inUse
    rw [Vector.toList_set, List.take_add_one, List.take_set_of_le (Nat.le_refl _),
      List.getElem?_set_self inside]
    rfl
  · cases returned

/-- An entry is appended when there is room. -/
theorem append_ok {reason : ε} (room : table.count < capacity) :
    ∃ next, append reason value table = .ok ⟨⟩ next := by
  unfold append
  rw [dif_pos room]
  exact ⟨_, rfl⟩

/-- Values that are all appended are put behind the entries in use, inside the capacity. -/
theorem appendAll_inUse {reason : ε} (returned : values.forM (append reason) table = .ok ⟨⟩ next) :
    next.inUse = table.inUse ++ values ∧ next.count = table.count + values.length ∧
      (values = [] ∨ next.count ≤ capacity) := by
  induction values generalizing table with
  | nil =>
    obtain ⟨_, rfl⟩ := pure_ok.mp returned
    exact ⟨(List.append_nil _).symm, rfl, .inl rfl⟩
  | cons value values ih =>
    obtain ⟨_, middle, first, rest⟩ := bind_ok.mp returned
    obtain ⟨behind, one⟩ := append_inUse first
    obtain ⟨all, count, inside⟩ := ih rest
    refine ⟨?_, ?_, .inr ?_⟩
    · rw [all, behind, List.append_assoc, List.singleton_append]
    · rw [count, one, List.length_cons]
      omega
    · rcases inside with rfl | inside
      · obtain ⟨_, rfl⟩ := pure_ok.mp rest
        unfold append at first
        split at first
        · cases first
          assumption
        · cases first
      · exact inside

/-- Values are all appended when they fit. -/
theorem appendAll_ok {reason : ε} (fits : table.count + values.length ≤ capacity) :
    ∃ next, values.forM (append reason) table = .ok ⟨⟩ next := by
  induction values generalizing table with
  | nil => exact ⟨table, rfl⟩
  | cons value values ih =>
    rw [List.length_cons] at fits
    obtain ⟨middle, first⟩ := @append_ok ε α _ table value reason (by omega)
    obtain ⟨next, rest⟩ := @ih middle (by
      rw [(append_inUse first).2]
      omega)
    exact ⟨next, bind_ok.mpr ⟨⟨⟩, middle, first, rest⟩⟩

/-- In a table with room for an entry, none is in use exactly when the number is zero. -/
theorem inUse_empty (some : 0 < capacity) : table.inUse = [] ↔ table.count = 0 := by
  rw [← List.length_eq_zero_iff, length_inUse]
  omega

/-- **Tables.** The entries in use become exactly some values when no entry was in use and the
values fit. -/
theorem appendAll_iff {reason : ε} (some : 0 < capacity) :
    (∃ next, values.forM (append reason) table = .ok ⟨⟩ next ∧ next.inUse = values) ↔
      table.count = 0 ∧ values.length ≤ capacity := by
  constructor
  · rintro ⟨next, returned, exactly⟩
    obtain ⟨all, count, inside⟩ := appendAll_inUse returned
    have none : table.count = 0 := by
      rw [all, List.append_left_eq_self] at exactly
      exact (inUse_empty some).mp exactly
    refine ⟨none, ?_⟩
    rcases inside with rfl | inside
    · exact Nat.zero_le _
    · omega
  · rintro ⟨none, fits⟩
    obtain ⟨next, returned⟩ := @appendAll_ok ε α _ table values reason (by omega)
    refine ⟨next, returned, ?_⟩
    rw [(appendAll_inUse returned).1, (inUse_empty some).mpr none, List.nil_append]

end Append

end BoundedTable

section Nested

variable {ε σ ι κ : Type} {body : κ → EStateM ε σ PUnit} {inner : ι → List κ} {items : List ι}

/-- A loop over the items of inner lists, one after the other, is a loop over loops. -/
theorem forM_flatMap : (items.flatMap inner).forM body =
    items.forM fun item => (inner item).forM body := by
  induction items with
  | nil => rfl
  | cons item items ih =>
    have split : (inner item ++ items.flatMap inner).forM body =
        (inner item).forM body >>= fun _ => (items.flatMap inner).forM body := List.forM_append
    rw [List.flatMap_cons, split, ih]
    rfl

/-- A loop over the items with a property tests each item. -/
theorem forM_filter {items : List κ} {property : κ → Bool} : (items.filter property).forM body =
    items.forM fun item => if property item then body item else pure ⟨⟩ := by
  induction items with
  | nil => rfl
  | cons item items ih =>
    show _ = (if property item then body item else pure ⟨⟩) >>= fun _ => items.forM _
    rw [List.filter_cons, ← ih]
    split
    · rfl
    · exact (pure_bind _ _).symm

/-- A loop over images is a loop over the items. -/
theorem forM_map {place : ι → κ} :
    (items.map place).forM body = items.forM fun item => body (place item) := by
  induction items with
  | nil => rfl
  | cons item items ih =>
    show body (place item) >>= (fun _ => (items.map place).forM body) = _
    rw [ih]
    rfl

end Nested

end Unarddeg.Library
