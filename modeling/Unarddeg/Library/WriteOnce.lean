import Mathlib

/-!
# Stores that are written once

A store gives each key at most one value, and an insertion never replaces one. So after any
insertions a key has its old value, or the value of the first insertion with it (`insertAll_apply`).
-/

namespace Unarddeg.Library

variable {κ ν : Type*} [BEq κ]

/-- An insertion into a store: a key that has a value keeps it. -/
def insertNew (store : κ → Option ν) (key : κ) (value : ν) : κ → Option ν := fun other =>
  if other == key then (store other).or (some value) else store other

/-- Insertions one after the other. -/
def insertAll (store : κ → Option ν) (entries : List (κ × ν)) : κ → Option ν :=
  entries.foldl (fun store entry => insertNew store entry.1 entry.2) store

variable {store : κ → Option ν} {key other : κ} {value : ν} {entries more : List (κ × ν)}

/-- A key that has a value keeps it. -/
theorem insertNew_held (held : store other = some value) {new : ν} :
    insertNew store key new other = some value := by
  unfold insertNew
  rw [held, Option.some_or, ite_self]

/-- A key without a value gets the one that is inserted. -/
theorem insertNew_same [ReflBEq κ] (absent : store key = none) :
    insertNew store key value key = some value := by
  rw [insertNew, if_pos BEq.rfl, absent, Option.none_or]

/-- Another key keeps what it has. -/
theorem insertNew_other [LawfulBEq κ] (different : other ≠ key) :
    insertNew store key value other = store other :=
  if_neg fun same => different (eq_of_beq same)

/-- Insertions in two parts. -/
theorem insertAll_append : insertAll store (entries ++ more) =
    insertAll (insertAll store entries) more := List.foldl_append

/-- After insertions a key has its old value, or the first one that was inserted for it. -/
theorem insertAll_apply : insertAll store entries key = (store key).or (entries.lookup key) := by
  induction entries generalizing store with
  | nil => exact Option.or_none.symm
  | cons entry rest ih =>
    have step : insertAll store (entry :: rest) key =
        insertAll (insertNew store entry.1 entry.2) rest key := rfl
    rw [step, ih, List.lookup_cons, insertNew]
    cases key == entry.1 with
    | true => rw [if_pos rfl, Option.or_assoc, Option.some_or]
    | false => rw [if_neg Bool.false_ne_true]

end Unarddeg.Library
