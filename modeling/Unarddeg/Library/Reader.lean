import Mathlib.Data.List.Basic

/-!
# Readers

A reader takes the first item off a text, if there is one. `readUpTo` applies it until there is no
item left or a number of items is read; `Reads` is the relation between a text, items that are read
from it one after the other, and the text that is left. What is written so that each item can be
read back is read back whole (`readUpTo_reads`).
-/

namespace Unarddeg.Library

section Reader

variable {τ α : Type}

/-- At most some items from a text, and the text behind them. -/
def readUpTo (next : τ → Option (α × τ)) : Nat → τ → List α × τ
  | 0, text => ([], text)
  | count + 1, text =>
    match next text with
    | none => ([], text)
    | some (item, rest) => (item :: (readUpTo next count rest).1, (readUpTo next count rest).2)

/-- Items are read from a text one after the other. -/
inductive Reads (next : τ → Option (α × τ)) : τ → List α → τ → Prop
  /-- No item is read. -/
  | nothing (text : τ) : Reads next text [] text
  /-- An item is read, and more behind it. -/
  | item {text middle rest : τ} {item : α} {items : List α} :
      next text = some (item, middle) → Reads next middle items rest →
        Reads next text (item :: items) rest

variable {next : τ → Option (α × τ)} {text rest : τ} {item : α} {items : List α} {count : Nat}

/-- Nothing is read from a text without an item. -/
theorem readUpTo_none (nothing : next text = none) : readUpTo next count text = ([], text) := by
  cases count with
  | zero => rfl
  | succ count => rw [readUpTo, nothing]

/-- The first item is read, and then the ones behind it. -/
theorem readUpTo_some (found : next text = some (item, rest)) :
    readUpTo next (count + 1) text =
      (item :: (readUpTo next count rest).1, (readUpTo next count rest).2) := by
  rw [readUpTo, found]

/-- No more items are read than may be. -/
theorem readUpTo_length_le : (readUpTo next count text).1.length ≤ count := by
  induction count generalizing text with
  | zero => exact Nat.le_refl _
  | succ count ih =>
    rw [readUpTo]
    split
    · exact Nat.zero_le _
    · exact Nat.succ_le_succ ih

/-- When fewer items are read than may be, there is no other one. -/
theorem readUpTo_fewer (fewer : (readUpTo next count text).1.length < count) :
    next (readUpTo next count text).2 = none := by
  induction count generalizing text with
  | zero => exact absurd fewer (Nat.not_lt_zero _)
  | succ count ih =>
    cases found : next text with
    | none => rwa [readUpTo_none found]
    | some taken =>
      rw [readUpTo_some found] at fewer ⊢
      exact ih (Nat.lt_of_succ_lt_succ fewer)

/-- When there is an item behind some, more than those are read. -/
theorem readUpTo_more {first : Nat} (more : next (readUpTo next first text).2 ≠ none)
    (room : first < count) : first < (readUpTo next count text).1.length := by
  induction first generalizing text count with
  | zero =>
    obtain ⟨count, rfl⟩ := Nat.exists_eq_succ_of_ne_zero (Nat.ne_of_gt room)
    obtain ⟨taken, found⟩ := Option.ne_none_iff_exists'.mp more
    have found : next text = some taken := found
    rw [readUpTo_some found]
    exact Nat.succ_pos _
  | succ first ih =>
    obtain ⟨count, rfl⟩ := Nat.exists_eq_succ_of_ne_zero (Nat.ne_zero_of_lt room)
    cases found : next text with
    | none =>
      rw [readUpTo_none found] at more
      exact absurd found more
    | some taken =>
      rw [readUpTo_some found] at more ⊢
      exact Nat.succ_lt_succ (ih more (Nat.lt_of_succ_lt_succ room))

/-- What holds of every item that can be read holds of all that are. -/
theorem readUpTo_items {fine : α → Prop}
    (each : ∀ text item rest, next text = some (item, rest) → fine item) :
    ∀ item ∈ (readUpTo next count text).1, fine item := by
  induction count generalizing text with
  | zero => exact fun item member => absurd member List.not_mem_nil
  | succ count ih =>
    cases found : next text with
    | none =>
      rw [readUpTo_none found]
      exact fun item member => absurd member List.not_mem_nil
    | some taken =>
      rw [readUpTo_some found]
      exact List.forall_mem_cons.mpr ⟨each text taken.1 taken.2 found, ih⟩

/-- Items in a row are read first, and then the ones behind them. -/
theorem Reads.readUpTo (reads : Reads next text items rest) (more : Nat) :
    readUpTo next (items.length + more) text =
      (items ++ (readUpTo next more rest).1, (readUpTo next more rest).2) := by
  induction reads with
  | nothing text => rw [List.length_nil, Nat.zero_add, List.nil_append]
  | item found _ ih =>
    rw [List.length_cons, Nat.add_right_comm, readUpTo_some found, ih]
    rfl

/-- As many items as may be read are read. -/
theorem Reads.readUpTo_length (reads : Reads next text items rest) :
    Library.readUpTo next items.length text = (items, rest) := by
  have all := reads.readUpTo 0
  rwa [Nat.add_zero, Library.readUpTo, List.append_nil] at all

/-- Items in a row with no other one behind them are all that is read. -/
theorem Reads.readUpTo_none (reads : Reads next text items rest) (nothing : next rest = none)
    (enough : items.length ≤ count) : Library.readUpTo next count text = (items, rest) := by
  obtain ⟨more, rfl⟩ := Nat.exists_eq_add_of_le enough
  rw [reads.readUpTo more, Library.readUpTo_none nothing, List.append_nil]

/-- Items that are each read back from what is written for them are read back in a row. -/
theorem reads_flatMap {β : Type} {next : List β → Option (α × List β)} {write : α → List β}
    {items : List α} (each : ∀ item ∈ items, ∀ rest, next (write item ++ rest) = some (item, rest))
    (rest : List β) : Reads next (items.flatMap write ++ rest) items rest := by
  induction items with
  | nil => exact .nothing rest
  | cons item items ih =>
    obtain ⟨first, others⟩ := List.forall_mem_cons.mp each
    rw [List.flatMap_cons, List.append_assoc]
    exact .item (first _) (ih others)

end Reader

end Unarddeg.Library
