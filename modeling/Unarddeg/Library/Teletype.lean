import Mathlib

/-!
# Unbounded teletypes

A teletype has rows of some width and no last row. A character is written at the cursor, which
moves to the right, and behind the last column to the next row. `top height` is the first of the
last rows that a screen of some height has room for; it only moves when the cursor starts a row.
-/

namespace Unarddeg.Library

/-- A teletype with cells that may have been written. -/
structure Teletype (α : Type*) where
  /-- What was last written to a row and column. -/
  cells : Nat → Nat → Option α
  /-- The row of the cursor. -/
  row : Nat
  /-- The column of the cursor. -/
  column : Nat

/-- What a teletype is sent. -/
inductive Key (α : Type*)
  /-- Write a character. -/
  | character (value : α)
  /-- Start a new row. -/
  | newRow
  /-- Return to the first column. -/
  | home

namespace Teletype

variable {α : Type*}

/-- A teletype to which nothing was written. -/
def blank : Teletype α := ⟨fun _ _ => none, 0, 0⟩

/-- The cursor starts a new row. -/
def startRow (teletype : Teletype α) : Teletype α :=
  { teletype with row := teletype.row + 1, column := 0 }

/-- A character is written at the cursor. -/
def write (teletype : Teletype α) (value : α) : Teletype α :=
  { teletype with
    cells := Function.update teletype.cells teletype.row
      (Function.update (teletype.cells teletype.row) teletype.column (some value))
    column := teletype.column + 1 }

/-- What a teletype of some width does with a key. -/
def send (width : Nat) (teletype : Teletype α) : Key α → Teletype α
  | .character value =>
    let written := teletype.write value
    if written.column < width then written else written.startRow
  | .newRow => teletype.startRow
  | .home => { teletype with column := 0 }

/-- The first of the last rows. -/
def top (height : Nat) (teletype : Teletype α) : Nat := teletype.row + 1 - height

/-- Nothing was written below the cursor. -/
def Fresh (teletype : Teletype α) : Prop :=
  ∀ row column, teletype.row < row → teletype.cells row column = none

section Cells

variable {teletype : Teletype α} {value : α} {width row column : Nat} {key : Key α}

/-- A character changes the cell at the cursor. -/
theorem write_cells : (teletype.write value).cells row column =
    if row = teletype.row ∧ column = teletype.column then some value
    else teletype.cells row column := by
  simp only [write, Function.update_apply]
  split_ifs <;> simp_all

/-- A new row is below what was written. -/
theorem Fresh.startRow (fresh : teletype.Fresh) : teletype.startRow.Fresh :=
  fun row column below => fresh row column (Nat.lt_of_succ_lt below)

/-- A character is not written below the cursor. -/
theorem Fresh.write (fresh : teletype.Fresh) : (teletype.write value).Fresh := by
  intro row column below
  have other : ¬ (row = teletype.row ∧ column = teletype.column) := fun here =>
    Nat.lt_irrefl row (here.1 ▸ below)
  rw [write_cells, if_neg other]
  exact fresh row column below

/-- No key writes below the cursor. -/
theorem Fresh.send (fresh : teletype.Fresh) : (teletype.send width key).Fresh := by
  cases key with
  | character value =>
    unfold Teletype.send
    dsimp only
    split
    · exact fresh.write
    · exact fresh.write.startRow
  | newRow => exact fresh.startRow
  | home => exact fresh

end Cells

end Teletype

end Unarddeg.Library
