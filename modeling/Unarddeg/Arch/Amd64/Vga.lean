import Unarddeg.Kernel.Panic
import Unarddeg.Library.Loop
import Unarddeg.Library.Teletype

/-!
# The VGA text screen

`Scroll` and `VGAPutCharacter` of `amd64/drivers/serial.c`. The screen is the memory from
`VGA_TEXT_BUFFER` on, two bytes for each cell: its character and its colours. An access behind the
last cell stops.

The screen shows the last rows of an unbounded terminal (`vga_terminal`). A cell that was not
written since its row appeared is blank: it has the zero of a fresh screen or the space of `Scroll`.
-/

namespace Unarddeg.Amd64

open Library

/-- `W`. -/
def screenW : Nat := 80

/-- `H`. -/
def screenH : Nat := 25

/-- The cursor and the text buffer. -/
structure Screen where
  /-- `X`. -/
  x : Int
  /-- `Y`. -/
  y : Int
  /-- The bytes from `VGA_TEXT_BUFFER` on. -/
  vga : Nat → UInt8

/-- An index of the text buffer. -/
def vgaIndex (index : Int) : Kernel Screen Nat :=
  if 0 ≤ index ∧ index < 2 * (screenW * screenH) then pure index.toNat else throw .outOfBounds

/-- `VGA[index]`. -/
def vgaLoad (index : Int) : Kernel Screen UInt8 := do
  let place ← vgaIndex index
  let screen ← get
  pure (screen.vga place)

/-- `VGA[index] = value`. -/
def vgaStore (index : Int) (value : UInt8) : Kernel Screen Unit := do
  let place ← vgaIndex index
  modify fun screen => { screen with vga := Function.update screen.vga place value }

/-- The colours of all characters. -/
def colours : UInt8 := 0x1e

/-- `Scroll` copies a cell to the row above. -/
def copyCell (y x : Nat) : Kernel Screen Unit := do
  let source : Int := (y * screenW + x) * 2
  let target : Int := ((y - 1 : Int) * screenW + x) * 2
  let character ← vgaLoad source
  vgaStore target character
  let colour ← vgaLoad (source + 1)
  vgaStore (target + 1) colour

/-- `Scroll` clears a cell of the last row. -/
def clearCell (x : Nat) : Kernel Screen Unit := do
  let index : Int := ((screenH - 1 : Int) * screenW + x) * 2
  vgaStore index ' '.toUInt8
  vgaStore (index + 1) colours

/-- `Scroll`. -/
def scroll : Kernel Screen Unit := do
  (List.range (screenH - 1)).forM fun row =>
    (List.range screenW).forM fun x => copyCell (row + 1) x
  (List.range screenW).forM clearCell
  modify fun screen => { screen with y := screenH - 1 }

/-- `VGAPutCharacter`. -/
def vgaPutCharacter (chr : UInt8) : Kernel Screen Unit := do
  if chr = '\r'.toUInt8 then
    modify fun screen => { screen with x := 0 }
  else if chr = '\n'.toUInt8 then
    modify fun screen => { screen with x := 0, y := screen.y + 1 }
    let screen ← get
    onlyIf (screen.y ≥ screenH) scroll
  else
    let screen ← get
    vgaStore ((screen.y * screenW + screen.x) * 2) chr
    vgaStore ((screen.y * screenW + screen.x) * 2 + 1) colours
    modify fun screen => { screen with x := screen.x + 1 }
    let screen ← get
    onlyIf (screen.x ≥ screenW) do
      modify fun screen => { screen with x := 0, y := screen.y + 1 }
      let screen ← get
      onlyIf (screen.y ≥ screenH) scroll

/-! ## Scrolling -/

section Scroll

variable {screen : Screen} {value : UInt8}

/-- The screen with another byte. -/
def Screen.stored (screen : Screen) (place : Nat) (value : UInt8) : Screen :=
  { screen with vga := Function.update screen.vga place value }

/-- A byte inside the buffer is loaded. -/
theorem vgaLoad_eq {place : Nat} (inside : place < 2 * (screenW * screenH)) :
    vgaLoad place screen = .ok (screen.vga place) screen := by
  have allowed : (0 : Int) ≤ place ∧ (place : Int) < 2 * (screenW * screenH) := by
    omega
  rw [vgaLoad, vgaIndex, if_pos allowed]
  rfl

/-- A byte inside the buffer is stored. -/
theorem vgaStore_eq {place : Nat} (inside : place < 2 * (screenW * screenH)) :
    vgaStore place value screen = .ok () (screen.stored place value) := by
  have allowed : (0 : Int) ≤ place ∧ (place : Int) < 2 * (screenW * screenH) := by
    omega
  rw [vgaStore, vgaIndex, if_pos allowed]
  rfl

/-- The screen after the first cells got the contents of the cells one row below. -/
def Screen.shifted (screen : Screen) (cells : Nat) : Screen :=
  { screen with vga := fun place =>
      if place < 2 * cells then screen.vga (place + 2 * screenW) else screen.vga place }

/-- The screen with another cell. -/
def Screen.storedCell (screen : Screen) (cell : Nat) (character colour : UInt8) : Screen :=
  (screen.stored (2 * cell) character).stored (2 * cell + 1) colour

/-- The bytes of a cell. -/
theorem storedCell_vga (cell place : Nat) (character colour : UInt8) :
    (screen.storedCell cell character colour).vga place =
      if place = 2 * cell + 1 then colour
      else if place = 2 * cell then character else screen.vga place := by
  simp only [Screen.storedCell, Screen.stored, Function.update_apply]

/-- The place of a cell. -/
theorem cell_place (y x : Nat) :
    ((y : Int) * screenW + x) * 2 = ((2 * (y * screenW + x) : Nat) : Int) := by
  push_cast
  ring

/-- One more cell is shifted. -/
theorem shifted_succ (cells : Nat) :
    (screen.shifted cells).storedCell cells (screen.vga (2 * cells + 2 * screenW))
      (screen.vga (2 * cells + 2 * screenW + 1)) = screen.shifted (cells + 1) := by
  have same : ∀ place, ((screen.shifted cells).storedCell cells
      (screen.vga (2 * cells + 2 * screenW)) (screen.vga (2 * cells + 2 * screenW + 1))).vga place =
        (screen.shifted (cells + 1)).vga place := by
    intro place
    rw [storedCell_vga]
    by_cases colour : place = 2 * cells + 1
    · subst colour
      have inside : 2 * cells + 1 < 2 * (cells + 1) := by
        omega
      simp [Screen.shifted, inside, Nat.add_right_comm]
    · by_cases character : place = 2 * cells
      · subst character
        simp [Screen.shifted]
      · have before : place < 2 * (cells + 1) ↔ place < 2 * cells := by
          omega
        simp [Screen.shifted, colour, character, before]
  exact congrArg (Screen.mk screen.x screen.y) (funext same)

/-- Copying a cell shifts one more cell. -/
theorem copyCell_eq {row x : Nat} (above : row < screenH - 1) (left : x < screenW) :
    copyCell (row + 1) x (screen.shifted (row * screenW + x)) =
      .ok () (screen.shifted (row * screenW + x + 1)) := by
  have inside : 2 * ((row + 1) * screenW + x) + 1 < 2 * (screenW * screenH) := by
    simp only [screenW, screenH] at above left ⊢
    omega
  have below : (row + 1) * screenW + x = row * screenW + x + screenW := by
    ring
  rw [below] at inside
  unfold copyCell
  rw [show ((row + 1 : Nat) : Int) - 1 = row by omega, cell_place, cell_place, below]
  generalize row * screenW + x = cell at inside ⊢
  have first : (screen.shifted cell).vga (2 * (cell + screenW)) =
      screen.vga (2 * cell + 2 * screenW) := by
    rw [Nat.mul_add]
    exact if_neg (by omega)
  have second : ((screen.shifted cell).stored (2 * cell) (screen.vga (2 * cell + 2 * screenW))).vga
      (2 * (cell + screenW) + 1) = screen.vga (2 * cell + 2 * screenW + 1) := by
    rw [Nat.mul_add]
    exact (Function.update_of_ne (by omega) _ _).trans (if_neg (by omega))
  -- The bytes that are read were not shifted yet.
  rw [← Nat.cast_succ, ← Nat.cast_succ, bind_of_ok (vgaLoad_eq (by omega)), first,
    bind_of_ok (vgaStore_eq (by omega)), bind_of_ok (vgaLoad_eq (by omega)), second,
    vgaStore_eq (by omega), ← shifted_succ]
  rfl

/-- The screen after the first cells of the last row were cleared. -/
def Screen.cleared (screen : Screen) (cells : Nat) : Screen :=
  { screen with vga := fun place =>
      if 2 * ((screenH - 1) * screenW) ≤ place ∧ place < 2 * ((screenH - 1) * screenW + cells) then
        if place % 2 = 0 then ' '.toUInt8 else colours
      else screen.vga place }

/-- Clearing a cell clears one more cell. -/
theorem clearCell_eq {x : Nat} (left : x < screenW) :
    clearCell x (screen.cleared x) = .ok () (screen.cleared (x + 1)) := by
  have last : ((screenH : Int) - 1) = ((screenH - 1 : Nat) : Int) := rfl
  have inside : 2 * ((screenH - 1) * screenW + x) + 1 < 2 * (screenW * screenH) := by
    simp only [screenW, screenH] at left ⊢
    omega
  unfold clearCell
  rw [last, cell_place, ← Nat.cast_succ, bind_of_ok (vgaStore_eq (by omega)),
    vgaStore_eq (by omega)]
  apply congrArg (EStateM.Result.ok ())
  apply congrArg (Screen.mk screen.x screen.y)
  funext place
  show ((screen.cleared x).storedCell ((screenH - 1) * screenW + x) ' '.toUInt8 colours).vga place =
    (screen.cleared (x + 1)).vga place
  rw [storedCell_vga]
  simp only [Screen.cleared]
  generalize (screenH - 1) * screenW = start
  by_cases colour : place = 2 * (start + x) + 1
  · have inside : 2 * start ≤ place ∧ place < 2 * (start + (x + 1)) := by
      omega
    have odd : place % 2 ≠ 0 := by
      omega
    rw [if_pos colour, if_pos inside, if_neg odd]
  · by_cases character : place = 2 * (start + x)
    · have inside : 2 * start ≤ place ∧ place < 2 * (start + (x + 1)) := by
        omega
      have even : place % 2 = 0 := by
        omega
      rw [if_neg colour, if_pos character, if_pos inside, if_pos even]
    · have before : (2 * start ≤ place ∧ place < 2 * (start + x)) ↔
          2 * start ≤ place ∧ place < 2 * (start + (x + 1)) := by
        omega
      rw [if_neg colour, if_neg character, if_congr before rfl rfl]

/-- The screen after `Scroll`. -/
def Screen.scrolled (screen : Screen) : Screen :=
  { (screen.shifted ((screenH - 1) * screenW)).cleared screenW with y := screenH - 1 }

/-- `Scroll` always returns. -/
theorem scroll_eq : scroll screen = .ok () screen.scrolled := by
  have row : ∀ row < screenH - 1, (List.range screenW).forM (copyCell (row + 1))
      (screen.shifted (row * screenW)) = .ok ⟨⟩ (screen.shifted ((row + 1) * screenW)) := by
    intro row above
    have cells := @forM_range_ok _ _ (copyCell (row + 1))
      (fun x => screen.shifted (row * screenW + x)) screenW fun x left => copyCell_eq above left
    rwa [Nat.add_zero, ← Nat.succ_mul] at cells
  have rows := @forM_range_ok _ _ (fun row => (List.range screenW).forM (copyCell (row + 1)))
    (fun row => screen.shifted (row * screenW)) (screenH - 1) row
  have clears := @forM_range_ok _ _ clearCell
    (fun x => (screen.shifted ((screenH - 1) * screenW)).cleared x) screenW
    fun x left => clearCell_eq left
  have start : screen.shifted (0 * screenW) = screen := by
    simp [Screen.shifted]
  have nothing : ∀ other : Screen, other.cleared 0 = other := by
    intro other
    apply congrArg (Screen.mk other.x other.y)
    funext place
    exact if_neg (by omega)
  rw [start] at rows
  rw [nothing] at clears
  rw [scroll, bind_of_ok rows, bind_of_ok clears]
  rfl

/-- `Scroll` moves the characters up by a row and leaves a row of spaces. -/
theorem scrolled_cell {y x : Nat} (above : y < screenH) (left : x < screenW) :
    screen.scrolled.vga (2 * (y * screenW + x)) =
      if y + 1 < screenH then screen.vga (2 * ((y + 1) * screenW + x)) else ' '.toUInt8 := by
  show (if _ then _ else if _ then _ else _) = _
  by_cases last : y + 1 < screenH
  · have outside : ¬ (2 * ((screenH - 1) * screenW) ≤ 2 * (y * screenW + x) ∧
        2 * (y * screenW + x) < 2 * ((screenH - 1) * screenW + screenW)) := by
      simp only [screenW, screenH] at last left ⊢
      omega
    have shifts : 2 * (y * screenW + x) < 2 * ((screenH - 1) * screenW) := by
      simp only [screenW, screenH] at last left ⊢
      omega
    rw [if_pos last, if_neg outside, if_pos shifts]
    apply congrArg
    ring
  · have inside : 2 * ((screenH - 1) * screenW) ≤ 2 * (y * screenW + x) ∧
        2 * (y * screenW + x) < 2 * ((screenH - 1) * screenW + screenW) := by
      simp only [screenW, screenH] at above last left ⊢
      omega
    rw [if_neg last, if_pos inside, if_pos (Nat.mul_mod_right 2 _)]

end Scroll

/-! ## The terminal -/

/-- A character of a cell that was not written. -/
def IsBlank (byte : UInt8) : Prop := byte = 0 ∨ byte = ' '.toUInt8

/-- A byte on the screen shows what was written to a cell. -/
def Displays (byte : UInt8) : Option UInt8 → Prop
  | some written => byte = written
  | none => IsBlank byte

/-- What a character means to a terminal. -/
def keyOf (chr : UInt8) : Key UInt8 :=
  if chr = '\r'.toUInt8 then .home else if chr = '\n'.toUInt8 then .newRow else .character chr

/-- The terminal to which characters were sent. -/
def terminalOf (characters : List UInt8) : Teletype UInt8 :=
  characters.foldl (fun terminal chr => terminal.send screenW (keyOf chr)) .blank

/-- The text of the screen is the last rows of a terminal. -/
def Screen.Text (screen : Screen) (terminal : Teletype UInt8) : Prop :=
  ∀ y < screenH, ∀ x < screenW, Displays (screen.vga (2 * (y * screenW + x)))
    (terminal.cells (terminal.top screenH + y) x)

/-- The screen shows the last rows of a terminal. -/
structure Screen.Window (screen : Screen) (terminal : Teletype UInt8) : Prop where
  /-- The row of the cursor. -/
  row : terminal.top screenH + screen.y = terminal.row
  /-- The text. -/
  text : screen.Text terminal
  /-- The rows that do not exist yet are empty. -/
  fresh : terminal.Fresh

/-- The screen shows the last rows of a terminal, with the cursor where it is there. -/
structure Screen.Shows (screen : Screen) (terminal : Teletype UInt8) : Prop
    extends screen.Window terminal where
  /-- The column of the cursor. -/
  column : screen.x = terminal.column
  /-- It is on the screen. -/
  left : terminal.column < screenW

section Shows

variable {screen : Screen} {terminal : Teletype UInt8}

/-- The row of the cursor is on the screen. -/
theorem Screen.Window.inside (window : screen.Window terminal) :
    0 ≤ screen.y ∧ screen.y < screenH := by
  have row := window.row
  simp only [Teletype.top, screenH] at row ⊢
  omega

/-- The end of a row, in both branches of `VGAPutCharacter`. -/
theorem newRow_shows (window : screen.Window terminal) {next : Screen}
    (same : next.vga = screen.vga) (column : next.x = 0) (row : next.y = screen.y + 1) :
    ∃ last, onlyIf (next.y ≥ screenH) scroll next = .ok () last ∧
      last.Shows terminal.startRow := by
  have inside := window.inside
  have cursor := window.row
  by_cases full : next.y ≥ screenH
  · -- The rows of the terminal that are shown move down by one.
    have moved : terminal.startRow.top screenH = terminal.top screenH + 1 := by
      simp only [Teletype.top, Teletype.startRow, screenH] at cursor inside full ⊢
      omega
    refine ⟨next.scrolled, ?_, ⟨?_, ?_, window.fresh.startRow⟩, column, Nat.zero_lt_succ _⟩
    · rw [onlyIf, if_pos full]
      exact scroll_eq
    · show (terminal.startRow.top screenH : Int) + (screenH - 1) = (terminal.row + 1 : Nat)
      rw [moved]
      omega
    · intro y above x left
      rw [scrolled_cell above left, same, moved, Nat.add_right_comm, Nat.add_assoc]
      split
      · next upper => exact window.text (y + 1) upper x left
      · have below : terminal.row < terminal.top screenH + (y + 1) := by
          omega
        rw [show terminal.startRow.cells = terminal.cells from rfl, window.fresh _ x below]
        exact .inr rfl
  · -- The first rows are still shown.
    have still : terminal.startRow.top screenH = terminal.top screenH := by
      simp only [Teletype.top, Teletype.startRow, screenH] at cursor inside full ⊢
      omega
    refine ⟨next, ?_, ⟨?_, ?_, window.fresh.startRow⟩, column, Nat.zero_lt_succ _⟩
    · rw [onlyIf, if_neg full]
      rfl
    · show (terminal.startRow.top screenH : Int) + next.y = (terminal.row + 1 : Nat)
      rw [still]
      omega
    · intro y above x left
      rw [same, still]
      exact window.text y above x left

/-- A character is written at the cursor. -/
theorem write_window (shows : screen.Shows terminal) (chr : UInt8) {cell : Nat}
    (cursor : (cell : Int) = screen.y * screenW + screen.x) :
    (screen.storedCell cell chr colours).Window (terminal.write chr) := by
  refine ⟨shows.row, ?_, shows.fresh.write⟩
  intro y above x left
  have column := shows.column
  have row := shows.row
  have inside := shows.left
  have top : (terminal.write chr).top screenH = terminal.top screenH := rfl
  rw [storedCell_vga, if_neg (by omega), top, Teletype.write_cells]
  have here : 2 * (y * screenW + x) = 2 * cell ↔
      terminal.top screenH + y = terminal.row ∧ x = terminal.column := by
    simp only [screenW] at cursor left inside ⊢
    omega
  rw [if_congr here rfl rfl]
  split
  · rfl
  · exact shows.text y above x left

/-- `VGAPutCharacter` does what the terminal does. -/
theorem vgaPutCharacter_shows (shows : screen.Shows terminal) (chr : UInt8) :
    ∃ last, vgaPutCharacter chr screen = .ok () last ∧
      last.Shows (terminal.send screenW (keyOf chr)) := by
  unfold vgaPutCharacter keyOf
  split
  · -- A carriage return.
    refine ⟨{ screen with x := 0 }, rfl, ?_⟩
    exact ⟨⟨shows.row, shows.text, shows.fresh⟩, rfl, Nat.zero_lt_succ _⟩
  · split
    · -- A line feed.
      exact @newRow_shows _ _ shows.toWindow { screen with x := 0, y := screen.y + 1 } rfl rfl rfl
    · -- Another character.
      have column := shows.column
      have left := shows.left
      have row := shows.inside
      obtain ⟨cell, cursor⟩ : ∃ cell : Nat, (cell : Int) = screen.y * screenW + screen.x := by
        refine ⟨(screen.y * screenW + screen.x).toNat, Int.toNat_of_nonneg ?_⟩
        simp only [screenW]
        omega
      have inside : 2 * cell + 1 < 2 * (screenW * screenH) := by
        simp only [screenW, screenH] at cursor left row ⊢
        omega
      have window := write_window shows chr cursor
      have place : (cell : Int) * 2 = (2 * cell : Nat) := by
        omega
      rw [bind_of_ok (get_ok.mpr ⟨rfl, rfl⟩), ← cursor, place, ← Nat.cast_succ,
        bind_of_ok (vgaStore_eq (by omega)), bind_of_ok (vgaStore_eq (by omega))]
      show ∃ last : Screen, onlyIf (screen.x + 1 ≥ screenW) _ _ = .ok () last ∧ last.Shows
        (if terminal.column + 1 < screenW then terminal.write chr
        else (terminal.write chr).startRow)
      by_cases full : screen.x + 1 ≥ screenW
      · rw [onlyIf, if_pos full, if_neg (by omega)]
        exact newRow_shows window rfl rfl rfl
      · rw [onlyIf, if_neg full, if_pos (by omega)]
        exact ⟨_, rfl, ⟨window.row, window.text, window.fresh⟩, by
          show screen.x + 1 = (terminal.column + 1 : Nat)
          omega, by
          show terminal.column + 1 < screenW
          omega⟩

/-- A sequence of characters does what it does to the terminal. -/
theorem characters_show (characters : List UInt8) (shows : screen.Shows terminal) :
    ∃ last, characters.forM vgaPutCharacter screen = .ok ⟨⟩ last ∧
      last.Shows (characters.foldl (fun terminal chr => terminal.send screenW (keyOf chr))
        terminal) := by
  induction characters generalizing screen terminal with
  | nil => exact ⟨screen, rfl, shows⟩
  | cons chr characters ih =>
    obtain ⟨next, put, following⟩ := vgaPutCharacter_shows shows chr
    obtain ⟨last, rest, result⟩ := ih following
    refine ⟨last, ?_, result⟩
    show (vgaPutCharacter chr >>= fun _ => characters.forM vgaPutCharacter) screen = _
    rw [bind_of_ok put, rest]

/-- A blank screen shows a blank terminal. -/
theorem blank_shows (corner : screen.x = 0 ∧ screen.y = 0)
    (blank : ∀ cell < screenW * screenH, IsBlank (screen.vga (2 * cell))) :
    screen.Shows .blank := by
  refine ⟨⟨(Int.zero_add _).trans corner.2, ?_, fun _ _ _ => rfl⟩, corner.1, Nat.zero_lt_succ _⟩
  intro y above x left
  apply blank
  simp only [screenW, screenH] at above left ⊢
  omega

end Shows

/-- **The screen.** From a blank screen with the cursor in its corner, `VGAPutCharacter` returns for
all sequences of characters, so no index that is written lies outside the buffer; the cursor stays
on the screen, which shows the last rows of the terminal to which the same characters were sent. -/
theorem vga_terminal (characters : List UInt8) (start : Screen) (corner : start.x = 0 ∧ start.y = 0)
    (blank : ∀ cell < screenW * screenH, IsBlank (start.vga (2 * cell))) :
    ∃ last, characters.forM vgaPutCharacter start = .ok ⟨⟩ last ∧
      (0 ≤ last.x ∧ last.x < screenW ∧ 0 ≤ last.y ∧ last.y < screenH) ∧
      last.Text (terminalOf characters) := by
  obtain ⟨last, returned, shows⟩ := characters_show characters (blank_shows corner blank)
  have inside := shows.inside
  have column := shows.column
  have left := shows.left
  exact ⟨last, returned, ⟨by omega, by omega, inside.1, inside.2⟩, shows.text⟩

/-- The screen that `SerialInit` leaves. -/
def initialScreen : Screen := ⟨0, 0, fun place => if place % 2 = 0 then 0 else colours⟩

/-- The character A is shown in the corner of the first screen. -/
theorem vga_terminal_sample : ∃ last, ['A'.toUInt8].forM vgaPutCharacter initialScreen =
      .ok ⟨⟩ last ∧ last.vga 0 = 'A'.toUInt8 := by
  obtain ⟨last, returned, _, text⟩ := vga_terminal ['A'.toUInt8] initialScreen ⟨rfl, rfl⟩
    fun cell _ => .inl (if_pos (Nat.mul_mod_right 2 cell))
  exact ⟨last, returned, text 0 (by decide) 0 (by decide)⟩

end Unarddeg.Amd64
