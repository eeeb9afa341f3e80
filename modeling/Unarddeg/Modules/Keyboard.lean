import Unarddeg.Modules.Devices

/-!
# The scancodes of the PS/2 keyboard

`ps2_keyboard_fetch` and `ps2_getchar` of `modules/ps2/main.c`. A poll is what the ports give to one
call of `ps2_keyboard_fetch`; all polls that are ever made are given in advance, and
`ps2_keyboard_read` is then a read of the characters that come of them.
-/

namespace Unarddeg

open Library

/-- The keys that are held down. -/
structure Keyboard where
  /-- `shifted`. -/
  shifted : Bool
  /-- `ctrl`. -/
  ctrl : Bool

/-- What a call of `ps2_keyboard_fetch` reads from the ports. -/
structure Poll where
  /-- The first `inb(0x64)`. -/
  ready : BitVec 8
  /-- The second `inb(0x64)`. -/
  status : BitVec 8
  /-- `inb(0x60)`. -/
  data : BitVec 8

/-- `keyboard_map`, without the zeros behind it. -/
def keyboardMap : List (BitVec 8) :=
  [0, 27, 49, 50, 51, 52, 53, 54, 55, 56, 57, 48, 45, 61, 8, 9,
    113, 119, 101, 114, 116, 121, 117, 105, 111, 112, 91, 93, 10, 128, 97, 115,
    100, 102, 103, 104, 106, 107, 108, 59, 39, 96, 0, 92, 122, 120, 99, 118,
    98, 110, 109, 44, 46, 47, 129, 42, 129, 32,
    128, 130, 131, 132, 133, 134, 135, 136, 137, 138, 139, 140, 141, 142,
    143, 144, 45, 145, 53, 146, 43, 147, 148, 149, 150, 151, 10, 129, 92, 152, 153]

/-- `keyboard_map_shifted`, without the zeros behind it. -/
def keyboardMapShifted : List (BitVec 8) :=
  [0, 27, 33, 34, 35, 36, 37, 94, 38, 42, 40, 41, 95, 43, 8, 9,
    81, 87, 69, 82, 84, 89, 85, 73, 79, 80, 123, 125, 10, 128, 65, 83,
    68, 70, 71, 72, 74, 75, 76, 58, 64, 96, 0, 124, 90, 88, 67, 86,
    66, 78, 77, 60, 62, 63, 129, 42, 129, 32,
    128, 130, 131, 132, 133, 134, 135, 136, 137, 138, 139, 140, 47, 55,
    143, 144, 45, 145, 53, 146, 43, 147, 148, 149, 150, 151, 10, 129, 92, 152, 153]

/-- The character of a key with `ctrl`: a letter becomes a control character. -/
def controlled (key : BitVec 8) : BitVec 8 :=
  if 97 ≤ key ∧ key ≤ 122 then key - 97 + 1
  else if 65 ≤ key ∧ key ≤ 90 then key - 65 + 1
  else key

/-- The character of a key that went down. -/
def Keyboard.key (keyboard : Keyboard) (scancode : BitVec 8) : BitVec 8 :=
  let map := if keyboard.shifted then keyboardMapShifted else keyboardMap
  let key := map.getD scancode.toNat 0
  if keyboard.ctrl then controlled key else key

/-- `ps2_keyboard_fetch`: the character if `*hit`, and the keys that are held down after it. -/
def ps2KeyboardFetch (keyboard : Keyboard) (poll : Poll) : Option (BitVec 8) × Keyboard :=
  if poll.ready &&& 1 = 0 then (none, keyboard)
  else if poll.status &&& 32 ≠ 0 then (none, keyboard)
  else if poll.data = 0x2a ∨ poll.data = 0x36 then (none, { keyboard with shifted := true })
  else if poll.data = 0xaa ∨ poll.data = 0xb6 then (none, { keyboard with shifted := false })
  else if poll.data = 0x1d then (none, { keyboard with ctrl := true })
  else if poll.data = 0x9d then (none, { keyboard with ctrl := false })
  else if poll.data &&& 0x80 ≠ 0 then (none, keyboard)
  else (some (keyboard.key poll.data), keyboard)

/-- The characters that the calls of `ps2_getchar` return one after the other. -/
def ps2Getchars : Keyboard → List Poll → List (BitVec 8)
  | _, [] => []
  | keyboard, poll :: polls =>
    let (hit, next) := ps2KeyboardFetch keyboard poll
    match hit with
    | none => ps2Getchars next polls
    | some character => character :: ps2Getchars next polls

/-- A backspace is the backspace key, or the letter `h` with control. -/
theorem key_eq_backspace_iff (keyboard : Keyboard) (scancode : BitVec 8) :
    keyboard.key scancode = 8 ↔ scancode = 0x0e ∨ scancode = 0x23 ∧ keyboard.ctrl := by
  have every : ∀ shifted ctrl : Bool, ∀ scancode : BitVec 8,
      (Keyboard.mk shifted ctrl).key scancode = 8 ↔ scancode = 0x0e ∨ scancode = 0x23 ∧ ctrl := by
    decide +kernel
  exact every keyboard.shifted keyboard.ctrl scancode

end Unarddeg
