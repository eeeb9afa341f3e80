import Mathlib

/-!
# The task file of an ATA device

A device has a block of registers of eight bits. It keeps the last two values that were written to
each of them, and a write to the command register makes it decode a sector address: 48 bits from
both values, 28 bits, or a cylinder, a head and a sector. `chs_split` says that every sector has
such a place in the translated geometry.
-/

namespace Unarddeg.Library

/-- The registers of a device: the last values, and those before. -/
structure TaskFile where
  /-- The last values. -/
  current : Nat → BitVec 8
  /-- The values before. -/
  previous : Nat → BitVec 8

namespace TaskFile

/-- The registers after a write. -/
def write (file : TaskFile) (register : Nat) (byte : BitVec 8) : TaskFile where
  current := Function.update file.current register byte
  previous := Function.update file.previous register (file.current register)

/-- The number in the three registers for an address, the low one first. -/
def addressBytes (bytes : Nat → BitVec 8) : Nat :=
  (bytes 3).toNat + 2 ^ 8 * (bytes 4).toNat + 2 ^ 16 * (bytes 5).toNat

/-- The head: the low half of the device register. -/
def head (file : TaskFile) : Nat := (file.current 6).toNat % 16

/-- The geometry that addresses are translated to: the heads of a cylinder. -/
def heads : Nat := 16

/-- The sectors of a track. -/
def sectors : Nat := 63

/-- The place of a sector in the geometry. -/
def chsAddress (cylinder head sector : Nat) : Option Nat :=
  if 1 ≤ sector ∧ sector ≤ sectors ∧ head < heads then
    some ((cylinder * heads + head) * sectors + sector - 1)
  else none

/-- The address that a device decodes for a command; an extended one takes both values of the
registers, and needs the bit for addresses in the device register. -/
def address (file : TaskFile) (extended : Bool) : Option Nat :=
  if (file.current 6).getLsbD 6 then
    if extended then some (addressBytes file.current + 2 ^ 24 * addressBytes file.previous)
    else some (addressBytes file.current + 2 ^ 24 * file.head)
  else if extended then none
  else chsAddress ((file.current 4).toNat + 2 ^ 8 * (file.current 5).toNat) file.head
    (file.current 3).toNat

/-- The commands for addresses of 48 bits: `READ` and `WRITE` with `EXT`, by `PIO` and by `DMA`. -/
def isExtended (opcode : BitVec 8) : Bool :=
  opcode = 0x24 ∨ opcode = 0x25 ∨ opcode = 0x34 ∨ opcode = 0x35

/-- The commands that some writes issue, with their addresses. Register 7 is that for commands. -/
def commands : (writes : List (Nat × BitVec 8)) → (file : TaskFile) →
    List (BitVec 8 × Option Nat)
  | [], _ => []
  | (register, byte) :: writes, file =>
    if register = 7 then (byte, file.address (isExtended byte)) :: commands writes file
    else commands writes (file.write register byte)

section Registers

variable {file : TaskFile} {register other : Nat} {byte : BitVec 8}
  {writes : List (Nat × BitVec 8)}

/-- The value written is the last one. -/
@[simp] theorem write_current : (file.write register byte).current register = byte :=
  Function.update_self ..

/-- The last one is the one before then. -/
@[simp] theorem write_previous :
    (file.write register byte).previous register = file.current register :=
  Function.update_self ..

/-- The last values of other registers stay. -/
@[simp] theorem write_current_of_ne (apart : other ≠ register) :
    (file.write register byte).current other = file.current other :=
  Function.update_of_ne apart ..

/-- So do the values before. -/
@[simp] theorem write_previous_of_ne (apart : other ≠ register) :
    (file.write register byte).previous other = file.previous other :=
  Function.update_of_ne apart ..

/-- No writes issue nothing. -/
@[simp] theorem commands_nil : commands [] file = [] := rfl

/-- A write to another register issues nothing. -/
@[simp] theorem commands_register (apart : register ≠ 7) :
    commands ((register, byte) :: writes) file = commands writes (file.write register byte) :=
  if_neg apart

/-- A write to the command register issues a command. -/
@[simp] theorem commands_command : commands ((7, byte) :: writes) file =
    (byte, file.address (isExtended byte)) :: commands writes file :=
  if_pos rfl

end Registers

/-- Every sector has one place in the geometry. -/
theorem chs_split (lba : Nat) :
    chsAddress (lba / (heads * sectors)) (lba % (heads * sectors) / sectors)
      (lba % sectors + 1) = some lba := by
  unfold chsAddress heads sectors
  rw [if_pos ⟨by omega, by omega, by omega⟩]
  congr 1
  omega

/-- Its cylinder is the only one with this head and sector. -/
theorem chsAddress_inj {cylinder other head sector lba : Nat}
    (first : chsAddress cylinder head sector = some lba)
    (second : chsAddress other head sector = some lba) : cylinder = other := by
  unfold chsAddress at first second
  split_ifs at first second with inside
  have same := (Option.some.inj first).trans (Option.some.inj second).symm
  unfold heads sectors at same
  omega

end TaskFile

end Unarddeg.Library
