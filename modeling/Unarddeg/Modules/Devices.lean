import Unarddeg.Kernel.Vfs.Contract
import Unarddeg.Modules.Ide.Main

/-!
# The read and write functions of the modules' devices

`PCIReadFunction` and `PCIWriteFunction` of `modules/pci/main.c`, `ps2_keyboard_read` and
`ps2_mouse_read` of `modules/ps2/main.c`, and the calls of the drives' functions. The node of the
keyboard keeps the `WriteFunction` of `NewVNode`, which panics.
-/

namespace Unarddeg

open Library

section Functions

variable {width : Nat}

/-- `sizeof(PCI)`: 128 devices of 40 bytes and their number. -/
def sizeofPci : Nat := 5124

/-- `PCIReadFunction`: the buffer after it too. -/
def pciReadFunction (driverData : Nat → BitVec 8) (buf : Option (Nat → BitVec 8))
    (size elements : BitVec width) : Except Stop (Transfer × (Nat → BitVec 8)) := do
  let dest ← checked buf
  let bytes := (size * elements).toNat
  let moved := if bytes ≤ sizeofPci then bytes else sizeofPci
  pure (⟨asInt elements, moved⟩, overwrite dest 0 moved driverData)

/-- `PCIWriteFunction`: the table of the devices after it too. -/
def pciWriteFunction (driverData : Nat → BitVec 8) (buf : Option (Nat → BitVec 8))
    (size elements : BitVec width) : Except Stop (Transfer × (Nat → BitVec 8)) := do
  let src ← checked buf
  let bytes := (size * elements).toNat
  let moved := if bytes ≤ sizeofPci then bytes else sizeofPci
  pure (⟨asInt elements, moved⟩, overwrite driverData 0 moved src)

/-- The keyboard echoes through `DefaultWriteFunction`. -/
def keyboardTerminal (flags : BitVec width) : Terminal width where
  flags
  echo _ := .error (.panic .unintendedCall)
  storesNewline := true

/-- `ps2_keyboard_read`. -/
def ps2KeyboardRead (flags : BitVec width) (input : List (BitVec 8))
    (buf : Option (Nat → BitVec 8)) (size elements : BitVec width) :
    Except Stop (Transfer × Line width) :=
  readLine (keyboardTerminal flags) input buf size elements

/-- `sizeof(ps2_mouse_packet_t)`. -/
def sizeofPacket : Nat := 8

/-- `ps2_mouse_read`, given the packet that `ps2_read_mouse_packet` completes, if it does: the
buffer after it too. -/
def ps2MouseRead (packet : Option (Nat → BitVec 8)) (buf : Option (Nat → BitVec 8))
    (size elements : BitVec width) : Except Stop (Transfer × (Nat → BitVec 8)) := do
  let dest ← checked buf
  match packet with
  | none => pure (⟨0, 0⟩, dest)
  | some packet =>
    let i := BitVec.ofNat width (min (size * elements).toNat sizeofPacket)
    let transfer ← perSize i size
    pure (transfer, overwrite dest 0 i.toNat packet)

/-- The transfer of a call on a drive: it moved the bytes by which the position went on. -/
def transferOf {α : Type} (result : α → BitVec 32) (node : Ide.DriveNode width) :
    EStateM.Result Stop (Ide.DriveNode width) α → Except Stop Transfer
  | .ok value after => .ok ⟨result value, (after.fileOffset - node.fileOffset).toNat⟩
  | .error reason _ => .error reason

/-- A call of `IDEReadFunction`. -/
def ideReadCall (stale : Nat → Nat → BitVec 8) (node : Ide.DriveNode width)
    (buf : Option (Nat → BitVec 8)) (size elements : BitVec width) : Except Stop Transfer :=
  transferOf Prod.fst node (Ide.ideReadFunction buf size elements stale node)

/-- A call of `IDEWriteFunction`. -/
def ideWriteCall (stale : Nat → Nat → BitVec 8) (node : Ide.DriveNode width)
    (buf : Option (Nat → BitVec 8)) (size elements : BitVec width) : Except Stop Transfer :=
  transferOf id node (Ide.ideWriteFunction buf size elements stale node)

end Functions

end Unarddeg
