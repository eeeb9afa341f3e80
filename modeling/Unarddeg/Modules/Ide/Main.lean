import Unarddeg.Kernel.String

/-!
# The nodes of the drives

`IDEReadFunction` and `IDEWriteFunction` of `modules/ide/main.c`. Below them a drive is a store of
sectors whose transfers succeed; `IDEReadSectors` and `IDEWriteSectors` keep their own tests around
it. Both are only ever called with one sector.

`Self - IDEState.IDEDev` is an index of the four entries, for `DriverData` of every such node points
to one of them. `unsigned long` has the width of the target, and C leaves unknown bytes in the
`sector_buffer` of a round.
-/

namespace Unarddeg.Ide

open Library

/-- The fields of an `IDEDev` that the functions read. -/
structure IDEDev where
  /-- Whether there is a drive. -/
  reserved : BitVec 8
  /-- `IDE_ATA` or `IDE_ATAPI`. -/
  type : BitVec 16
  /-- The number of sectors. -/
  size : BitVec 32

/-- `IDE_ATA`. -/
def ideAta : BitVec 16 := 0x00

/-- `IDE_ATAPI`. -/
def ideAtapi : BitVec 16 := 0x01

/-- The four drives and the state of their driver. -/
structure Drives where
  /-- `IDEState.IDEDev`. -/
  ideDev : Fin 4 → IDEDev
  /-- The status register of a drive after it was selected. -/
  status : Fin 4 → BitVec 8
  /-- The bytes of the sectors. -/
  sector : Fin 4 → BitVec 32 → Nat → BitVec 8
  /-- `package[0]`, the result of the last transfer. -/
  package : BitVec 8

/-- `IsDrivePresent`. -/
def isDrivePresent (drives : Drives) (drive : Fin 4) : Bool :=
  decide ((drives.ideDev drive).reserved ≠ 0 ∧
    ¬ (drives.status drive = 0xFF ∨ drives.status drive = 0x00))

/-- `memset(buffer, 0, length)` for a length that fits the counter. -/
def clear (buffer : Nat → BitVec 8) (length : Nat) : Nat → BitVec 8 :=
  overwrite buffer 0 length fun _ => 0

/-- A transfer of the sector is refused. -/
def outside (dev : IDEDev) (lba : BitVec 32) : Prop := lba + 1 > dev.size ∧ dev.type = ideAta

instance (dev : IDEDev) (lba : BitVec 32) : Decidable (outside dev lba) :=
  inferInstanceAs (Decidable (_ ∧ _))

/-- `IDEReadSectors` with one sector: the buffer and the drives after it. -/
def ideReadSectors (drive : Fin 4) (lba : BitVec 32) (buffer : Nat → BitVec 8) (drives : Drives) :
    (Nat → BitVec 8) × Drives :=
  let dev := drives.ideDev drive
  if ¬ isDrivePresent drives drive then (clear buffer 512, { drives with package := 0 })
  else if dev.reserved = 0 then (buffer, { drives with package := 0x1 })
  else if outside dev lba then (buffer, { drives with package := 0x2 })
  else if dev.type = ideAta then
    (overwrite buffer 0 512 (drives.sector drive lba), { drives with package := 0 })
  else if dev.type = ideAtapi then
    (overwrite buffer 0 2048 (drives.sector drive lba), { drives with package := 0 })
  else (buffer, { drives with package := 0 })

/-- The drives with another sector. -/
def Drives.store (drives : Drives) (drive : Fin 4) (lba : BitVec 32) (buffer : Nat → BitVec 8) :
    Drives :=
  { drives with
    sector := Function.update drives.sector drive (Function.update (drives.sector drive) lba
      (overwrite (drives.sector drive lba) 0 512 buffer)) }

/-- `IDEWriteSectors` with one sector. `IDEPrintErr` returns 8 for its error 4. -/
def ideWriteSectors (drive : Fin 4) (lba : BitVec 32) (buffer : Nat → BitVec 8) (drives : Drives) :
    Drives :=
  let dev := drives.ideDev drive
  if ¬ isDrivePresent drives drive then { drives with package := 0 }
  else if dev.reserved = 0 then { drives with package := 0x1 }
  else if outside dev lba then { drives with package := 0x2 }
  else if dev.type = ideAta then { drives.store drive lba buffer with package := 0 }
  else if dev.type = ideAtapi then { drives with package := 8 }
  else { drives with package := 0 }

/-- A node of a drive, and the drives. -/
structure DriveNode (width : Nat) where
  /-- The index of `DriverData`. -/
  drive : Fin 4
  /-- `FileOffset`. -/
  fileOffset : BitVec width
  /-- The drives. -/
  drives : Drives

section Functions

variable {width : Nat}

/-- The number of bytes of a round: up to the end of the sector, or all that remain. -/
def bytesThisIter (bytesPerSector remaining currentOffset : BitVec width) : BitVec width :=
  let rest := bytesPerSector - currentOffset % bytesPerSector
  if rest > remaining then remaining else rest

/-- A sector in the buffer of a round; zeros behind the last sector and after an error. -/
def loadSector (drive : Fin 4) (bytesPerSector sector : BitVec width) (stale : Nat → BitVec 8)
    (drives : Drives) : (Nat → BitVec 8) × Drives :=
  if sector ≥ (drives.ideDev drive).size.setWidth width then
    (clear stale bytesPerSector.toNat, drives)
  else
    let (buffer, next) := ideReadSectors drive (sector.setWidth 32) stale drives
    if next.package ≠ 0 then (clear buffer bytesPerSector.toNat, { next with package := 0 })
    else (buffer, next)

/-- The variables of the loop of `IDEReadFunction`. -/
structure ReadState (width : Nat) where
  /-- `remaining`. -/
  remaining : BitVec width
  /-- `current_offset`. -/
  currentOffset : BitVec width
  /-- `dest`. -/
  dest : Nat → BitVec 8
  /-- The drives. -/
  drives : Drives

/-- A round of the loop of `IDEReadFunction`. -/
def readRound (drive : Fin 4) (bytesPerSector bytes : BitVec width) (stale : Nat → BitVec 8)
    (state : ReadState width) : ReadState width :=
  let sector := state.currentOffset / bytesPerSector
  let offsetInSector := state.currentOffset % bytesPerSector
  let count := bytesThisIter bytesPerSector state.remaining state.currentOffset
  let (buffer, drives) := loadSector drive bytesPerSector sector stale state.drives
  { remaining := state.remaining - count
    currentOffset := state.currentOffset + count
    dest := overwrite state.dest (bytes - state.remaining).toNat count.toNat
      (slice buffer offsetInSector.toNat)
    drives }

/-- The loop of `IDEReadFunction`, at most as many rounds as given. -/
def readLoop (drive : Fin 4) (bytesPerSector bytes : BitVec width)
    (stale : Nat → Nat → BitVec 8) : Nat → ReadState width → ReadState width
  | 0, state => state
  | rounds + 1, state =>
    if state.remaining > 0 then
      readLoop drive bytesPerSector bytes stale rounds
        (readRound drive bytesPerSector bytes (stale rounds) state)
    else state

/-- `IDEReadFunction`: the result and the buffer. Every round takes a byte at least, so there are
at most as many rounds as bytes. -/
def ideReadFunction (buf : Option (Nat → BitVec 8)) (size elements : BitVec width)
    (stale : Nat → Nat → BitVec 8) : Kernel (DriveNode width) (BitVec 32 × (Nat → BitVec 8)) := do
  match buf with
  | none => panicWith .nullPointerDereference
  | some dest =>
    if size = 0 ∨ elements = 0 then
      pure (0, dest)
    else
      let node ← get
      let self := node.drives.ideDev node.drive
      let bytes := size * elements
      if ¬ isDrivePresent node.drives node.drive then
        let zeros ← ofExcept (memset dest 0 bytes.toInt)
        set { node with fileOffset := node.fileOffset + bytes }
        pure (elements.setWidth 32, zeros)
      else
        let bytesPerSector := if self.type = ideAtapi then 2048 else 512
        let last := readLoop node.drive bytesPerSector bytes stale bytes.toNat
          ⟨bytes, node.fileOffset, dest, node.drives⟩
        set { node with fileOffset := node.fileOffset + bytes, drives := last.drives }
        pure (elements.setWidth 32, last.dest)

/-- The variables of the loop of `IDEWriteFunction`. -/
structure WriteState (width : Nat) where
  /-- `remaining`. -/
  remaining : BitVec width
  /-- `current_offset`. -/
  currentOffset : BitVec width
  /-- The drives. -/
  drives : Drives

/-- A round of the loop of `IDEWriteFunction`. A sector that is written in part is read first. -/
def writeRound (drive : Fin 4) (bytes : BitVec width) (src stale : Nat → BitVec 8)
    (state : WriteState width) : WriteState width :=
  let sector := state.currentOffset / 512
  let offsetInSector := state.currentOffset % 512
  let count := bytesThisIter 512 state.remaining state.currentOffset
  let (old, drives) :=
    if offsetInSector ≠ 0 ∨ count ≠ 512 then loadSector drive 512 sector stale state.drives
    else (stale, state.drives)
  let buffer := overwrite old offsetInSector.toNat count.toNat
    (slice src (bytes - state.remaining).toNat)
  let drives :=
    if sector < (drives.ideDev drive).size.setWidth width then
      { ideWriteSectors drive (sector.setWidth 32) buffer drives with package := 0 }
    else drives
  { remaining := state.remaining - count
    currentOffset := state.currentOffset + count
    drives }

/-- The loop of `IDEWriteFunction`, at most as many rounds as given. -/
def writeLoop (drive : Fin 4) (bytes : BitVec width) (src : Nat → BitVec 8)
    (stale : Nat → Nat → BitVec 8) : Nat → WriteState width → WriteState width
  | 0, state => state
  | rounds + 1, state =>
    if state.remaining > 0 then
      writeLoop drive bytes src stale rounds (writeRound drive bytes src (stale rounds) state)
    else state

/-- `IDEWriteFunction`. -/
def ideWriteFunction (buf : Option (Nat → BitVec 8)) (size elements : BitVec width)
    (stale : Nat → Nat → BitVec 8) : Kernel (DriveNode width) (BitVec 32) := do
  match buf with
  | none => panicWith .nullPointerDereference
  | some src =>
    if size = 0 ∨ elements = 0 then
      pure 0
    else
      let node ← get
      let bytes := size * elements
      if ¬ isDrivePresent node.drives node.drive then
        set { node with fileOffset := node.fileOffset + bytes }
        pure (elements.setWidth 32)
      else if (node.drives.ideDev node.drive).type = ideAtapi then
        pure (-1)
      else
        let last := writeLoop node.drive bytes src stale bytes.toNat
          ⟨bytes, node.fileOffset, node.drives⟩
        set { node with fileOffset := node.fileOffset + bytes, drives := last.drives }
        pure (elements.setWidth 32)

end Functions

end Unarddeg.Ide
