import Unarddeg.Library.TaskFile
import Unarddeg.Library.Bytes

/-!
# ATA and ATAPI devices

What a device does behind its registers: a command makes it busy, for as many reads of its status
register as it likes, and then it sends or receives blocks of words, or reports what went wrong.
While the selected device is busy or has data to move, it takes no register. A channel is a pair of
devices that see the same writes; the one that is selected answers.
-/

namespace Unarddeg.Library

/-- The first words of a store. -/
def toWords (count : Nat) (bytes : Nat → BitVec 8) : List (BitVec 16) :=
  (List.range count).map fun place => little 16 (slice bytes (2 * place))

/-- The bytes of some words, the low one of each first. -/
def toBytes (words : List (BitVec 16)) : Nat → BitVec 8 := fun index =>
  byteAt (words.getD (index / 2) 0) (index % 2)

/-- A block has as many words. -/
@[simp] theorem toWords_length {count : Nat} {bytes : Nat → BitVec 8} :
    (toWords count bytes).length = count := by
  simp [toWords]

/-- The words of a store hold its bytes. -/
theorem toBytes_toWords {count index : Nat} {bytes : Nat → BitVec 8} (inside : index < 2 * count) :
    toBytes (toWords count bytes) index = bytes index := by
  have place : index / 2 < count := by omega
  have whole : 2 * (index / 2) + index % 2 = index := Nat.div_add_mod index 2
  simp only [toBytes, toWords, List.getD_eq_getElem?_getD, List.getElem?_map,
    List.getElem?_range place, Option.map_some, Option.getD_some]
  rw [byteAt_little (by omega), slice, whole]

/-- What goes wrong with a transfer. -/
inductive Fault
  /-- An error, with the error register. -/
  | error (register : BitVec 8)
  /-- A fault of the device. -/
  | broken
  /-- There are no data. -/
  | nothing
  deriving DecidableEq

/-- A block of words that a device sends, or what went wrong with it. -/
abbrev Block := Except Fault (List (BitVec 16))

/-- What a device receives. -/
inductive Target
  /-- A sector, and how many remain with it. -/
  | sector (lba remaining : Nat)
  /-- A packet with a command. -/
  | packet
  deriving DecidableEq

/-- The words that make a target complete. -/
def Target.words : Target → Nat
  | .sector _ _ => 256
  | .packet => 6

/-- What a device does once it is not busy. -/
inductive Phase
  /-- It waits for a command. -/
  | idle
  /-- It reports what went wrong. -/
  | failed (fault : Fault)
  /-- It sends the rest of a block, and others after it. -/
  | sending (words : List (BitVec 16)) (next : List Block)
  /-- It has received some words. -/
  | receiving (target : Target) (words : List (BitVec 16))

/-- What a device is made of. -/
structure Medium where
  /-- Whether it takes packets. -/
  atapi : Bool
  /-- The block that identifies it. -/
  identity : List (BitVec 16)
  /-- What goes wrong when a sector is read. -/
  readFault : Nat → Option Fault
  /-- What goes wrong when a sector is written. -/
  writeFault : Nat → Option Fault
  /-- For how many reads of its status it is busy, each time that it becomes busy. -/
  waits : Nat → Nat

/-- A device. -/
structure AtaDevice where
  /-- What it is made of. -/
  medium : Medium
  /-- Its registers. -/
  file : TaskFile
  /-- For how many reads of its status it remains busy. -/
  busy : Nat
  /-- How often it became busy. -/
  turn : Nat
  /-- What it does then. -/
  phase : Phase
  /-- The bytes of its sectors. -/
  sectors : Nat → Nat → BitVec 8

namespace AtaDevice

/-- The device becomes busy, and then does something. -/
def enter (device : AtaDevice) (phase : Phase) : AtaDevice :=
  { device with busy := device.medium.waits device.turn, turn := device.turn + 1, phase }

/-- The device sends some blocks. Behind the last word it is done at once. -/
def send (device : AtaDevice) : List Block → AtaDevice
  | [] => { device with busy := 0, phase := .idle }
  | .error fault :: _ => device.enter (.failed fault)
  | .ok words :: next => device.enter (.sending words next)

/-- The block of a sector. -/
def block (device : AtaDevice) (words lba : Nat) : Block :=
  match device.medium.readFault lba with
  | some fault => .error fault
  | none => .ok (toWords words (device.sectors lba))

/-- The blocks of some sectors. -/
def blocks (device : AtaDevice) (words lba count : Nat) : List Block :=
  (List.range count).map fun index => device.block words (lba + index)

/-- How many sectors a command is for; zero stands for the most. -/
def count (device : AtaDevice) (extended : Bool) : Nat :=
  let number := (device.file.current 2).toNat +
    if extended then 2 ^ 8 * (device.file.previous 2).toNat else 0
  if number = 0 then (if extended then 2 ^ 16 else 2 ^ 8) else number

/-- A command that the device does not know. -/
def abort (device : AtaDevice) : AtaDevice := device.enter (.failed (.error 0x04))

/-- The number that some bytes are, the first one the highest. -/
def bigEndian (bytes : Nat → BitVec 8) (place : Nat) : Nat :=
  2 ^ 24 * (bytes place).toNat + 2 ^ 16 * (bytes (place + 1)).toNat +
    2 ^ 8 * (bytes (place + 2)).toNat + (bytes (place + 3)).toNat

/-- A command in a packet: `READ (12)`, in sectors of 2048 bytes. -/
def packet (device : AtaDevice) (bytes : Nat → BitVec 8) : AtaDevice :=
  if bytes 0 = 0xA8 then device.send (device.blocks 1024 (bigEndian bytes 2) (bigEndian bytes 6))
  else device.abort

/-- A command of a device without packets: `READ` and `WRITE`, `FLUSH CACHE` and `IDENTIFY`. -/
def ataCommand (device : AtaDevice) (opcode : BitVec 8) : AtaDevice :=
  let extended := TaskFile.isExtended opcode
  if opcode = 0x20 ∨ opcode = 0x24 then
    match device.file.address extended with
    | some lba => device.send (device.blocks 256 lba (device.count extended))
    | none => device.enter (.failed (.error 0x10))
  else if opcode = 0x30 ∨ opcode = 0x34 then
    match device.file.address extended with
    | some lba => device.enter (.receiving (.sector lba (device.count extended)) [])
    | none => device.enter (.failed (.error 0x10))
  else if opcode = 0xE7 ∨ opcode = 0xEA then device.enter .idle
  else if opcode = 0xEC then device.send [.ok device.medium.identity]
  else device.abort

/-- A command of a device with packets: `PACKET` and `IDENTIFY PACKET`. The other `IDENTIFY` fails
with a signature in two registers. -/
def atapiCommand (device : AtaDevice) (opcode : BitVec 8) : AtaDevice :=
  if opcode = 0xA0 then device.enter (.receiving .packet [])
  else if opcode = 0xA1 then device.send [.ok device.medium.identity]
  else if opcode = 0xEC then
    { device with file := (device.file.write 4 0x14).write 5 0xEB }.abort
  else device.abort

/-- A command. -/
def command (device : AtaDevice) (opcode : BitVec 8) : AtaDevice :=
  if device.medium.atapi then device.atapiCommand opcode else device.ataCommand opcode

/-- The device takes no register: it is busy, or has data to move. -/
def engaged (device : AtaDevice) : Bool :=
  0 < device.busy || match device.phase with
    | .sending _ _ | .receiving _ _ => true
    | _ => false

/-- The status register. -/
def status (device : AtaDevice) : BitVec 8 :=
  if 0 < device.busy then 0x80
  else match device.phase with
    | .idle | .failed .nothing => 0x50
    | .failed (.error _) => 0x51
    | .failed .broken => 0x70
    | .sending _ _ | .receiving _ _ => 0x58

/-- The error register. -/
def error (device : AtaDevice) : BitVec 8 :=
  match device.phase with
  | .failed (.error register) => register
  | _ => 0

/-- The device after its status was read. -/
def polled (device : AtaDevice) : AtaDevice := { device with busy := device.busy - 1 }

/-- The next word that the device sends; otherwise nothing drives the lines. -/
def readData (device : AtaDevice) : BitVec 16 × AtaDevice :=
  if 0 < device.busy then (0xFFFF, device)
  else match device.phase with
    | .sending [word] next => (word, device.send next)
    | .sending (word :: words) next => (word, { device with phase := .sending words next })
    | _ => (0xFFFF, device)

/-- The device with another sector. -/
def store (device : AtaDevice) (lba : Nat) (words : List (BitVec 16)) : AtaDevice :=
  { device with sectors :=
      Function.update device.sectors lba (overwrite (device.sectors lba) 0 512 (toBytes words)) }

/-- The device has received all words of a target. -/
def received (device : AtaDevice) (words : List (BitVec 16)) : Target → AtaDevice
  | .packet => device.packet (toBytes words)
  | .sector lba remaining =>
    match device.medium.writeFault lba with
    | some fault => device.enter (.failed fault)
    | none =>
      (device.store lba words).enter
        (if remaining ≤ 1 then .idle else .receiving (.sector (lba + 1) (remaining - 1)) [])

/-- The device after a word was written to it. -/
def writeData (device : AtaDevice) (word : BitVec 16) : AtaDevice :=
  if 0 < device.busy then device
  else match device.phase with
    | .receiving target words =>
      if words.length + 1 = target.words then device.received (words ++ [word]) target
      else { device with phase := .receiving target (words ++ [word]) }
    | _ => device

end AtaDevice

/-- There is a first place. -/
instance hasPlace : NeZero 2 := ⟨by decide⟩

/-- Two devices at the same lines. -/
structure Channel where
  /-- The devices that are there. -/
  device : Fin 2 → Option AtaDevice
  /-- The one that is selected. -/
  selected : Fin 2
  /-- What is read from one that is not there. -/
  absent : BitVec 8

namespace Channel

/-- The channel with another device at a place. -/
def put (channel : Channel) (place : Fin 2) (device : AtaDevice) : Channel :=
  { channel with device := Function.update channel.device place (some device) }

/-- The selected device takes no register. -/
def engaged (channel : Channel) : Bool :=
  match channel.device channel.selected with
  | some device => device.engaged
  | none => false

/-- A value in a register of both devices. -/
def registered (channel : Channel) (register : Nat) (byte : BitVec 8) : Channel :=
  { channel with device := fun place => (channel.device place).map fun device =>
      { device with file := device.file.write register byte } }

/-- The channel after a write to a register. Register 6 selects a device, register 7 is that for
commands. -/
def out (channel : Channel) (register : Nat) (byte : BitVec 8) : Channel :=
  if channel.engaged then channel
  else if register = 7 then
    match channel.device channel.selected with
    | some device => channel.put channel.selected (device.command byte)
    | none => channel
  else if register = 6 then
    { channel.registered register byte with selected := if byte.getLsbD 4 then 1 else 0 }
  else channel.registered register byte

/-- What is read from a register, and the channel after it. -/
def read (channel : Channel) (register : Nat) : BitVec 8 × Channel :=
  match channel.device channel.selected with
  | none => (channel.absent, channel)
  | some device =>
    if register = 7 then (device.status, channel.put channel.selected device.polled)
    else if register = 1 then (device.error, channel)
    else (device.file.current register, channel)

/-- The next word of the selected device. -/
def readData (channel : Channel) : BitVec 16 × Channel :=
  match channel.device channel.selected with
  | none => (0xFFFF, channel)
  | some device => (device.readData.1, channel.put channel.selected device.readData.2)

/-- The channel after a word was written to the selected device. -/
def writeData (channel : Channel) (word : BitVec 16) : Channel :=
  match channel.device channel.selected with
  | none => channel
  | some device => channel.put channel.selected (device.writeData word)

end Channel

end Unarddeg.Library
