import Unarddeg.Library.AtaDevice
import Unarddeg.Library.Fuel
import Unarddeg.Modules.Ide.Access
import Unarddeg.Modules.Ide.Main

/-!
# The ports of the drives

`IDEWrite`, `IDERead`, `IDEPolling`, `IDEAccess` and the functions around them in
`modules/ide/main.c`, with the devices behind their ports. A loop that waits for a device has fuel,
one for each read of its status; a `Delay` lets time pass, which a device only counts in such reads.
Only the ports of a channel's `base` reach its devices for writing, and what is read from `ctrl` is
dropped by every caller. Buffers are addressed from where they start.
-/

namespace Unarddeg.Ide

open Library

/-- There is a first drive. -/
instance hasDrive : NeZero 4 := ⟨by decide⟩

/-- There is a first byte of an address. -/
instance hasByte : NeZero 6 := ⟨by decide⟩

/-- `ATA_REG_DATA`. -/
def ataRegData : Nat := 0x00
/-- `ATA_REG_ERROR`. -/
def ataRegError : Nat := 0x01
/-- `ATA_REG_FEATURES`. -/
def ataRegFeatures : Nat := 0x01
/-- `ATA_REG_STATUS`. -/
def ataRegStatus : Nat := 0x07
/-- `ATA_REG_ALTSTATUS`. -/
def ataRegAltstatus : Nat := 0x0C

/-- `ATA_SR_BSY`. -/
def ataSrBsy : BitVec 8 := 0x80
/-- `ATA_SR_DF`. -/
def ataSrDf : BitVec 8 := 0x20
/-- `ATA_SR_DRQ`. -/
def ataSrDrq : BitVec 8 := 0x08
/-- `ATA_SR_ERR`. -/
def ataSrErr : BitVec 8 := 0x01

/-- `IDEDev`. -/
structure Entry extends IDEDev where
  /-- Its channel. -/
  channel : Fin 2
  /-- Master or slave. -/
  drive : Fin 2
  /-- The first word of its identification. -/
  signature : BitVec 16
  /-- The word for its capabilities. -/
  capabilities : BitVec 16
  /-- The words for its command sets. -/
  commandSets : BitVec 32
  /-- Its name. -/
  model : Fin 41 → BitVec 8

/-- The channels, the state of the driver, and the buffer that it works on. -/
structure Bus where
  /-- The devices. -/
  channel : Fin 2 → Channel
  /-- `nIEN` of the channels. -/
  nIEN : Fin 2 → BitVec 8
  /-- `IDEDev`. -/
  ideDev : Fin 4 → Entry
  /-- `package[0]`. -/
  package : BitVec 8
  /-- The buffer. -/
  memory : Nat → BitVec 8

namespace Bus

/-- The bus with another channel. -/
def wire (bus : Bus) (channel : Fin 2) (lines : Channel) : Bus :=
  { bus with channel := Function.update bus.channel channel lines }

/-- The bus with another buffer. -/
def fill (bus : Bus) (memory : Nat → BitVec 8) : Bus := { bus with memory }

/-- A byte that is written to a port. -/
def outPort (lines : Channel) : Port × BitVec 8 → Channel
  | (.base offset, byte) => lines.out offset byte
  | _ => lines

/-- A byte that is read from a port. -/
def inPort (lines : Channel) : Port → BitVec 8 × Channel
  | .base offset => lines.read offset
  | _ => ((lines.read 7).1, lines)

/-- `IDEWrite`. -/
def ideWrite (channel : Fin 2) (reg : Nat) (data : BitVec 8) : Kernel Bus Unit :=
  modify fun bus => bus.wire channel
    ((Ide.ideWrite (bus.nIEN channel) reg data).foldl outPort (bus.channel channel))

/-- The `inb` of `IDERead`. -/
def inReg (channel : Fin 2) (reg : Nat) : Kernel Bus (BitVec 8) := do
  let bus ← get
  match portOf reg with
  | some port =>
    let (result, lines) := inPort (bus.channel channel) port
    set (bus.wire channel lines)
    pure result
  | none => pure 0xFF

/-- `IDERead`. -/
def ideRead (channel : Fin 2) (reg : Nat) : Kernel Bus (BitVec 8) := do
  let nIEN := (← get).nIEN channel
  onlyIf (reg > 0x07 ∧ reg < 0x0C) (ideWrite channel ataRegControl (0x80 ||| nIEN))
  let result ← inReg channel reg
  onlyIf (reg > 0x07 ∧ reg < 0x0C) (ideWrite channel ataRegControl nIEN)
  pure result

/-- `while (IDERead(channel, ATA_REG_STATUS) & ATA_SR_BSY)`, as `IDEWaitNotBusy`. -/
def ideWaitNotBusy (channel : Fin 2) : (fuel : Nat) → Kernel Bus Unit
  | 0 => throw .hang
  | fuel + 1 => do
    let status ← ideRead channel ataRegStatus
    if status &&& ataSrBsy ≠ 0 then ideWaitNotBusy channel fuel else pure ()

/-- The result of `IDEPolling` for a status. -/
def checked (state : BitVec 8) : BitVec 8 :=
  if state &&& ataSrErr ≠ 0 then 2
  else if state &&& ataSrDf ≠ 0 then 1
  else if state &&& ataSrDrq = 0 then 3
  else 0

/-- `IDEPolling`. -/
def idePolling (fuel : Nat) (channel : Fin 2) (advancedCheck : Bool) :
    Kernel Bus (BitVec 8) := do
  let _ ← ideRead channel ataRegAltstatus
  let _ ← ideRead channel ataRegAltstatus
  let _ ← ideRead channel ataRegAltstatus
  let _ ← ideRead channel ataRegAltstatus
  ideWaitNotBusy channel fuel
  if advancedCheck then
    let state ← ideRead channel ataRegStatus
    pure (checked state)
  else pure 0

/-- `rep insw` from the data register of a channel. -/
def insw (channel : Fin 2) : (words edi : Nat) → Bus → Bus
  | 0, _, bus => bus
  | words + 1, edi, bus =>
    let (word, lines) := (bus.channel channel).readData
    insw channel words (edi + 2)
      ((bus.wire channel lines).fill (overwrite bus.memory edi 2 (byteAt word)))

/-- `rep outsw` to the data register of a channel. -/
def outsw (channel : Fin 2) : (words : Nat) → (source : Nat → BitVec 8) → Bus → Bus
  | 0, _, bus => bus
  | words + 1, source, bus =>
    outsw channel words (slice source 2)
      (bus.wire channel ((bus.channel channel).writeData (little 16 source)))

/-- The registers that `IDEAccess` writes up to its command. -/
def registers (direction : Direction) (slavebit : Fin 2) (capabilities : BitVec 16)
    (lba : BitVec 32) (numsects : BitVec 8) : List (Nat × BitVec 8) :=
  let encoded := encodeAddress capabilities lba
  [(ataRegHddevsel, deviceOf slavebit encoded)] ++
    (if encoded.lbaMode = .lba48 then
      [(ataRegSeccount1, 0), (ataRegLba3, encoded.lbaIo 3), (ataRegLba4, encoded.lbaIo 4),
        (ataRegLba5, encoded.lbaIo 5)]
    else []) ++
    [(ataRegSeccount0, numsects), (ataRegLba0, encoded.lbaIo 0), (ataRegLba1, encoded.lbaIo 1),
      (ataRegLba2, encoded.lbaIo 2), (ataRegCommand, cmdOf encoded.lbaMode direction)]

/-- The loop of `IDEAccess` and of `IDEAtaPIRead` over the sectors that are read, which waits for
each of them. -/
def readRounds (fuel : Nat) (channel : Fin 2) (words : Nat) (wait : Kernel Bus Unit) :
    (rounds edi : Nat) → Kernel Bus (BitVec 8)
  | 0, _ => pure 0
  | rounds + 1, edi => do
    wait
    let err ← idePolling fuel channel true
    if err ≠ 0 then pure err
    else do
      modify (insw channel words edi)
      readRounds fuel channel words wait rounds (edi + 2 * words)

/-- The loop of `IDEAccess` over the sectors that are written. -/
def writeRounds (fuel : Nat) (channel : Fin 2) : (rounds esi : Nat) → Kernel Bus Unit
  | 0, _ => pure ()
  | rounds + 1, esi => do
    let _ ← idePolling fuel channel false
    modify fun bus => outsw channel 256 (slice bus.memory esi) bus
    writeRounds fuel channel rounds (esi + 512)

/-- `ATA_CMD_CACHE_FLUSH` or `ATA_CMD_CACHE_FLUSH_EXT`. -/
def flushOf : LbaMode → BitVec 8
  | .chs | .lba28 => 0xE7
  | .lba48 => 0xEA

/-- `IDEAccess`. -/
def ideAccess (fuel : Nat) (direction : Direction) (drive : Fin 4) (lba : BitVec 32)
    (numsects : BitVec 8) (edi : Nat) : Kernel Bus (BitVec 8) := do
  let dev := (← get).ideDev drive
  -- Interrupts stay off: the driver polls.
  modify fun bus => { bus with nIEN := Function.update bus.nIEN dev.channel 0x02 }
  ideWrite dev.channel ataRegControl 0x02
  ideWaitNotBusy dev.channel fuel
  (registers direction dev.drive dev.capabilities lba numsects).forM fun register =>
    ideWrite dev.channel register.1 register.2
  match direction with
  | .ataRead => readRounds fuel dev.channel 256 (pure ()) numsects.toNat edi
  | .ataWrite => do
    writeRounds fuel dev.channel numsects.toNat edi
    ideWrite dev.channel ataRegCommand (flushOf (encodeAddress dev.capabilities lba).lbaMode)
    let _ ← idePolling fuel dev.channel false
    pure 0

/-- `atapi_packet`: `ATAPI_CMD_READ`, a sector and a count, each with its high byte first. -/
def atapiPacket (lba : BitVec 32) (numsects : BitVec 8) : Nat → BitVec 8
  | 0 => 0xA8
  | 2 => ((lba >>> 24) &&& 0xFF).setWidth 8
  | 3 => ((lba >>> 16) &&& 0xFF).setWidth 8
  | 4 => ((lba >>> 8) &&& 0xFF).setWidth 8
  | 5 => ((lba >>> 0) &&& 0xFF).setWidth 8
  | 9 => numsects
  | _ => 0

/-- A loop that reads the status until it is as it should be, at most as often as given. -/
def waitStatus (channel : Fin 2) (good : BitVec 8 → Bool) : (timeout : Nat) → Kernel Bus Unit
  | 0 => pure ()
  | timeout + 1 => do
    let status ← ideRead channel ataRegStatus
    if good status then pure () else waitStatus channel good timeout

/-- The device is not busy and has data to move. -/
def hasData (status : BitVec 8) : Bool := status &&& ataSrBsy = 0 ∧ status &&& ataSrDrq ≠ 0

/-- The device is done. -/
def isDone (status : BitVec 8) : Bool := status &&& (ataSrBsy ||| ataSrDrq) = 0

/-- The registers that `IDEAtaPIRead` writes up to its command. -/
def packetRegisters (slavebit : Fin 2) : List (Nat × BitVec 8) :=
  [(ataRegHddevsel, BitVec.ofNat 8 slavebit <<< 4), (ataRegFeatures, 0), (ataRegLba1, 0x00),
    (ataRegLba2, 0x08), (ataRegCommand, 0xA0)]

/-- `IDEAtaPIRead`. The four reads of `ATA_REG_ALTSTATUS` between its registers change nothing. -/
def ideAtaPIRead (fuel : Nat) (drive : Fin 4) (lba : BitVec 32) (numsects : BitVec 8) (edi : Nat) :
    Kernel Bus (BitVec 8) := do
  let dev := (← get).ideDev drive
  modify fun bus => { bus with nIEN := Function.update bus.nIEN dev.channel 0x02 }
  ideWrite dev.channel ataRegControl 0x02
  (packetRegisters dev.drive).forM fun register => ideWrite dev.channel register.1 register.2
  let err ← idePolling fuel dev.channel true
  if err ≠ 0 then pure err
  else do
    modify (outsw dev.channel 6 (atapiPacket lba numsects))
    let err ← readRounds fuel dev.channel 1024 (waitStatus dev.channel hasData 100000)
      numsects.toNat edi
    if err ≠ 0 then pure err
    else do
      waitStatus dev.channel isDone 100000
      pure 0

/-- The codes of `IDEPrintErr` for the bits of the error register, in the order of its tests:
`ATA_ER_AMNF`, `ATA_ER_TK0NF`, `ATA_ER_ABRT`, `ATA_ER_MCR`, `ATA_ER_IDNF`, `ATA_ER_MC`,
`ATA_ER_UNC` and `ATA_ER_BBK`. -/
def errorCodes : List (BitVec 8 × BitVec 8) :=
  [(0x01, 7), (0x02, 3), (0x04, 20), (0x08, 3), (0x10, 21), (0x20, 3), (0x40, 22), (0x80, 13)]

/-- The code for an error register: that of the last bit. -/
def errorCode (st : BitVec 8) : BitVec 8 :=
  errorCodes.foldl (fun err code => if st &&& code.1 ≠ 0 then code.2 else err) 2

/-- `IDEPrintErr`. -/
def idePrintErr (drive : Fin 4) (err : BitVec 8) : Kernel Bus (BitVec 8) := do
  if err = 0 then pure err
  else if err = 1 then pure 19
  else if err = 2 then
    let st ← ideRead ((← get).ideDev drive).channel ataRegError
    pure (errorCode st)
  else if err = 3 then pure 23
  else if err = 4 then pure 8
  else pure err

/-- `IsDrivePresent`. -/
def isDrivePresent (drive : Fin 4) : Kernel Bus Bool := do
  let dev := (← get).ideDev drive
  if dev.reserved = 0 then pure false
  else
    ideWrite dev.channel ataRegHddevsel (0xA0 ||| (BitVec.ofNat 8 dev.drive <<< 4))
    let status ← ideRead dev.channel ataRegStatus
    pure (decide ¬ (status = 0xFF ∨ status = 0x00))

/-- The transfer lies behind the last sector of a drive that checks it. -/
def behind (dev : Entry) (lba : BitVec 32) (numsects : BitVec 8) : Prop :=
  lba + numsects.setWidth 32 > dev.size ∧ dev.type = ideAta

instance (dev : Entry) (lba : BitVec 32) (numsects : BitVec 8) :
    Decidable (behind dev lba numsects) :=
  inferInstanceAs (Decidable (_ ∧ _))

/-- `package[0]`. -/
def setPackage (result : BitVec 8) : Kernel Bus Unit := modify fun bus =>
  { bus with package := result }

/-- The sectors of `IDEReadSectors` on an ATAPI drive, one packet for each. The result is that of
the last one. -/
def packets (fuel : Nat) (drive : Fin 4) : (rounds : Nat) → (lba : BitVec 32) → (edi : Nat) →
    (err : BitVec 8) → Kernel Bus (BitVec 8)
  | 0, _, _, err => pure err
  | rounds + 1, lba, edi, _ => do
    let err ← ideAtaPIRead fuel drive lba 1 edi
    packets fuel drive rounds (lba + 1) (edi + 2048) err

/-- The transfer of `IDEReadSectors`, by the type of the drive. -/
def sectorsRead (fuel : Nat) (drive : Fin 4) (numsects : BitVec 8) (lba : BitVec 32) (edi : Nat)
    (dev : Entry) : Kernel Bus (BitVec 8) :=
  if dev.type = ideAta then ideAccess fuel .ataRead drive lba numsects edi
  else if dev.type = ideAtapi then packets fuel drive numsects.toNat lba edi 0
  else pure 0

/-- The transfer of `IDEWriteSectors`, by the type of the drive. -/
def sectorsWritten (fuel : Nat) (drive : Fin 4) (numsects : BitVec 8) (lba : BitVec 32)
    (esi : Nat) (dev : Entry) : Kernel Bus (BitVec 8) :=
  if dev.type = ideAta then ideAccess fuel .ataWrite drive lba numsects esi
  else if dev.type = ideAtapi then pure 4
  else pure 0

/-- `IDEReadSectors`. A drive that is not there reads as zeros. -/
def ideReadSectors (fuel : Nat) (drive : Fin 4) (numsects : BitVec 8) (lba : BitVec 32)
    (edi : Nat) : Kernel Bus Unit := do
  let present ← isDrivePresent drive
  if ¬ present then do
    setPackage 0
    modify fun bus => bus.fill (overwrite bus.memory edi (numsects.toNat * 512) fun _ => 0)
  else
    let dev := (← get).ideDev drive
    if dev.reserved = 0 then setPackage 0x1
    else if behind dev lba numsects then setPackage 0x2
    else do
      let err ← sectorsRead fuel drive numsects lba edi dev
      let result ← idePrintErr drive err
      setPackage result

/-- `IDEWriteSectors`. -/
def ideWriteSectors (fuel : Nat) (drive : Fin 4) (numsects : BitVec 8) (lba : BitVec 32)
    (esi : Nat) : Kernel Bus Unit := do
  let present ← isDrivePresent drive
  if ¬ present then setPackage 0
  else
    let dev := (← get).ideDev drive
    if dev.reserved = 0 then setPackage 0x1
    else if behind dev lba numsects then setPackage 0x2
    else do
      let err ← sectorsWritten fuel drive numsects lba esi dev
      let result ← idePrintErr drive err
      setPackage result

end Bus

end Unarddeg.Ide
