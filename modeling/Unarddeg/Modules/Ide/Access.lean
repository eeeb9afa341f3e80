import Unarddeg.Library.TaskFile

/-!
# The addresses of sectors

`IDEWrite` of `modules/ide/main.c` and `IDEAccess` up to its command: what they write to the ports
of a channel. A drive decodes the sector that was asked for unless it is addressed by a cylinder of
more than 16 bits (`address_decoded_iff`).
-/

namespace Unarddeg.Ide

open Library

/-! ## Registers -/

/-- A port of a channel: an offset from its `base`, its `ctrl` or its `bmide`. -/
inductive Port
  | base (offset : Nat)
  | ctrl (offset : Nat)
  | bmide (offset : Nat)
  deriving DecidableEq

/-- `ATA_REG_SECCOUNT0`. -/
def ataRegSeccount0 : Nat := 0x02
/-- `ATA_REG_LBA0`. -/
def ataRegLba0 : Nat := 0x03
/-- `ATA_REG_LBA1`. -/
def ataRegLba1 : Nat := 0x04
/-- `ATA_REG_LBA2`. -/
def ataRegLba2 : Nat := 0x05
/-- `ATA_REG_HDDEVSEL`. -/
def ataRegHddevsel : Nat := 0x06
/-- `ATA_REG_COMMAND`. -/
def ataRegCommand : Nat := 0x07
/-- `ATA_REG_SECCOUNT1`. -/
def ataRegSeccount1 : Nat := 0x08
/-- `ATA_REG_LBA3`. -/
def ataRegLba3 : Nat := 0x09
/-- `ATA_REG_LBA4`. -/
def ataRegLba4 : Nat := 0x0A
/-- `ATA_REG_LBA5`. -/
def ataRegLba5 : Nat := 0x0B
/-- `ATA_REG_CONTROL`. -/
def ataRegControl : Nat := 0x0C

/-- The port of a register, as `IDEWrite` chooses it. -/
def portOf (reg : Nat) : Option Port :=
  if reg < 0x08 then some (.base (reg - 0x00))
  else if reg < 0x0C then some (.base (reg - 0x06))
  else if reg < 0x0E then some (.ctrl (reg - 0x0A))
  else if reg < 0x16 then some (.bmide (reg - 0x0E))
  else none

/-- The `outb` of `IDEWrite`. -/
def outReg (reg : Nat) (data : BitVec 8) : List (Port × BitVec 8) :=
  (portOf reg).toList.map fun port => (port, data)

/-- `IDEWrite`. The registers from 8 on that share ports with others are written between two writes
to the control register, which is none of them. -/
def ideWrite (nIEN : BitVec 8) (reg : Nat) (data : BitVec 8) : List (Port × BitVec 8) :=
  if reg > 0x07 ∧ reg < 0x0C then
    outReg ataRegControl (0x80 ||| nIEN) ++ outReg reg data ++ outReg ataRegControl nIEN
  else outReg reg data

/-! ## Addresses -/

/-- `lba_mode`. -/
inductive LbaMode
  | chs
  | lba28
  | lba48
  deriving DecidableEq

/-- The variables of `IDEAccess` that hold an address. -/
structure Encoded where
  /-- `lba_mode`. -/
  lbaMode : LbaMode
  /-- `lba_io`. -/
  lbaIo : Fin 6 → BitVec 8
  /-- `head`. -/
  head : BitVec 8

/-- `sect`. -/
def sectOf (lba : BitVec 32) : BitVec 8 := (lba % 63 + 1).setWidth 8

/-- `lba + 1 - sect`: the first sector of the track. -/
def trackOf (lba : BitVec 32) : BitVec 32 := lba + 1 - (sectOf lba).setWidth 32

/-- `cyl`, an `unsigned short`. -/
def cylOf (lba : BitVec 32) : BitVec 16 := (trackOf lba / (16 * 63)).setWidth 16

/-- The branches of `IDEAccess` over an address. -/
def encodeAddress (capabilities : BitVec 16) (lba : BitVec 32) : Encoded :=
  if lba ≥ 0x10000000 then
    { lbaMode := .lba48
      lbaIo := ![((lba &&& 0x000000FF) >>> 0).setWidth 8, ((lba &&& 0x0000FF00) >>> 8).setWidth 8,
        ((lba &&& 0x00FF0000) >>> 16).setWidth 8, ((lba &&& 0xFF000000) >>> 24).setWidth 8, 0, 0]
      head := 0 }
  else if capabilities &&& 0x200 ≠ 0 then
    { lbaMode := .lba28
      lbaIo := ![((lba &&& 0x00000FF) >>> 0).setWidth 8, ((lba &&& 0x000FF00) >>> 8).setWidth 8,
        ((lba &&& 0x0FF0000) >>> 16).setWidth 8, 0, 0, 0]
      head := ((lba &&& 0xF000000) >>> 24).setWidth 8 }
  else
    { lbaMode := .chs
      lbaIo := ![sectOf lba, ((cylOf lba >>> 0) &&& 0xFF).setWidth 8,
        ((cylOf lba >>> 8) &&& 0xFF).setWidth 8, 0, 0, 0]
      head := (trackOf lba % (16 * 63) / 63).setWidth 8 }

/-- `direction`. -/
inductive Direction
  | ataRead
  | ataWrite
  deriving DecidableEq

/-- `cmd`, as `dma` is always 0: `ATA_CMD_READ_PIO`, `ATA_CMD_READ_PIO_EXT`, `ATA_CMD_WRITE_PIO` or
`ATA_CMD_WRITE_PIO_EXT`. -/
def cmdOf : LbaMode → Direction → BitVec 8
  | .chs, .ataRead | .lba28, .ataRead => 0x20
  | .lba48, .ataRead => 0x24
  | .chs, .ataWrite | .lba28, .ataWrite => 0x30
  | .lba48, .ataWrite => 0x34

/-- What `IDEAccess` writes to the device register. -/
def deviceOf (slavebit : Fin 2) (encoded : Encoded) : BitVec 8 :=
  let select : BitVec 8 := if encoded.lbaMode = .chs then 0xA0 else 0xE0
  select ||| (BitVec.ofNat 8 slavebit <<< 4) ||| encoded.head

/-- The writes of `IDEAccess` up to its command, for a drive that is the slave or not. The channel
is without interrupts from the first one on. -/
def ideAccessWrites (direction : Direction) (slavebit : Fin 2) (capabilities : BitVec 16)
    (lba : BitVec 32) (numsects : BitVec 8) : List (Port × BitVec 8) :=
  let encoded := encodeAddress capabilities lba
  let write := ideWrite 0x02
  write ataRegControl 0x02 ++
    write ataRegHddevsel (deviceOf slavebit encoded) ++
    (if encoded.lbaMode = .lba48 then
      write ataRegSeccount1 0 ++ write ataRegLba3 (encoded.lbaIo 3) ++
        write ataRegLba4 (encoded.lbaIo 4) ++ write ataRegLba5 (encoded.lbaIo 5)
    else []) ++
    write ataRegSeccount0 numsects ++ write ataRegLba0 (encoded.lbaIo 0) ++
    write ataRegLba1 (encoded.lbaIo 1) ++ write ataRegLba2 (encoded.lbaIo 2) ++
    write ataRegCommand (cmdOf encoded.lbaMode direction)

/-- What a drive sees of some writes: those to the registers of its task file. -/
def taskWrites (writes : List (Port × BitVec 8)) : List (Nat × BitVec 8) :=
  writes.filterMap fun write =>
    match write.1 with
    | .base offset => some (offset, write.2)
    | _ => none

/-! ## What the drive decodes -/

section Bytes

variable {lba mask : BitVec 32} {shift : Nat}

/-- A byte of a word, with a mask for it or without. -/
theorem masked_byte (ones : ∀ place < 8, mask.getLsbD (shift + place) = true) :
    ((lba &&& mask) >>> shift).setWidth 8 = (lba >>> shift).setWidth 8 := by
  refine BitVec.eq_of_getLsbD_eq fun place small => ?_
  rw [BitVec.getLsbD_setWidth, BitVec.getLsbD_setWidth, BitVec.getLsbD_ushiftRight,
    BitVec.getLsbD_ushiftRight, BitVec.getLsbD_and, ones place small, Bool.and_true]

/-- It is a digit of the number to the base 256. -/
theorem masked_byte_toNat (ones : ∀ place < 8, mask.getLsbD (shift + place) = true) :
    (((lba &&& mask) >>> shift).setWidth 8).toNat = lba.toNat / 2 ^ shift % 2 ^ 8 := by
  rw [masked_byte ones, BitVec.toNat_setWidth, BitVec.toNat_ushiftRight, Nat.shiftRight_eq_div_pow]

/-- A byte of a cylinder is a digit of its number. -/
theorem cylinder_byte_toNat (word : BitVec 16) (shift : Nat) :
    (((word >>> shift) &&& 0xFF).setWidth 8).toNat = word.toNat / 2 ^ shift % 2 ^ 8 := by
  have mask : (0xFF : BitVec 16).toNat = 2 ^ 8 - 1 := rfl
  rw [BitVec.toNat_setWidth, BitVec.toNat_and, BitVec.toNat_ushiftRight, mask,
    Nat.and_two_pow_sub_one_eq_mod, Nat.mod_mod, Nat.shiftRight_eq_div_pow]

/-- The head of an address of 28 bits. -/
theorem masked_head (small : lba.toNat < 2 ^ 28) :
    ((lba &&& 0xF000000) >>> 24).setWidth 8 = BitVec.ofNat 8 (lba.toNat / 2 ^ 24) := by
  have masked : lba &&& 0xF000000 = lba &&& 0xFF000000 := by
    refine BitVec.eq_of_getLsbD_eq fun place inside => ?_
    rw [BitVec.getLsbD_and, BitVec.getLsbD_and]
    by_cases high : 28 ≤ place
    · have zero : lba.getLsbD place = false :=
        Nat.testBit_lt_two_pow (Nat.lt_of_lt_of_le small (Nat.pow_le_pow_right (by decide) high))
      rw [zero, Bool.false_and, Bool.false_and]
    · congr 1
      have all : ∀ place < 28, (0xF000000 : BitVec 32).getLsbD place =
          (0xFF000000 : BitVec 32).getLsbD place := by decide
      exact all place (by omega)
  apply BitVec.eq_of_toNat_eq
  rw [masked, masked_byte_toNat (by decide), BitVec.toNat_ofNat]

end Bytes

section Geometry

variable {lba : BitVec 32}

/-- The sector of an address in its track, from 1 on. -/
theorem sectOf_toNat (lba : BitVec 32) : (sectOf lba).toNat = lba.toNat % 63 + 1 := by
  have part : (lba % 63).toNat = lba.toNat % 63 := BitVec.toNat_umod
  have one : (1 : BitVec 32).toNat = 1 := rfl
  rw [sectOf, BitVec.toNat_setWidth, BitVec.toNat_add, part, one]
  omega

/-- The first sector of its track. -/
theorem trackOf_toNat (small : lba.toNat < 2 ^ 28) :
    (trackOf lba).toNat = 63 * (lba.toNat / 63) := by
  have sect : ((sectOf lba).setWidth 32).toNat = lba.toNat % 63 + 1 := by
    rw [BitVec.toNat_setWidth, sectOf_toNat]
    omega
  have one : (1 : BitVec 32).toNat = 1 := rfl
  rw [trackOf, BitVec.toNat_sub, sect, BitVec.toNat_add, one]
  omega

/-- The cylinder loses the bits that do not fit. -/
theorem cylOf_toNat (small : lba.toNat < 2 ^ 28) :
    (cylOf lba).toNat = lba.toNat / (16 * 63) % 2 ^ 16 := by
  have tracks : (16 * 63 : BitVec 32).toNat = 63 * 16 := rfl
  rw [cylOf, BitVec.toNat_setWidth, BitVec.toNat_udiv, trackOf_toNat small, tracks,
    Nat.mul_div_mul_left _ _ (by decide), Nat.div_div_eq_div_mul, Nat.mul_comm 63 16]

/-- The head. -/
theorem headOf_eq (small : lba.toNat < 2 ^ 28) :
    (trackOf lba % (16 * 63) / 63).setWidth 8 = BitVec.ofNat 8 (lba.toNat % (16 * 63) / 63) := by
  have tracks : (16 * 63 : BitVec 32).toNat = 63 * 16 := rfl
  have track : (63 : BitVec 32).toNat = 63 := rfl
  apply BitVec.eq_of_toNat_eq
  rw [BitVec.toNat_setWidth, BitVec.toNat_udiv, BitVec.toNat_umod, trackOf_toNat small, tracks,
    track, Nat.mul_mod_mul_left, Nat.mul_div_cancel_left _ (by decide), BitVec.toNat_ofNat,
    Nat.mul_comm 16 63, Nat.mod_mul_right_div_self]

end Geometry

section Commands

variable {file : TaskFile} {direction : Direction} {slavebit : Fin 2} {capabilities : BitVec 16}
  {lba : BitVec 32} {numsects : BitVec 8}

/-- Writes one after the other. -/
theorem taskWrites_append (first second : List (Port × BitVec 8)) :
    taskWrites (first ++ second) = taskWrites first ++ taskWrites second :=
  List.filterMap_append

/-- The drive sees what is written to a register of its task file. -/
theorem taskWrites_outReg (reg : Nat) (data : BitVec 8) : taskWrites (outReg reg data) =
    if reg < 0x08 then [(reg, data)] else if reg < 0x0C then [(reg - 0x06, data)] else [] := by
  unfold outReg portOf
  split_ifs
  all_goals rfl

/-- The writes to the control register make no difference to it. -/
theorem taskWrites_ideWrite (nIEN : BitVec 8) (reg : Nat) (data : BitVec 8) :
    taskWrites (ideWrite nIEN reg data) = taskWrites (outReg reg data) := by
  have control : ∀ byte, taskWrites (outReg ataRegControl byte) = [] := fun byte =>
    taskWrites_outReg ..
  unfold ideWrite
  split_ifs
  · rw [taskWrites_append, taskWrites_append, control, control, List.nil_append, List.append_nil]
  · rfl

/-- The drive sees the device register, the registers of the address, and the command. -/
theorem taskWrites_ideAccess : taskWrites
    (ideAccessWrites direction slavebit capabilities lba numsects) =
      let encoded := encodeAddress capabilities lba
      (6, deviceOf slavebit encoded) ::
        ((if encoded.lbaMode = .lba48 then
          [(2, 0), (3, encoded.lbaIo 3), (4, encoded.lbaIo 4), (5, encoded.lbaIo 5)] else []) ++
        [(2, numsects), (3, encoded.lbaIo 0), (4, encoded.lbaIo 1), (5, encoded.lbaIo 2),
          (7, cmdOf encoded.lbaMode direction)]) := by
  unfold ideAccessWrites
  generalize encodeAddress capabilities lba = encoded
  dsimp only
  by_cases extended : encoded.lbaMode = .lba48
  · rw [if_pos extended, if_pos extended]
    simp only [taskWrites_append, taskWrites_ideWrite, taskWrites_outReg]
    rfl
  · rw [if_neg extended, if_neg extended]
    simp only [taskWrites_append, taskWrites_ideWrite, taskWrites_outReg]
    rfl

/-- The commands behind the writes for an address of 48 bits. -/
theorem commands_extended (device count cmd : BitVec 8) (io : Fin 6 → BitVec 8)
    (extended : TaskFile.isExtended cmd = true) (addresses : device.getLsbD 6 = true) :
    TaskFile.commands ((6, device) :: ([(2, 0), (3, io 3), (4, io 4), (5, io 5)] ++
      [(2, count), (3, io 0), (4, io 1), (5, io 2), (7, cmd)])) file =
      [(cmd, some ((io 0).toNat + 2 ^ 8 * (io 1).toNat + 2 ^ 16 * (io 2).toNat + 2 ^ 24 *
        ((io 3).toNat + 2 ^ 8 * (io 4).toNat + 2 ^ 16 * (io 5).toNat)))] := by
  simp [TaskFile.address, TaskFile.addressBytes, extended, addresses]

/-- The commands behind the writes for another address. -/
theorem commands_plain (device count cmd : BitVec 8) (io : Fin 6 → BitVec 8)
    (plain : TaskFile.isExtended cmd = false) :
    TaskFile.commands ((6, device) :: ([] ++
      [(2, count), (3, io 0), (4, io 1), (5, io 2), (7, cmd)])) file =
      [(cmd, if device.getLsbD 6 then
          some ((io 0).toNat + 2 ^ 8 * (io 1).toNat + 2 ^ 16 * (io 2).toNat +
            2 ^ 24 * (device.toNat % 16))
        else TaskFile.chsAddress ((io 1).toNat + 2 ^ 8 * (io 2).toNat) (device.toNat % 16)
          (io 0).toNat)] := by
  simp [TaskFile.address, TaskFile.addressBytes, TaskFile.head, plain]

/-- The device register of a drive: the bit for addresses, and the head. -/
theorem deviceOf_lba {encoded : Encoded} {head : Nat} (mode : encoded.lbaMode ≠ .chs)
    (is : encoded.head = .ofNat 8 head) (small : head < 16) :
    (deviceOf slavebit encoded).getLsbD 6 = true ∧
      (deviceOf slavebit encoded).toNat % 16 = head := by
  have all : ∀ slavebit : Fin 2, ∀ head < 16,
      let device : BitVec 8 := 0xE0 ||| (BitVec.ofNat 8 slavebit <<< 4) ||| BitVec.ofNat 8 head
      device.getLsbD 6 = true ∧ device.toNat % 16 = head := by
    decide
  unfold deviceOf
  rw [if_neg mode, is]
  exact all slavebit head small

/-- The same for a cylinder, a head and a sector. -/
theorem deviceOf_chs {encoded : Encoded} {head : Nat} (mode : encoded.lbaMode = .chs)
    (is : encoded.head = .ofNat 8 head) (small : head < 16) :
    (deviceOf slavebit encoded).getLsbD 6 = false ∧
      (deviceOf slavebit encoded).toNat % 16 = head := by
  have all : ∀ slavebit : Fin 2, ∀ head < 16,
      let device : BitVec 8 := 0xA0 ||| (BitVec.ofNat 8 slavebit <<< 4) ||| BitVec.ofNat 8 head
      device.getLsbD 6 = false ∧ device.toNat % 16 = head := by
    decide
  unfold deviceOf
  rw [if_pos mode, is]
  exact all slavebit head small

/-- The commands that a drive sees, with the addresses that it decodes. -/
abbrev seen (direction : Direction) (slavebit : Fin 2) (capabilities : BitVec 16)
    (lba : BitVec 32) (numsects : BitVec 8) (file : TaskFile) : List (BitVec 8 × Option Nat) :=
  TaskFile.commands (taskWrites (ideAccessWrites direction slavebit capabilities lba numsects)) file

/-- What a drive decodes from an address of 48 bits. -/
theorem seen_extended {encoded : Encoded} (is : encodeAddress capabilities lba = encoded)
    (mode : encoded.lbaMode = .lba48) (first : encoded.head = 0) :
    seen direction slavebit capabilities lba numsects file =
      [(cmdOf encoded.lbaMode direction,
        some ((encoded.lbaIo 0).toNat + 2 ^ 8 * (encoded.lbaIo 1).toNat +
          2 ^ 16 * (encoded.lbaIo 2).toNat + 2 ^ 24 * ((encoded.lbaIo 3).toNat +
            2 ^ 8 * (encoded.lbaIo 4).toNat + 2 ^ 16 * (encoded.lbaIo 5).toNat)))] := by
  have extended : TaskFile.isExtended (cmdOf .lba48 direction) = true := by
    cases direction <;> rfl
  have other : encoded.lbaMode ≠ .chs := by
    rw [mode]
    decide
  obtain ⟨addresses, _⟩ := @deviceOf_lba slavebit encoded 0 other first (by decide)
  rw [seen, taskWrites_ideAccess, is]
  dsimp only
  rw [if_pos mode, mode, commands_extended _ _ _ _ extended addresses]

/-- What a drive decodes from an address of 28 bits. -/
theorem seen_plain {encoded : Encoded} (is : encodeAddress capabilities lba = encoded)
    (mode : encoded.lbaMode = .lba28) {head : Nat} (head_eq : encoded.head = .ofNat 8 head)
    (small : head < 16) :
    seen direction slavebit capabilities lba numsects file =
      [(cmdOf encoded.lbaMode direction,
        some ((encoded.lbaIo 0).toNat + 2 ^ 8 * (encoded.lbaIo 1).toNat +
          2 ^ 16 * (encoded.lbaIo 2).toNat + 2 ^ 24 * head))] := by
  have plain : TaskFile.isExtended (cmdOf .lba28 direction) = false := by
    cases direction <;> rfl
  have other : encoded.lbaMode ≠ .chs := by
    rw [mode]
    decide
  obtain ⟨addresses, low⟩ := @deviceOf_lba slavebit encoded head other head_eq small
  rw [seen, taskWrites_ideAccess, is]
  dsimp only
  rw [mode, if_neg (by decide), commands_plain _ _ _ _ plain, if_pos addresses, low]

/-- What a drive decodes from a cylinder, a head and a sector. -/
theorem seen_chs {encoded : Encoded} (is : encodeAddress capabilities lba = encoded)
    (mode : encoded.lbaMode = .chs) {head : Nat} (head_eq : encoded.head = .ofNat 8 head)
    (small : head < 16) :
    seen direction slavebit capabilities lba numsects file =
      [(cmdOf encoded.lbaMode direction,
        TaskFile.chsAddress ((encoded.lbaIo 1).toNat + 2 ^ 8 * (encoded.lbaIo 2).toNat) head
          (encoded.lbaIo 0).toNat)] := by
  have plain : TaskFile.isExtended (cmdOf .chs direction) = false := by
    cases direction <;> rfl
  obtain ⟨places, low⟩ := @deviceOf_chs slavebit encoded head mode head_eq small
  rw [seen, taskWrites_ideAccess, is]
  dsimp only
  rw [mode, if_neg (by decide), commands_plain _ _ _ _ plain, places, low,
    if_neg Bool.false_ne_true]

/-- An address of 48 bits is that of the sector. -/
theorem seen_lba48 (large : 0x10000000 ≤ lba) :
    seen direction slavebit capabilities lba numsects file =
      [(cmdOf (encodeAddress capabilities lba).lbaMode direction, some lba.toNat)] := by
  have encoded : encodeAddress capabilities lba = _ := if_pos large
  have bytes : (((lba &&& 0x000000FF) >>> 0).setWidth 8).toNat +
      2 ^ 8 * (((lba &&& 0x0000FF00) >>> 8).setWidth 8).toNat +
      2 ^ 16 * (((lba &&& 0x00FF0000) >>> 16).setWidth 8).toNat +
      2 ^ 24 * ((((lba &&& 0xFF000000) >>> 24).setWidth 8).toNat +
        2 ^ 8 * (0 : BitVec 8).toNat + 2 ^ 16 * (0 : BitVec 8).toNat) = lba.toNat := by
    have bound := lba.isLt
    have zero : (0 : BitVec 8).toNat = 0 := rfl
    rw [masked_byte_toNat (by decide), masked_byte_toNat (by decide),
      masked_byte_toNat (by decide), masked_byte_toNat (by decide), zero]
    omega
  rw [seen_extended encoded rfl rfl, encoded]
  exact congrArg (fun number => [(cmdOf .lba48 direction, some number)]) bytes

/-- An address of 28 bits is that of the sector. -/
theorem seen_lba28 (small : lba.toNat < 2 ^ 28) (capable : capabilities &&& 0x200 ≠ 0) :
    seen direction slavebit capabilities lba numsects file =
      [(cmdOf (encodeAddress capabilities lba).lbaMode direction, some lba.toNat)] := by
  have below : ¬ lba ≥ 0x10000000 := BitVec.not_le.mpr (BitVec.lt_def.mpr small)
  have encoded : encodeAddress capabilities lba = _ := (if_neg below).trans (if_pos capable)
  have bytes : (((lba &&& 0x00000FF) >>> 0).setWidth 8).toNat +
      2 ^ 8 * (((lba &&& 0x000FF00) >>> 8).setWidth 8).toNat +
      2 ^ 16 * (((lba &&& 0x0FF0000) >>> 16).setWidth 8).toNat +
      2 ^ 24 * (lba.toNat / 2 ^ 24) = lba.toNat := by
    rw [masked_byte_toNat (by decide), masked_byte_toNat (by decide),
      masked_byte_toNat (by decide)]
    omega
  rw [seen_plain encoded rfl (masked_head small) (by omega), encoded]
  exact congrArg (fun number => [(cmdOf .lba28 direction, some number)]) bytes

/-- A cylinder, a head and a sector are those of the sector if the cylinder fits its 16 bits. -/
theorem seen_geometry (small : lba.toNat < 2 ^ 28) (incapable : ¬ capabilities &&& 0x200 ≠ 0) :
    seen direction slavebit capabilities lba numsects file =
      [(cmdOf (encodeAddress capabilities lba).lbaMode direction,
        TaskFile.chsAddress (lba.toNat / (16 * 63) % 2 ^ 16) (lba.toNat % (16 * 63) / 63)
          (lba.toNat % 63 + 1))] := by
  have below : ¬ lba ≥ 0x10000000 := BitVec.not_le.mpr (BitVec.lt_def.mpr small)
  have encoded : encodeAddress capabilities lba = _ := (if_neg below).trans (if_neg incapable)
  have cylinder : (((cylOf lba >>> 0) &&& 0xFF).setWidth 8).toNat +
      2 ^ 8 * (((cylOf lba >>> 8) &&& 0xFF).setWidth 8).toNat =
        lba.toNat / (16 * 63) % 2 ^ 16 := by
    have bound := (cylOf lba).isLt
    rw [← cylOf_toNat small, cylinder_byte_toNat, cylinder_byte_toNat]
    omega
  rw [seen_chs encoded rfl (headOf_eq small) (by omega), encoded]
  have place := congrArg₂ (fun cylinder sector => TaskFile.chsAddress cylinder
    (lba.toNat % (16 * 63) / 63) sector) cylinder (sectOf_toNat lba)
  exact congrArg (fun number => [(cmdOf .chs direction, number)]) place

end Commands

/-- **Addresses.** Whatever a drive holds in its registers, `IDEAccess` issues one command, and the
address that the drive decodes for it is that of the sector, if and only if the address takes 48
bits, or the drive has addresses, or the cylinder fits 16 bits. -/
theorem address_decoded_iff (file : TaskFile) (direction : Direction) (slavebit : Fin 2)
    (capabilities : BitVec 16) (lba : BitVec 32) (numsects : BitVec 8) :
    seen direction slavebit capabilities lba numsects file =
        [(cmdOf (encodeAddress capabilities lba).lbaMode direction, some lba.toNat)] ↔
      0x10000000 ≤ lba.toNat ∨ capabilities &&& 0x200 ≠ 0 ∨ lba.toNat < 65536 * 16 * 63 := by
  by_cases large : 0x10000000 ≤ lba
  · exact iff_of_true (seen_lba48 large) (.inl (BitVec.le_def.mp large))
  · have small : lba.toNat < 2 ^ 28 := BitVec.lt_def.mp (BitVec.not_le.mp large)
    by_cases capable : capabilities &&& 0x200 ≠ 0
    · exact iff_of_true (seen_lba28 small capable) (.inr (.inl capable))
    · have split := TaskFile.chs_split lba.toNat
      unfold TaskFile.heads TaskFile.sectors at split
      rw [seen_geometry small capable]
      constructor
      · intro same
        have decoded := (Prod.mk.inj (List.cons.inj same).1).2
        have cylinder := TaskFile.chsAddress_inj decoded split
        omega
      · rintro (high | flag | fits)
        · omega
        · exact absurd flag capable
        · rw [Nat.mod_eq_of_lt (by omega), split]

/-- The first sector that has no cylinder of 16 bits is taken for the sector 0. -/
theorem cylinder_truncated : ¬ ∀ (file : TaskFile) (direction : Direction) (slavebit : Fin 2)
    (capabilities : BitVec 16) (lba : BitVec 32) (numsects : BitVec 8),
    seen direction slavebit capabilities lba numsects file =
      [(cmdOf (encodeAddress capabilities lba).lbaMode direction, some lba.toNat)] := by
  intro claim
  have decoded := claim ⟨fun _ => 0, fun _ => 0⟩ .ataRead 0 0 66060288 1
  rw [seen_geometry (by decide) (by decide)] at decoded
  exact absurd decoded (by decide)

end Unarddeg.Ide
