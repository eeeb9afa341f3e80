import Unarddeg.Modules.Ide.Commands

/-!
# Packets over the ports

`IDEAtaPIRead` with a device that takes packets: the packet that the driver sends is the command to
read the sectors that were asked for, and the rounds of the transfer are those of `IDEAccess`.
-/

namespace Unarddeg.Ide

open Library

namespace Bus

/-! ## The packet -/

section Packet

variable {lba : BitVec 32} {numsects : BitVec 8} {device : AtaDevice}

/-- A byte of the sector in a packet. -/
theorem packet_byte (shift : Nat) :
    (((lba >>> shift) &&& 0xFF).setWidth 8).toNat = lba.toNat / 2 ^ shift % 2 ^ 8 := by
  have mask : (0xFF : BitVec 32).toNat = 2 ^ 8 - 1 := rfl
  rw [BitVec.toNat_setWidth, BitVec.toNat_and, BitVec.toNat_ushiftRight, mask,
    Nat.and_two_pow_sub_one_eq_mod, Nat.mod_mod, Nat.shiftRight_eq_div_pow]

/-- The packet names the sector. -/
theorem packet_lba : AtaDevice.bigEndian (atapiPacket lba numsects) 2 = lba.toNat := by
  have bound := lba.isLt
  unfold AtaDevice.bigEndian
  simp only [atapiPacket, packet_byte]
  omega

/-- It counts the sectors. -/
theorem packet_count : AtaDevice.bigEndian (atapiPacket lba numsects) 6 = numsects.toNat := by
  simp [AtaDevice.bigEndian, atapiPacket]

/-- The words of the packet hold it. -/
theorem bigEndian_words {place : Nat} {bytes : Nat → BitVec 8} (inside : place + 4 ≤ 12) :
    AtaDevice.bigEndian (toBytes (toWords 6 bytes)) place = AtaDevice.bigEndian bytes place := by
  unfold AtaDevice.bigEndian
  rw [toBytes_toWords (by omega), toBytes_toWords (by omega), toBytes_toWords (by omega),
    toBytes_toWords (by omega)]

/-- A device that has received the packet sends the sectors. -/
theorem received_packet : device.received (toWords 6 (atapiPacket lba numsects)) .packet =
    device.send (device.blocks 1024 lba.toNat numsects.toNat) := by
  have opcode : toBytes (toWords 6 (atapiPacket lba numsects)) 0 = 0xA8 :=
    toBytes_toWords (by decide)
  unfold AtaDevice.received AtaDevice.packet
  dsimp only
  rw [if_pos opcode, bigEndian_words (by decide), bigEndian_words (by decide), packet_lba,
    packet_count]

end Packet

/-! ## Waits with a limit -/

section Waits

variable {channel : Fin 2} {good : BitVec 8 → Bool}

/-- A loop that reads the status only takes from the count of a busy device. -/
theorem waitStatus_patient (timeout : Nat) : Patient channel (waitStatus channel good timeout) := by
  intro bus device
  induction timeout generalizing device with
  | zero => exact ⟨device.busy, Nat.le_refl _, rfl⟩
  | succ timeout ih =>
    have read := ideRead_status (@selected_put bus channel device)
    rw [put_put] at read
    by_cases enough : good device.status = true
    · refine ⟨device.busy - 1, Nat.sub_le .., ?_⟩
      rw [waitStatus, bind_of_ok read, if_pos enough]
      rfl
    · obtain ⟨busy, less, waited⟩ := ih device.polled
      refine ⟨busy, Nat.le_trans less (Nat.sub_le ..), ?_⟩
      rw [waitStatus, bind_of_ok read, if_neg enough]
      exact waited

/-- A device that takes registers stays as it is. -/
theorem waitStatus_free {bus : Bus} {device : AtaDevice} (free : device.engaged = false)
    (timeout : Nat) : waitStatus channel good timeout (bus.put channel device) =
      .ok () (bus.put channel device) := by
  obtain ⟨busy, less, waited⟩ := @waitStatus_patient channel good timeout bus device
  have notBusy : device.busy = 0 := by
    unfold AtaDevice.engaged at free
    simp only [Bool.or_eq_false_iff, decide_eq_false_iff_not] at free
    omega
  have zero : busy = device.busy := by omega
  subst zero
  exact waited

end Waits

/-! ## Reads -/

section Access

variable {bus : Bus} {drive : Fin 4} {device : AtaDevice} {lba : BitVec 32} {numsects : BitVec 8}

/-- A drive that `IDEAtaPIRead` can be called for: all devices of its channel take registers, and
its own is there and takes packets. -/
structure PacketReady (bus : Bus) (drive : Fin 4) (device : AtaDevice) : Prop where
  /-- The devices take registers. -/
  free : Free (bus.channel (bus.ideDev drive).channel)
  /-- The device is there. -/
  there : (bus.channel (bus.ideDev drive).channel).device (bus.ideDev drive).drive = some device
  /-- It takes packets. -/
  atapi : device.medium.atapi = true

/-- The registers that `IDEAtaPIRead` gives to the device of a drive. -/
def packetFile (slavebit : Fin 2) : List (Nat × BitVec 8) :=
  [(6, BitVec.ofNat 8 slavebit <<< 4), (1, 0), (4, 0x00), (5, 0x08)]

/-- The device register selects the drive. -/
theorem packet_selects (slavebit : Fin 2) :
    (if (BitVec.ofNat 8 slavebit <<< 4 : BitVec 8).getLsbD 4 then 1 else 0) = slavebit := by
  revert slavebit
  decide

/-- The registers are written, and the command. -/
theorem packetRegisters_ok (ready : PacketReady bus drive device) :
    ((packetRegisters (bus.ideDev drive).drive).forM fun register =>
      ideWrite (bus.ideDev drive).channel register.1 register.2)
        (bus.polling (bus.ideDev drive).channel) =
      .ok () (((bus.polling (bus.ideDev drive).channel).chosen (bus.ideDev drive)
          (packetFile (bus.ideDev drive).drive)).put (bus.ideDev drive).channel
        ((refile (packetFile (bus.ideDev drive).drive) device).enter (.receiving .packet []))) := by
  have tasks : ((packetRegisters (bus.ideDev drive).drive).flatMap
      fun register => taskWrites (outReg register.1 register.2)) =
      (6, BitVec.ofNat 8 (bus.ideDev drive).drive <<< 4) :: [(1, 0), (4, 0x00), (5, 0x08)] ++
        [(7, 0xA0)] := by
    simp [packetRegisters, taskWrites_outReg, ataRegHddevsel, ataRegFeatures, ataRegLba1,
      ataRegLba2, ataRegCommand]
  have lines : (bus.polling (bus.ideDev drive).channel).channel (bus.ideDev drive).channel =
      bus.channel (bus.ideDev drive).channel := rfl
  have command : (refile (packetFile (bus.ideDev drive).drive) device).command 0xA0 =
      (refile (packetFile (bus.ideDev drive).drive) device).enter (.receiving .packet []) := by
    have atapi : (refile (packetFile (bus.ideDev drive).drive) device).medium.atapi = true :=
      ready.atapi
    rw [AtaDevice.command, if_pos atapi, AtaDevice.atapiCommand, if_pos rfl]
  rw [forM_ideWrite, tasks, lines, outAll_command ready.free ready.there (packet_selects _)
    (by simp), chosen_put, ← command]
  rfl

/-- `IDEAtaPIRead` reads the sectors in front of the first fault, which the device reports. -/
theorem PacketReady.reads (ready : PacketReady bus drive device) (lba : BitVec 32)
    (numsects : BitVec 8) (edi : Nat) :
    ∃ last after, Settles (fun fuel => ideAtaPIRead fuel drive lba numsects edi) bus
        (resultCode (firstFault device.medium.readFault lba.toNat numsects.toNat)) after ∧
      after.memory = overwrite bus.memory edi
        (2048 * soundCount device.medium.readFault lba.toNat numsects.toNat)
        (sectorBytes 2048 device.sectors lba.toNat) ∧
      Accessed bus drive last after ∧ last.medium = device.medium ∧
      last.sectors = device.sectors ∧
      ∀ fault, firstFault device.medium.readFault lba.toNat numsects.toNat = .some fault →
        last.phase = .failed fault := by
  let channel := (bus.ideDev drive).channel
  let given := refile (packetFile (bus.ideDev drive).drive) device
  let choosing := (bus.polling channel).chosen (bus.ideDev drive)
    (packetFile (bus.ideDev drive).drive)
  let expecting := calm (given.enter (.receiving .packet []))
  -- The device waits for the packet.
  have polled := idePolling_settles
    (@selected_put choosing channel (given.enter (.receiving .packet []))) true
  have code : checked (calm (given.enter (.receiving .packet []))).status = 0 :=
    (by decide : checked 0x58 = 0)
  rw [if_pos rfl, put_put, code] at polled
  have moved := @outsw_receiving (choosing.put channel expecting) channel expecting [] .packet 6
    (atapiPacket lba numsects) (by decide) selected_put rfl rfl rfl
  rw [put_put, List.nil_append, received_packet] at moved
  -- It sends the sectors.
  obtain ⟨last, rests, failed, settles⟩ := @readRounds_settles choosing channel expecting
    (expecting.blocks 1024 lba.toNat numsects.toNat) 1024 edi _
    (@waitStatus_patient channel hasData 100000) (by decide) blocks_whole
  rw [blocks_length, readBlocks_sectors (by decide)] at settles
  rw [readBlocks_sectors (by decide)] at failed
  let buffer := overwrite bus.memory edi
    (2048 * soundCount device.medium.readFault lba.toNat numsects.toNat)
    (sectorBytes 2048 device.sectors lba.toNat)
  have read : Settles (fun fuel => readRounds fuel channel 1024
        (waitStatus channel hasData 100000) numsects.toNat edi)
      (choosing.put channel (expecting.send (expecting.blocks 1024 lba.toNat numsects.toNat)))
      (resultCode (firstFault device.medium.readFault lba.toNat numsects.toNat))
      ((choosing.put channel last).fill buffer) := settles
  refine ⟨last, (choosing.put channel last).fill buffer, ?_, rfl, accessed_put rests.free,
    rests.medium, rests.sectors, failed⟩
  refine .bind_get (.bind_modify (.bind (.of_ok fun _ => ideWrite_control 0x02)
    (.bind (.of_ok fun _ => packetRegisters_ok ready) (.bind polled ?_))))
  refine .congr (fun fuel => by rw [if_neg (not_not.mpr rfl)]) (.bind_modify ?_)
  rw [show outsw channel 6 (atapiPacket lba numsects) (choosing.put channel expecting) = _
    from moved]
  refine .bind read ?_
  cases firstFault device.medium.readFault lba.toNat numsects.toNat with
  | some fault => exact .congr (fun _ => by rw [if_pos]; exact faultCode_ne_zero) .returns
  | none =>
    have waited := @waitStatus_free channel isDone (choosing.fill buffer) last rests.free 100000
    refine .congr (fun _ => by rw [if_neg]; exact not_not.mpr rfl)
      (.bind (.of_ok fun _ => waited) .returns)

end Access

end Bus

end Unarddeg.Ide
