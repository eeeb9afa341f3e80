import Unarddeg.Modules.Ide.Transfers

/-!
# Commands over the ports

`IDEAccess` with a device behind its registers. Whatever the registers held, the device that was
meant gets one command for the sectors that were asked for; with the rounds of the transfer this
makes a read or a write of any number of sectors (`access_reads`, `access_stores`).
-/

namespace Unarddeg.Ide

open Library

/-! ## Registers -/

/-- Every device of a channel takes registers. -/
def Free (lines : Channel) : Prop :=
  ∀ place device, lines.device place = some device → device.engaged = false

/-- A channel after some writes. -/
def outAll (lines : Channel) (writes : List (Nat × BitVec 8)) : Channel :=
  writes.foldl (fun lines write => lines.out write.1 write.2) lines

/-- The registers after some writes. -/
def written (file : TaskFile) (writes : List (Nat × BitVec 8)) : TaskFile :=
  writes.foldl (fun file write => file.write write.1 write.2) file

/-- A device after some writes to its registers. -/
def refile (writes : List (Nat × BitVec 8)) (device : AtaDevice) : AtaDevice :=
  { device with file := written device.file writes }

/-- A channel whose devices have taken some writes. -/
def filed (lines : Channel) (writes : List (Nat × BitVec 8)) : Channel :=
  { lines with device := fun place => (lines.device place).map (refile writes) }

section Writes

variable {lines : Channel} {register : Nat} {byte : BitVec 8} {writes : List (Nat × BitVec 8)}
  {file : TaskFile} {place : Fin 2} {device : AtaDevice}

/-- The selected device takes a register. -/
theorem Free.engaged (free : Free lines) : lines.engaged = false := by
  unfold Channel.engaged
  cases there : lines.device lines.selected with
  | none => rfl
  | some device => exact free _ device there

/-- Registers make no difference to it. -/
theorem Free.filed (free : Free lines) : Free (filed lines writes) := by
  intro place device there
  obtain ⟨before, found, rfl⟩ := Option.map_eq_some_iff.mp there
  exact free place before found

/-- The selection makes no difference either. -/
theorem Free.select (free : Free lines) : Free { lines with selected := place } := free

/-- A device that takes registers may be put there. -/
theorem Free.put (free : Free lines) (ready : device.engaged = false) :
    Free (lines.put place device) := by
  intro other found there
  by_cases same : other = place
  · subst same
    simp only [Channel.put, Function.update_self, Option.some.injEq] at there
    exact there ▸ ready
  · simp only [Channel.put, Function.update_of_ne same] at there
    exact free other found there

/-- A write to a register that neither selects nor commands. -/
theorem out_register (free : Free lines) (apart : register ≠ 6 ∧ register ≠ 7) :
    lines.out register byte = filed lines [(register, byte)] := by
  rw [Channel.out, if_neg (by rw [free.engaged]; decide), if_neg apart.2, if_neg apart.1]
  rfl

/-- A write that selects. -/
theorem out_select (free : Free lines) : lines.out 6 byte =
    { filed lines [(6, byte)] with selected := if byte.getLsbD 4 then 1 else 0 } := by
  rw [Channel.out, if_neg (by rw [free.engaged]; decide), if_neg (by decide), if_pos rfl]
  rfl

/-- A write that commands. -/
theorem out_command (free : Free lines) (there : lines.device lines.selected = some device) :
    lines.out 7 byte = lines.put lines.selected (device.command byte) := by
  rw [Channel.out, if_neg (by rw [free.engaged]; decide), if_pos rfl, there]

/-- Registers one behind the other. -/
theorem filed_filed {more : List (Nat × BitVec 8)} :
    filed (filed lines writes) more = filed lines (writes ++ more) := by
  have both : refile more ∘ refile writes = refile (writes ++ more) := by
    funext device
    simp only [Function.comp_apply, refile, written, List.foldl_append]
  simp only [filed, Option.map_map, both]

/-- No writes. -/
theorem filed_nil : filed lines [] = lines := by
  have none : refile [] = id := rfl
  simp [filed, none]

/-- Writes to registers that neither select nor command. -/
theorem outAll_registers (free : Free lines)
    (apart : ∀ write ∈ writes, write.1 ≠ 6 ∧ write.1 ≠ 7) :
    outAll lines writes = filed lines writes := by
  induction writes generalizing lines with
  | nil => exact filed_nil.symm
  | cons write writes ih =>
    have rest := @ih (filed lines [write]) free.filed fun other member =>
      apart other (List.mem_cons_of_mem _ member)
    rw [outAll, List.foldl_cons, out_register free (apart write List.mem_cons_self), ← outAll, rest,
      filed_filed]
    rfl

/-- Writes one behind the other. -/
theorem outAll_append {more : List (Nat × BitVec 8)} :
    outAll lines (writes ++ more) = outAll (outAll lines writes) more :=
  List.foldl_append

/-- A command is issued with the registers of that time. -/
theorem commands_last (apart : ∀ write ∈ writes, write.1 ≠ 7) :
    TaskFile.commands (writes ++ [(7, byte)]) file =
      [(byte, (written file writes).address (TaskFile.isExtended byte))] := by
  induction writes generalizing file with
  | nil => exact TaskFile.commands_command
  | cons write writes ih =>
    rw [List.cons_append, TaskFile.commands_register (apart write List.mem_cons_self),
      ih fun other member => apart other (List.mem_cons_of_mem _ member)]
    rfl

/-- The channel only sees what is written to its `base`. -/
theorem foldl_outPort (ports : List (Port × BitVec 8)) :
    ports.foldl Bus.outPort lines = outAll lines (taskWrites ports) := by
  induction ports generalizing lines with
  | nil => rfl
  | cons write ports ih =>
    obtain ⟨port, byte⟩ := write
    rw [List.foldl_cons, ih]
    cases port
    all_goals rfl

end Writes

/-! ## The command of an access -/

/-- The registers for an address and a number of sectors. -/
def addressRegisters (encoded : Encoded) (numsects : BitVec 8) : List (Nat × BitVec 8) :=
  (if encoded.lbaMode = .lba48 then
    [(2, 0), (3, encoded.lbaIo 3), (4, encoded.lbaIo 4), (5, encoded.lbaIo 5)]
  else []) ++
    [(2, numsects), (3, encoded.lbaIo 0), (4, encoded.lbaIo 1), (5, encoded.lbaIo 2)]

/-- The address of a sector can be given to the drive. -/
def Addressable (capabilities : BitVec 16) (lba : BitVec 32) : Prop :=
  0x10000000 ≤ lba.toNat ∨ capabilities &&& 0x200 ≠ 0 ∨ lba.toNat < 65536 * 16 * 63

section Access

variable {file : TaskFile} {direction : Direction} {slavebit : Fin 2} {capabilities : BitVec 16}
  {lba : BitVec 32} {numsects : BitVec 8} {encoded : Encoded}

/-- What the drive sees of the registers of an access. -/
theorem registers_tasks : ((Bus.registers direction slavebit capabilities lba numsects).flatMap
      fun register => taskWrites (outReg register.1 register.2)) =
    (6, deviceOf slavebit (encodeAddress capabilities lba)) ::
        addressRegisters (encodeAddress capabilities lba) numsects ++
      [(7, cmdOf (encodeAddress capabilities lba).lbaMode direction)] := by
  unfold Bus.registers addressRegisters
  generalize encodeAddress capabilities lba = encoded
  by_cases extended : encoded.lbaMode = .lba48
  · simp [extended, taskWrites_outReg, ataRegHddevsel, ataRegSeccount1, ataRegLba3, ataRegLba4,
      ataRegLba5, ataRegSeccount0, ataRegLba0, ataRegLba1, ataRegLba2, ataRegCommand]
  · simp [extended, taskWrites_outReg, ataRegHddevsel, ataRegSeccount0, ataRegLba0, ataRegLba1,
      ataRegLba2, ataRegCommand]

/-- The registers for an address neither select nor command. -/
theorem addressRegisters_apart : ∀ write ∈ addressRegisters encoded numsects,
    write.1 ≠ 6 ∧ write.1 ≠ 7 := by
  unfold addressRegisters
  split_ifs
  all_goals simp

/-- An address that can be given is decoded. -/
theorem address_written (addressable : Addressable capabilities lba) :
    (written file ((6, deviceOf slavebit (encodeAddress capabilities lba)) ::
        addressRegisters (encodeAddress capabilities lba) numsects)).address
      (TaskFile.isExtended (cmdOf (encodeAddress capabilities lba).lbaMode direction)) =
        some lba.toNat := by
  have seen : seen direction slavebit capabilities lba numsects file =
      [(cmdOf (encodeAddress capabilities lba).lbaMode direction, some lba.toNat)] := by
    by_cases large : 0x10000000 ≤ lba
    · exact seen_lba48 large
    · have small : lba.toNat < 2 ^ 28 := BitVec.lt_def.mp (BitVec.not_le.mp large)
      by_cases capable : capabilities &&& 0x200 ≠ 0
      · exact seen_lba28 small capable
      · have split := TaskFile.chs_split lba.toNat
        unfold TaskFile.heads TaskFile.sectors at split
        have fits : lba.toNat < 65536 * 16 * 63 := by
          rcases addressable with high | flag | fits
          · omega
          · exact absurd flag capable
          · exact fits
        rw [seen_geometry small capable, Nat.mod_eq_of_lt (by omega), split]
  have same : taskWrites (ideAccessWrites direction slavebit capabilities lba numsects) =
      ((6, deviceOf slavebit (encodeAddress capabilities lba)) ::
        addressRegisters (encodeAddress capabilities lba) numsects) ++
      [(7, cmdOf (encodeAddress capabilities lba).lbaMode direction)] := by
    rw [taskWrites_ideAccess]
    unfold addressRegisters
    simp
  rw [Ide.seen, same, commands_last (by
    intro write member
    rcases List.mem_cons.mp member with rfl | member
    · simp
    · exact (addressRegisters_apart write member).2)] at seen
  exact (Prod.mk.inj (List.cons.inj seen).1).2

/-- The commands for 48 bits are those of an address that takes them. -/
theorem isExtended_cmdOf {mode : LbaMode} :
    TaskFile.isExtended (cmdOf mode direction) = decide (mode = .lba48) := by
  cases mode
  all_goals cases direction
  all_goals rfl

/-- The device counts the sectors that were asked for. -/
theorem count_written {device : AtaDevice} (some : numsects ≠ 0) :
    (refile ((6, deviceOf slavebit encoded) :: addressRegisters encoded numsects) device).count
      (TaskFile.isExtended (cmdOf encoded.lbaMode direction)) = numsects.toNat := by
  have positive : numsects.toNat ≠ 0 := fun zero => some (BitVec.eq_of_toNat_eq zero)
  rw [isExtended_cmdOf]
  unfold AtaDevice.count refile written addressRegisters
  by_cases extended : encoded.lbaMode = .lba48
  · simp [extended, positive]
  · simp [extended, positive]

/-- The head of an address takes four bits. -/
theorem head_small : ∃ head < 16, (encodeAddress capabilities lba).head = .ofNat 8 head := by
  by_cases large : lba ≥ 0x10000000
  · exact ⟨0, by decide, congrArg Encoded.head (if_pos large)⟩
  · have small : lba.toNat < 2 ^ 28 := BitVec.lt_def.mp (BitVec.not_le.mp large)
    by_cases capable : capabilities &&& 0x200 ≠ 0
    · refine ⟨lba.toNat / 2 ^ 24, by omega, ?_⟩
      rw [encodeAddress, if_neg large, if_pos capable]
      exact masked_head small
    · refine ⟨lba.toNat % (16 * 63) / 63, by omega, ?_⟩
      rw [encodeAddress, if_neg large, if_neg capable]
      exact headOf_eq small

/-- The device register selects the drive. -/
theorem deviceOf_selects :
    (if (deviceOf slavebit (encodeAddress capabilities lba)).getLsbD 4 then 1 else 0) =
      slavebit := by
  have all : ∀ select ∈ [(0xA0 : BitVec 8), 0xE0], ∀ slavebit : Fin 2, ∀ head < 16,
      (if (select ||| (BitVec.ofNat 8 slavebit <<< 4) ||| BitVec.ofNat 8 head).getLsbD 4
        then 1 else 0) = slavebit := by
    decide
  obtain ⟨head, small, is⟩ := @head_small capabilities lba
  unfold deviceOf
  by_cases mode : (encodeAddress capabilities lba).lbaMode = .chs
  · rw [is, if_pos mode]
    exact all 0xA0 (by decide) slavebit head small
  · rw [is, if_neg mode]
    exact all 0xE0 (by decide) slavebit head small

end Access

/-! ## The contents of the drives -/

namespace Bus

/-- What the devices are made of and what their sectors hold, by channel and place. -/
def contents (bus : Bus) (place : Fin 2 × Fin 2) : Option (Medium × (Nat → Nat → BitVec 8)) :=
  ((bus.channel place.1).device place.2).map fun device => (device.medium, device.sectors)

/-- What an access leaves as it was: all devices take registers again, and the driver keeps what it
knows about them. -/
structure Keeps (before after : Bus) : Prop where
  /-- The devices take registers. -/
  free : (∀ channel, Free (before.channel channel)) → ∀ channel, Free (after.channel channel)
  /-- What is read where there is no device. -/
  absent : ∀ channel, (after.channel channel).absent = (before.channel channel).absent
  /-- The drives. -/
  ideDev : after.ideDev = before.ideDev
  /-- The result of the last transfer. -/
  package : after.package = before.package

section Access

variable {bus after : Bus} {channel place : Fin 2} {lines : Channel} {device last : AtaDevice}
  {drive : Fin 4} {direction : Direction} {lba : BitVec 32} {numsects result : BitVec 8} {edi : Nat}
  {memory : Nat → BitVec 8} {writes : List (Nat × BitVec 8)}

/-- Other channels stay. -/
theorem wire_wire {more : Channel} : (bus.wire channel lines).wire channel more =
    bus.wire channel more := by
  simp [wire]

/-- A channel in its own place. -/
theorem wire_self : bus.wire channel (bus.channel channel) = bus :=
  congrArg (fun lines => { bus with channel := lines }) (Function.update_eq_self ..)

/-- A register is written. -/
theorem ideWrite_ok (channel : Fin 2) (reg : Nat) (data : BitVec 8) (bus : Bus) :
    ideWrite channel reg data bus = .ok () (bus.wire channel
      (outAll (bus.channel channel) (taskWrites (outReg reg data)))) := by
  rw [ideWrite, ← taskWrites_ideWrite (bus.nIEN channel), ← foldl_outPort]
  rfl

/-- The control register does not reach the devices. -/
theorem ideWrite_control (data : BitVec 8) :
    ideWrite channel ataRegControl data bus = .ok () bus := by
  rw [ideWrite_ok, taskWrites_outReg, if_neg (by decide), if_neg (by decide)]
  exact congrArg (EStateM.Result.ok ()) wire_self

/-- Registers are written one behind the other. -/
theorem forM_ideWrite (writes : List (Nat × BitVec 8)) :
    (writes.forM fun register => ideWrite channel register.1 register.2) bus =
      .ok () (bus.wire channel (outAll (bus.channel channel)
        (writes.flatMap fun register => taskWrites (outReg register.1 register.2)))) := by
  induction writes generalizing bus with
  | nil => simp [outAll, wire, pure, EStateM.pure]
  | cons write writes ih =>
    refine (bind_of_ok (ideWrite_ok channel write.1 write.2 bus)).trans ?_
    rw [ih, wire_wire, List.flatMap_cons, outAll_append]
    simp [wire]

/-- The bus once a drive is selected and its channel has taken some registers. -/
def chosen (bus : Bus) (dev : Entry) (writes : List (Nat × BitVec 8)) : Bus :=
  bus.wire dev.channel { filed (bus.channel dev.channel) writes with selected := dev.drive }

/-- The bus once the driver polls a channel. -/
def polling (bus : Bus) (channel : Fin 2) : Bus :=
  { bus with nIEN := Function.update bus.nIEN channel 0x02 }

/-- Another device in the place of the one that is selected. -/
theorem chosen_put {dev : Entry} : (bus.chosen dev writes).put dev.channel device =
    bus.wire dev.channel (Channel.put
      { filed (bus.channel dev.channel) writes with selected := dev.drive } dev.drive device) := by
  simp [put, chosen, wire]

/-- The device of a drive is selected with its registers. -/
theorem chosen_selected {dev : Entry}
    (there : (bus.channel dev.channel).device dev.drive = some device) :
    (bus.chosen dev writes).Selected dev.channel (refile writes device) := by
  simp [Selected, chosen, wire, filed, there]

/-- The channel after a drive was selected, took some registers and got a command. -/
theorem outAll_command {select byte : BitVec 8} (free : Free lines)
    (there : lines.device place = some device)
    (selects : (if select.getLsbD 4 then 1 else 0) = place)
    (apart : ∀ write ∈ writes, write.1 ≠ 6 ∧ write.1 ≠ 7) :
    outAll lines ((6, select) :: writes ++ [(7, byte)]) =
      Channel.put { filed lines ((6, select) :: writes) with selected := place } place
        ((refile ((6, select) :: writes) device).command byte) := by
  have selecting : outAll lines ((6, select) :: writes) =
      { filed lines ([(6, select)] ++ writes) with selected := place } := by
    rw [outAll, List.foldl_cons, ← outAll, out_select free, selects, outAll_registers
      (show Free { filed lines [(6, select)] with selected := place } from free.filed) apart,
      ← filed_filed]
    rfl
  have found : ({ filed lines ([(6, select)] ++ writes) with selected := place } :
      Channel).device place = some (refile ((6, select) :: writes) device) := by
    simp only [filed, there, Option.map_some]
    rfl
  rw [outAll_append, selecting]
  exact out_command (show Free { filed lines _ with selected := place } from free.filed) found

/-- What the devices hold after a transfer. -/
theorem contents_chosen {dev : Entry} :
    (((bus.chosen dev writes).put dev.channel last).fill memory).contents =
      Function.update bus.contents (dev.channel, dev.drive) (some (last.medium, last.sectors)) := by
  funext ⟨channel, place⟩
  rw [chosen_put]
  by_cases same : channel = dev.channel
  · subst same
    by_cases here : place = dev.drive
    · subst here
      simp [contents, fill, wire, Channel.put]
    · have other : (dev.channel, place) ≠ (dev.channel, dev.drive) := fun equal =>
        here (Prod.mk.inj equal).2
      rw [Function.update_of_ne other]
      simp only [contents, fill, wire, Function.update_self, Channel.put,
        Function.update_of_ne here, filed, Option.map_map]
      rfl
  · have other : (channel, place) ≠ (dev.channel, dev.drive) :=
      fun equal => same (Prod.mk.inj equal).1
    rw [Function.update_of_ne other]
    simp [contents, fill, wire, Function.update_of_ne same]

/-- What else a transfer leaves. -/
theorem keeps_chosen {dev : Entry} (ready : last.engaged = false) : Keeps bus
    (((bus.chosen dev writes).put dev.channel last).fill memory) := by
  rw [chosen_put]
  refine ⟨fun free channel => ?_, fun channel => ?_, rfl, rfl⟩
  · by_cases same : channel = dev.channel
    · subst same
      simp only [fill, wire, Function.update_self]
      exact (Free.select (free _).filed).put ready
    · simp only [fill, wire, Function.update_of_ne same]
      exact free channel
  · by_cases same : channel = dev.channel
    · subst same
      simp only [fill, wire, Function.update_self]
      rfl
    · simp only [fill, wire, Function.update_of_ne same]

/-- The registers that `IDEAccess` gives to the device of a drive. -/
def accessRegisters (dev : Entry) (lba : BitVec 32) (numsects : BitVec 8) :
    List (Nat × BitVec 8) :=
  let encoded := encodeAddress dev.capabilities lba
  (6, deviceOf dev.drive encoded) :: addressRegisters encoded numsects

/-- The transfer of `IDEAccess`, behind its command. -/
def transfer (fuel : Nat) (dev : Entry) (lba : BitVec 32) (numsects : BitVec 8) (edi : Nat) :
    Direction → Kernel Bus (BitVec 8)
  | .ataRead => readRounds fuel dev.channel 256 (pure ()) numsects.toNat edi
  | .ataWrite => do
    writeRounds fuel dev.channel numsects.toNat edi
    ideWrite dev.channel ataRegCommand (flushOf (encodeAddress dev.capabilities lba).lbaMode)
    let _ ← idePolling fuel dev.channel false
    pure 0

/-- A drive that `IDEAccess` can be called for: all devices of its channel take registers, one is
selected, and its own is there and takes no packets. -/
structure Ready (bus : Bus) (drive : Fin 4) (device : AtaDevice) : Prop where
  /-- The devices take registers. -/
  free : Free (bus.channel (bus.ideDev drive).channel)
  /-- One is selected. -/
  selected : ∃ other, bus.Selected (bus.ideDev drive).channel other
  /-- The device is there. -/
  there : (bus.channel (bus.ideDev drive).channel).device (bus.ideDev drive).drive = some device
  /-- It takes no packets. -/
  ata : device.medium.atapi = false

/-- The device gets one command, with the registers for it. -/
theorem ideAccess_settles (ready : Ready bus drive device)
    (rest : Settles (fun fuel => transfer fuel (bus.ideDev drive) lba numsects edi direction)
      (((bus.polling (bus.ideDev drive).channel).chosen (bus.ideDev drive)
          (accessRegisters (bus.ideDev drive) lba numsects)).put (bus.ideDev drive).channel
        ((refile (accessRegisters (bus.ideDev drive) lba numsects) device).command
          (cmdOf (encodeAddress (bus.ideDev drive).capabilities lba).lbaMode direction)))
      result after) :
    Settles (fun fuel => ideAccess fuel direction drive lba numsects edi) bus result after := by
  obtain ⟨other, selected⟩ := ready.selected
  let channel := (bus.ideDev drive).channel
  have unengaged := ready.free _ other selected
  have notBusy : other.busy = 0 := by
    unfold AtaDevice.engaged at unengaged
    simp only [Bool.or_eq_false_iff, decide_eq_false_iff_not] at unengaged
    omega
  have wait := @ideWaitNotBusy_settles (bus.polling channel) channel other selected
  rw [calm_of_zero notBusy,
    Selected.put_self (show (bus.polling channel).Selected channel other from selected)] at wait
  refine .bind_get (.bind_modify (.bind (.of_ok fun _ => ideWrite_control 0x02) (.bind wait
    (.bind (.of_ok fun _ => forM_ideWrite _) ?_))))
  have lines : (bus.polling channel).channel channel = bus.channel channel := rfl
  rw [registers_tasks, lines, outAll_command ready.free ready.there deviceOf_selects
    addressRegisters_apart]
  rw [chosen_put] at rest
  cases direction
  all_goals exact rest

/-- The device of a drive is what it was made of, with its sectors. -/
theorem Ready.contents (ready : Ready bus drive device) :
    bus.contents ((bus.ideDev drive).channel, (bus.ideDev drive).drive) =
      some (device.medium, device.sectors) := by
  simp [Bus.contents, ready.there]

end Access

/-! ## Caches -/

section Flush

variable {bus : Bus} {channel : Fin 2} {device : AtaDevice} {mode : LbaMode}

/-- A device that waits for a command, but is busy yet, takes none. -/
theorem ideWrite_busy (busy : 0 < device.busy) (data : BitVec 8) :
    ideWrite channel ataRegCommand data (bus.put channel device) =
      .ok () (bus.put channel device) := by
  have there := @selected_put bus channel device
  have engaged : ((bus.put channel device).channel channel).engaged = true := by
    unfold Selected at there
    simp [Channel.engaged, there, AtaDevice.engaged, busy]
  have out : ((bus.put channel device).channel channel).out 7 data =
      (bus.put channel device).channel channel := if_pos engaged
  rw [ideWrite_ok, taskWrites_outReg, if_pos (by decide)]
  simp only [outAll, List.foldl_cons, List.foldl_nil]
  rw [show ataRegCommand = 7 from rfl, out]
  exact congrArg (EStateM.Result.ok ()) wire_self

/-- A device that takes registers takes the command. -/
theorem ideWrite_command (ready : device.engaged = false) (data : BitVec 8) :
    ideWrite channel ataRegCommand data (bus.put channel device) =
      .ok () (bus.put channel (device.command data)) := by
  have there := @selected_put bus channel device
  have engaged : ((bus.put channel device).channel channel).engaged = false := by
    unfold Selected at there
    simp [Channel.engaged, there, ready]
  have out : ((bus.put channel device).channel channel).out 7 data =
      ((bus.put channel device).channel channel).put
        ((bus.put channel device).channel channel).selected (device.command data) := by
    unfold Selected at there
    rw [Channel.out, if_neg (by rw [engaged]; decide), if_pos rfl, there]
  rw [ideWrite_ok, taskWrites_outReg, if_pos (by decide)]
  simp only [outAll, List.foldl_cons, List.foldl_nil]
  rw [show ataRegCommand = 7 from rfl, out]
  exact congrArg (EStateM.Result.ok ()) put_put

/-- The command for the cache, and the wait for it, leave the device as it is. A device that is busy
with the last sector does not take the command, and the wait is for that sector. -/
theorem flush_settles (waits : Waits device) (ata : device.medium.atapi = false) :
    ∃ last, Rests device last ∧
      Settles (fun fuel => do
          ideWrite channel ataRegCommand (flushOf mode)
          let _ ← idePolling fuel channel false
          pure (0 : BitVec 8))
        (bus.put channel device) 0 (bus.put channel last) := by
  have calmed : ∀ device : AtaDevice, Waits device → (calm device).engaged = false := by
    intro device waits
    have phase : (calm device).phase = device.phase := rfl
    unfold AtaDevice.engaged
    rw [phase]
    rcases waits with idle | ⟨fault, failed⟩
    · rw [idle]
      rfl
    · rw [failed]
      rfl
  by_cases busy : 0 < device.busy
  · have polled := idePolling_settles (@selected_put bus channel device) false
    rw [put_put] at polled
    exact ⟨calm device, ⟨calmed device waits, rfl, rfl, rfl⟩,
      .bind (.of_ok fun _ => ideWrite_busy busy _) (.bind polled .returns)⟩
  · have ready : device.engaged = false := by
      rw [← calm_of_zero (by omega : device.busy = 0)]
      exact calmed device waits
    have command : device.command (flushOf mode) = device.enter .idle := by
      rw [AtaDevice.command, if_neg (by rw [ata]; decide), AtaDevice.ataCommand]
      cases mode
      all_goals rfl
    have polled := idePolling_settles (@selected_put bus channel (device.enter .idle)) false
    rw [put_put] at polled
    refine ⟨calm (device.enter .idle), ⟨calmed _ (.inl rfl), rfl, rfl, rfl⟩,
      .bind (.of_ok fun _ => ideWrite_command ready _) ?_⟩
    rw [command]
    exact .bind polled .returns

end Flush

/-! ## Reads and writes -/

section Access

variable {bus : Bus} {drive : Fin 4} {device : AtaDevice} {lba : BitVec 32} {numsects : BitVec 8}
  {edi esi : Nat}

/-- What is left of the bus and of the device of a drive after an access. -/
structure Accessed (bus : Bus) (drive : Fin 4) (last : AtaDevice) (after : Bus) : Prop where
  /-- The device is selected. -/
  selected : after.Selected (bus.ideDev drive).channel last
  /-- It holds what it holds, and the others what they held. -/
  contents : after.contents = Function.update bus.contents
    ((bus.ideDev drive).channel, (bus.ideDev drive).drive) (some (last.medium, last.sectors))
  /-- The rest is as it was. -/
  keeps : Keeps bus after

/-- A bus with the device of a drive that was selected. -/
theorem accessed_put {last : AtaDevice} {writes : List (Nat × BitVec 8)} {memory : Nat → BitVec 8}
    (ready : last.engaged = false) :
    Accessed bus drive last ((((bus.polling (bus.ideDev drive).channel).chosen (bus.ideDev drive)
      writes).put (bus.ideDev drive).channel last).fill memory) :=
  have keeps := @keeps_chosen (bus.polling (bus.ideDev drive).channel) last memory writes
    (bus.ideDev drive) ready
  ⟨selected_put.fill, contents_chosen, ⟨keeps.free, keeps.absent, keeps.ideDev, keeps.package⟩⟩

/-- `IDEAccess` reads the sectors in front of the first fault, which the device reports. -/
theorem Ready.reads (ready : Ready bus drive device) (some : numsects ≠ 0)
    (addressable : Addressable (bus.ideDev drive).capabilities lba) (edi : Nat) :
    ∃ last after, Settles (fun fuel => ideAccess fuel .ataRead drive lba numsects edi) bus
        (resultCode (firstFault device.medium.readFault lba.toNat numsects.toNat)) after ∧
      after.memory = overwrite bus.memory edi
        (512 * soundCount device.medium.readFault lba.toNat numsects.toNat)
        (sectorBytes 512 device.sectors lba.toNat) ∧
      Accessed bus drive last after ∧ last.medium = device.medium ∧
      last.sectors = device.sectors ∧
      ∀ fault, firstFault device.medium.readFault lba.toNat numsects.toNat = .some fault →
        last.phase = .failed fault := by
  let given := refile (accessRegisters (bus.ideDev drive) lba numsects) device
  let choosing := (bus.polling (bus.ideDev drive).channel).chosen (bus.ideDev drive)
    (accessRegisters (bus.ideDev drive) lba numsects)
  let mode := (encodeAddress (bus.ideDev drive).capabilities lba).lbaMode
  have count : given.count (TaskFile.isExtended (cmdOf mode .ataRead)) = numsects.toNat :=
    count_written some
  have address : given.file.address (TaskFile.isExtended (cmdOf mode .ataRead)) =
      .some lba.toNat := address_written addressable
  have opcode : cmdOf mode .ataRead = 0x20 ∨ cmdOf mode .ataRead = 0x24 := by
    cases mode
    all_goals decide
  have ata : given.medium.atapi = false := ready.ata
  have command : given.command (cmdOf mode .ataRead) =
      given.send (given.blocks 256 lba.toNat numsects.toNat) := by
    rw [AtaDevice.command, if_neg (by rw [ata]; decide), AtaDevice.ataCommand]
    simp only [if_pos opcode, address, count]
  obtain ⟨last, rests, failed, settles⟩ := @readRounds_settles choosing
    (bus.ideDev drive).channel given _ 256 edi _
    (fun _ device => ⟨device.busy, Nat.le_refl _, rfl⟩) (by decide) blocks_whole
  rw [blocks_length, readBlocks_sectors (by decide)] at settles
  rw [readBlocks_sectors (by decide)] at failed
  exact ⟨last, _, ideAccess_settles ready (command ▸ settles), rfl, accessed_put rests.free,
    rests.medium, rests.sectors, failed⟩

/-- `IDEAccess` stores the sectors in front of the first fault. -/
theorem Ready.stores (ready : Ready bus drive device) (some : numsects ≠ 0)
    (addressable : Addressable (bus.ideDev drive).capabilities lba) (esi : Nat) :
    ∃ last after, Settles (fun fuel => ideAccess fuel .ataWrite drive lba numsects esi) bus 0
        after ∧ after.memory = bus.memory ∧ Accessed bus drive last after ∧
      last.medium = device.medium ∧ last.sectors = storeSectors device.sectors lba.toNat
        (soundCount device.medium.writeFault lba.toNat numsects.toNat) (slice bus.memory esi) := by
  let given := refile (accessRegisters (bus.ideDev drive) lba numsects) device
  let choosing := (bus.polling (bus.ideDev drive).channel).chosen (bus.ideDev drive)
    (accessRegisters (bus.ideDev drive) lba numsects)
  let mode := (encodeAddress (bus.ideDev drive).capabilities lba).lbaMode
  obtain ⟨rounds, number⟩ : ∃ rounds, numsects.toNat = rounds + 1 :=
    Nat.exists_eq_succ_of_ne_zero fun zero => some (BitVec.eq_of_toNat_eq zero)
  have count : given.count (TaskFile.isExtended (cmdOf mode .ataWrite)) = numsects.toNat :=
    count_written some
  have address : given.file.address (TaskFile.isExtended (cmdOf mode .ataWrite)) =
      .some lba.toNat := address_written addressable
  have opcode : ¬ (cmdOf mode .ataWrite = 0x20 ∨ cmdOf mode .ataWrite = 0x24) ∧
      (cmdOf mode .ataWrite = 0x30 ∨ cmdOf mode .ataWrite = 0x34) := by
    cases mode
    all_goals decide
  have ata : given.medium.atapi = false := ready.ata
  have command : given.command (cmdOf mode .ataWrite) =
      given.enter (.receiving (.sector lba.toNat (rounds + 1)) []) := by
    rw [AtaDevice.command, if_neg (by rw [ata]; decide), AtaDevice.ataCommand]
    simp only [if_neg opcode.1, if_pos opcode.2, address, count, number]
  obtain ⟨last, stored, settles⟩ := @writeRounds_settles choosing
    (bus.ideDev drive).channel (given.enter (.receiving (.sector lba.toNat (rounds + 1)) []))
    lba.toNat rounds esi rfl
  obtain ⟨final, rests, flushed⟩ := @flush_settles choosing
    (bus.ideDev drive).channel last mode stored.waits (stored.medium ▸ ata)
  have moved : Settles (fun fuel => transfer fuel (bus.ideDev drive) lba numsects esi .ataWrite)
      (choosing.put (bus.ideDev drive).channel
        (given.command (cmdOf mode .ataWrite))) 0
      (choosing.put (bus.ideDev drive).channel final) := by
    unfold transfer
    rw [command, number]
    exact .bind settles flushed
  refine ⟨final, _, ideAccess_settles ready moved, rfl,
    @accessed_put bus drive final _ bus.memory rests.free,
    rests.medium.trans stored.medium, ?_⟩
  rw [rests.sectors, stored.sectors, number]
  rfl

end Access

/-- A device whose sectors hold their numbers: it is busy for two reads of its status each time.
When it is faulty, its sector 6 cannot be read, and its sector 8 cannot be written. -/
def sampleDevice (atapi faulty : Bool) : AtaDevice where
  medium :=
    { atapi, identity := []
      readFault := fun lba => if faulty ∧ lba = 6 then some (.error 0x40) else none
      writeFault := fun lba => if faulty ∧ lba = 8 then some .broken else none
      waits := fun _ => 2 }
  file := ⟨fun _ => 0, fun _ => 0⟩
  busy := 0
  turn := 0
  phase := .idle
  sectors := fun lba _ => .ofNat 8 lba

/-- A disk at the first place of the first channel, a disc at the second place of the other one. -/
def sampleBus (faulty : Bool) : Bus where
  channel := fun channel =>
    { device := fun place =>
        if place = channel then
          some (if channel = 1 then sampleDevice true false else sampleDevice false faulty)
        else none
      selected := 0, absent := 0xFF }
  nIEN := fun _ => 0
  ideDev := fun drive =>
    { reserved := if drive ≤ 1 then 1 else 0
      type := if drive = 1 then ideAtapi else ideAta
      size := 100
      channel := if drive = 1 then 1 else 0
      drive := if drive = 1 then 1 else 0
      signature := 0, capabilities := 0x200, commandSets := 0, model := fun _ => 0 }
  package := 0
  memory := fun _ => 0xAA

/-- A device that is not faulty has no faults. -/
theorem sampleDevice_sound (atapi : Bool) (lba : Nat) :
    (sampleDevice atapi false).medium.readFault lba = none ∧
      (sampleDevice atapi false).medium.writeFault lba = none := by
  simp [sampleDevice]

/-- The devices take registers. -/
theorem sampleBus_free (faulty : Bool) (channel : Fin 2) :
    Free ((sampleBus faulty).channel channel) := by
  intro place device there
  have is : (if place = channel then
      some (if channel = 1 then sampleDevice true false else sampleDevice false faulty)
    else none) = some device := there
  split_ifs at is
  all_goals
    cases is
    rfl

/-- The disk can be accessed. -/
theorem sampleBus_ready (faulty : Bool) : Ready (sampleBus faulty) 0 (sampleDevice false faulty) :=
  ⟨sampleBus_free faulty 0, ⟨sampleDevice false faulty, rfl⟩, rfl, rfl⟩

end Bus

end Unarddeg.Ide
