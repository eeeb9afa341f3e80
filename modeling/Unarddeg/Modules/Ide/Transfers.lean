import Unarddeg.Modules.Ide.Ports

/-!
# Transfers over the ports

What `IDEAccess` does with a device behind its ports, for any number of sectors, however long the
device is busy, and with whatever faults: it reads or stores the sectors in front of the first
fault (`access_reads`, `access_stores`).
-/

namespace Unarddeg.Ide

open Library

/-! ## Devices -/

/-- A device that is not busy any more. -/
def calm (device : AtaDevice) : AtaDevice := { device with busy := 0 }

/-- The result of `IDEPolling` after a fault. -/
def faultCode : Fault → BitVec 8
  | .error _ => 2
  | .broken => 1
  | .nothing => 3

section Devices

variable {device : AtaDevice} {phase : Phase} {fault : Fault} {block : List (BitVec 16)}
  {next : List Block}

/-- A device that is not busy stays so. -/
theorem calm_of_zero (free : device.busy = 0) : calm device = device := by
  cases device
  subst free
  rfl

/-- Reading the status of a device that is not busy changes nothing. -/
@[simp] theorem polled_calm : (calm device).polled = calm device := rfl

/-- It is as calm after a read of its status. -/
@[simp] theorem calm_polled : calm device.polled = calm device := rfl

/-- A busy device shows it. -/
theorem status_busy (busy : 0 < device.busy) : device.status &&& ataSrBsy ≠ 0 := by
  unfold AtaDevice.status ataSrBsy
  rw [if_pos busy]
  decide

/-- A device that is not busy does not. -/
theorem status_free (free : device.busy = 0) : device.status &&& ataSrBsy = 0 := by
  unfold AtaDevice.status ataSrBsy
  rw [if_neg (by omega)]
  split
  all_goals decide

/-- A device that reports a fault. -/
theorem checked_failed (failed : device.phase = .failed fault) :
    Bus.checked (calm device).status = faultCode fault := by
  have phase : (calm device).phase = .failed fault := failed
  unfold AtaDevice.status
  rw [if_neg (by simp [calm]), phase]
  cases fault with
  | error => exact (by decide : Bus.checked 0x51 = 2)
  | broken => exact (by decide : Bus.checked 0x70 = 1)
  | nothing => exact (by decide : Bus.checked 0x50 = 3)

/-- A device with a block to send. -/
theorem checked_sending (sending : device.phase = .sending block next) :
    Bus.checked (calm device).status = 0 := by
  have phase : (calm device).phase = .sending block next := sending
  unfold AtaDevice.status
  rw [if_neg (by simp [calm]), phase]
  exact (by decide : Bus.checked 0x58 = 0)

end Devices

/-! ## One register -/

namespace Bus

/-- The selected device of a channel. -/
def Selected (bus : Bus) (channel : Fin 2) (device : AtaDevice) : Prop :=
  (bus.channel channel).device (bus.channel channel).selected = some device

/-- The bus with another device in the place of the selected one. -/
def put (bus : Bus) (channel : Fin 2) (device : AtaDevice) : Bus :=
  bus.wire channel ((bus.channel channel).put (bus.channel channel).selected device)

section Registers

variable {bus : Bus} {channel : Fin 2} {device other : AtaDevice} {bytes : Nat → BitVec 8}

/-- The device that was put there is selected. -/
theorem selected_put : (bus.put channel device).Selected channel device := by
  simp [Selected, put, wire, Channel.put]

/-- The later device remains. -/
@[simp] theorem put_put : (bus.put channel device).put channel other = bus.put channel other := by
  simp [put, wire, Channel.put]

/-- The buffer has nothing to do with it. -/
@[simp] theorem fill_put : (bus.fill bytes).put channel device =
    (bus.put channel device).fill bytes := rfl

/-- The later buffer remains. -/
@[simp] theorem fill_fill {other : Nat → BitVec 8} :
    (bus.fill bytes).fill other = bus.fill other := rfl

/-- The buffer that the bus was filled with. -/
@[simp] theorem memory_fill : (bus.fill bytes).memory = bytes := rfl

/-- A device makes no difference to the buffer. -/
@[simp] theorem memory_put : (bus.put channel device).memory = bus.memory := rfl

/-- The selected device is there already. -/
theorem Selected.put_self (selected : bus.Selected channel device) :
    bus.put channel device = bus := by
  unfold Selected at selected
  unfold put wire Channel.put
  have same : Function.update (bus.channel channel).device (bus.channel channel).selected
      (some device) = (bus.channel channel).device := by
    rw [← selected, Function.update_eq_self]
  rw [same]
  exact congrArg (fun lines => { bus with channel := lines }) (Function.update_eq_self ..)

/-- Another buffer keeps the selection. -/
theorem Selected.fill (selected : bus.Selected channel device) :
    (bus.fill bytes).Selected channel device := selected

/-- A register below the shared ones is read from the channel. -/
theorem ideRead_base {reg : Nat} (low : reg < 8) : ideRead channel reg bus =
    .ok ((bus.channel channel).read reg).1
      (bus.wire channel ((bus.channel channel).read reg).2) := by
  have apart : ¬ (reg > 0x07 ∧ reg < 0x0C) := by omega
  simp [ideRead, onlyIf, apart, inReg, portOf, low, inPort, bind, EStateM.bind, get, getThe,
    MonadStateOf.get, EStateM.get, pure, EStateM.pure, MonadStateOf.set, EStateM.set]

/-- The status register is read. -/
theorem ideRead_status (selected : bus.Selected channel device) :
    ideRead channel ataRegStatus bus = .ok device.status (bus.put channel device.polled) := by
  have read : (bus.channel channel).read 7 = (device.status,
      (bus.channel channel).put (bus.channel channel).selected device.polled) := by
    unfold Selected at selected
    simp [Channel.read, selected]
  rw [ataRegStatus, ideRead_base (by decide), read]
  rfl

/-- The error register is read. -/
theorem ideRead_error (selected : bus.Selected channel device) :
    ideRead channel ataRegError bus = .ok device.error bus := by
  have read : (bus.channel channel).read 1 = (device.error, bus.channel channel) := by
    unfold Selected at selected
    simp [Channel.read, selected]
  rw [ataRegError, ideRead_base (by decide), read]
  simp [wire]

/-- Reading the other status register changes nothing. -/
theorem ideRead_altstatus : ∃ value, ideRead channel ataRegAltstatus bus = .ok value bus := by
  refine ⟨((bus.channel channel).read 7).1, ?_⟩
  simp [ideRead, onlyIf, inReg, portOf, ataRegAltstatus, inPort, bind, EStateM.bind, get, getThe,
    MonadStateOf.get, EStateM.get, pure, EStateM.pure, MonadStateOf.set, EStateM.set, wire]

/-- The driver waits until the device is not busy. -/
theorem ideWaitNotBusy_settles (selected : bus.Selected channel device) :
    Settles (ideWaitNotBusy channel) bus () (bus.put channel (calm device)) := by
  refine ⟨device.busy + 1, fun fuel large => ?_⟩
  -- By induction on the fuel: each read of the status takes one from the count of the device.
  induction fuel generalizing bus device with
  | zero => omega
  | succ fuel ih =>
    rw [ideWaitNotBusy, bind_of_ok (ideRead_status selected)]
    by_cases busy : 0 < device.busy
    · rw [if_pos (status_busy busy), ih selected_put (by
        show device.busy - 1 + 1 ≤ fuel
        omega), put_put, calm_polled]
    · have free : device.busy = 0 := by omega
      have same : calm device = device := calm_of_zero free
      have polled : device.polled = device := by rw [← same, polled_calm]
      rw [if_neg (not_not.mpr (status_free free)), polled, same]
      rfl

/-- `IDEPolling` waits for the device. -/
theorem idePolling_settles (selected : bus.Selected channel device) (advancedCheck : Bool) :
    Settles (fun fuel => idePolling fuel channel advancedCheck) bus
      (if advancedCheck then checked (calm device).status else 0)
      (bus.put channel (calm device)) := by
  obtain ⟨value, alternate⟩ := @ideRead_altstatus bus channel
  refine .bind (.of_ok fun _ => alternate) (.bind (.of_ok fun _ => alternate)
    (.bind (.of_ok fun _ => alternate) (.bind (.of_ok fun _ => alternate)
      (.bind (ideWaitNotBusy_settles selected) ?_))))
  cases advancedCheck with
  | false => exact .returns
  | true =>
    have read := @ideRead_status (bus.put channel (calm device)) channel _ selected_put
    rw [polled_calm, put_put] at read
    exact .bind (.of_ok fun _ => read) .returns

end Registers

end Bus

/-! ## Words -/

/-- What a device is made of, its registers and its sectors stay, and it takes registers again. -/
structure Rests (device last : AtaDevice) : Prop where
  /-- It takes registers. -/
  free : last.engaged = false
  /-- What it is made of. -/
  medium : last.medium = device.medium
  /-- Its registers. -/
  file : last.file = device.file
  /-- Its sectors. -/
  sectors : last.sectors = device.sectors

section Words

variable {device : AtaDevice} {phase : Phase} {word : BitVec 16} {words block : List (BitVec 16)}
  {next : List Block} {target : Target} {index count : Nat} {bytes : Nat → BitVec 8}

/-- The first word has the first two bytes. -/
theorem toBytes_head (small : index < 2) : toBytes (word :: words) index = byteAt word index := by
  have first : index / 2 = 0 := by omega
  have place : index % 2 = index := by omega
  simp [toBytes, first, place]

/-- Behind them are those of the other words. -/
theorem slice_toBytes : slice (toBytes (word :: words)) 2 = toBytes words := by
  funext index
  have shifted : (2 + index) / 2 = index / 2 + 1 := by omega
  have place : (2 + index) % 2 = index % 2 := by omega
  simp [slice, toBytes, shifted, place]

/-- The words of a store one by one. -/
theorem toWords_succ :
    toWords (count + 1) bytes = little 16 bytes :: toWords count (slice bytes 2) := by
  simp only [toWords, List.range_succ_eq_map, List.map_cons, List.map_map, Nat.mul_zero,
    slice_zero]
  congr 1
  refine List.map_congr_left fun place _ => ?_
  simp only [Function.comp_apply, slice_slice, Nat.succ_eq_add_one]
  congr 2
  omega

/-- What a device did before makes no difference to what it sends. -/
theorem send_phase : ({ device with phase } : AtaDevice).send next = device.send next := by
  rcases next with _ | ⟨_ | _, _⟩
  all_goals rfl

/-- Nor to what it does with what it has received. -/
theorem received_phase :
    ({ device with phase } : AtaDevice).received words target = device.received words target := by
  cases target with
  | packet =>
    unfold AtaDevice.received AtaDevice.packet
    dsimp only
    split_ifs
    · exact send_phase
    · rfl
  | sector lba remaining =>
    unfold AtaDevice.received
    dsimp only
    cases device.medium.writeFault lba
    all_goals rfl

end Words

namespace Bus

section Words

variable {bus : Bus} {channel : Fin 2} {device : AtaDevice} {block words : List (BitVec 16)}
  {next : List Block} {target : Target} {edi count : Nat} {source : Nat → BitVec 8}

/-- A word is read from the selected device. -/
theorem insw_succ (selected : bus.Selected channel device) : insw channel (count + 1) edi bus =
    insw channel count (edi + 2) ((bus.put channel device.readData.2).fill
      (overwrite bus.memory edi 2 (byteAt device.readData.1))) := by
  unfold Selected at selected
  simp only [insw, Channel.readData, selected]
  rfl

/-- A word is written to the selected device. -/
theorem outsw_succ (selected : bus.Selected channel device) :
    outsw channel (count + 1) source bus =
      outsw channel count (slice source 2)
        (bus.put channel (device.writeData (little 16 source))) := by
  unfold Selected at selected
  simp only [outsw, Channel.writeData, selected]
  rfl

/-- A block that a device sends arrives in the buffer, and the device goes on to the next one. -/
theorem insw_sending (some : block ≠ []) (selected : bus.Selected channel device)
    (free : device.busy = 0) (sending : device.phase = .sending block next) :
    insw channel block.length edi bus = (bus.put channel (device.send next)).fill
      (overwrite bus.memory edi (2 * block.length) (toBytes block)) := by
  induction block generalizing bus device edi with
  | nil => exact absurd rfl some
  | cons word block ih =>
    have notBusy : ¬ 0 < device.busy := by omega
    rw [List.length_cons, insw_succ selected]
    have first : overwrite bus.memory edi 2 (byteAt word) =
        overwrite bus.memory edi 2 (toBytes (word :: block)) :=
      overwrite_congr fun index small => (toBytes_head small).symm
    cases block with
    | nil =>
      have data : device.readData = (word, device.send next) := by
        rw [AtaDevice.readData, if_neg notBusy, sending]
      rw [data, first]
      rfl
    | cons second block =>
      let further : AtaDevice := { device with phase := .sending (second :: block) next }
      have data : device.readData = (word, further) := by
        rw [AtaDevice.readData, if_neg notBusy, sending]
      have rest := @ih ((bus.put channel further).fill (overwrite bus.memory edi 2 (byteAt word)))
        further (edi + 2) (by simp) selected_put.fill free rfl
      have joined := @overwrite_append bus.memory (toBytes (word :: second :: block)) edi 2
        (2 * (second :: block).length)
      rw [slice_toBytes] at joined
      rw [data, rest, send_phase, memory_fill, fill_put, put_put, fill_fill, first, joined]
      congr 2
      simp only [List.length_cons]
      omega

/-- A target that a device receives is complete with the last word. -/
theorem outsw_receiving (some : 0 < count) (selected : bus.Selected channel device)
    (free : device.busy = 0) (receiving : device.phase = .receiving target words)
    (whole : words.length + count = target.words) : outsw channel count source bus =
      bus.put channel (device.received (words ++ toWords count source) target) := by
  induction count generalizing bus device words source with
  | zero => omega
  | succ count ih =>
    have notBusy : ¬ 0 < device.busy := by omega
    rw [outsw_succ selected, toWords_succ]
    by_cases last : count = 0
    · subst last
      have data : device.writeData (little 16 source) =
          device.received (words ++ [little 16 source]) target := by
        rw [AtaDevice.writeData, if_neg notBusy, receiving]
        exact if_pos whole
      rw [data]
      rfl
    · let longer := words ++ [little 16 source]
      let further : AtaDevice := { device with phase := .receiving target longer }
      have data : device.writeData (little 16 source) = further := by
        rw [AtaDevice.writeData, if_neg notBusy, receiving]
        exact if_neg (by omega)
      have length : longer.length + count = target.words := by
        simp only [longer, List.length_append, List.length_singleton]
        omega
      have rest := @ih (bus.put channel further) further longer (slice source 2) (by omega)
        selected_put free rfl length
      rw [data, rest, received_phase, put_put, List.append_assoc, List.singleton_append]

/-- A device that does not receive takes no words. -/
theorem outsw_deaf (selected : bus.Selected channel device)
    (deaf : ∀ word, device.writeData word = device) : outsw channel count source bus = bus := by
  induction count generalizing source with
  | zero => rfl
  | succ count ih => rw [outsw_succ selected, deaf, selected.put_self, ih]

end Words

end Bus

/-! ## Rounds -/

/-- The result of `IDEAccess` for what went wrong. -/
def resultCode : Option Fault → BitVec 8
  | none => 0
  | some fault => faultCode fault

/-- What goes wrong when some blocks are read one behind the other, and the buffer. -/
def readBlocks : List Block → Nat → (Nat → BitVec 8) → Option Fault × (Nat → BitVec 8)
  | [], _, memory => (none, memory)
  | .error fault :: _, _, memory => (some fault, memory)
  | .ok words :: next, edi, memory =>
    readBlocks next (edi + 2 * words.length)
      (overwrite memory edi (2 * words.length) (toBytes words))

/-- How many sectors lie in front of the first one with a fault. -/
def soundCount (fault : Nat → Option Fault) : (lba count : Nat) → Nat
  | _, 0 => 0
  | lba, count + 1 =>
    match fault lba with
    | none => soundCount fault (lba + 1) count + 1
    | some _ => 0

/-- The first fault of a transfer. -/
def firstFault (fault : Nat → Option Fault) : (lba count : Nat) → Option Fault
  | _, 0 => none
  | lba, count + 1 =>
    match fault lba with
    | none => firstFault fault (lba + 1) count
    | some first => some first

/-- The bytes of sectors one behind the other. -/
def sectorBytes (size : Nat) (sectors : Nat → Nat → BitVec 8) (lba : Nat) : Nat → BitVec 8 :=
  fun index => sectors (lba + index / size) (index % size)

/-- The sectors after some bytes were stored in them. -/
def storeSectors (sectors : Nat → Nat → BitVec 8) (lba count : Nat) (bytes : Nat → BitVec 8) :
    Nat → Nat → BitVec 8 := fun sector =>
  if lba ≤ sector ∧ sector < lba + count then
    overwrite (sectors sector) 0 512 (slice bytes (512 * (sector - lba)))
  else sectors sector

section Blocks

variable {device : AtaDevice} {words lba count edi : Nat} {memory bytes : Nat → BitVec 8}
  {fault : Nat → Option Fault} {sectors : Nat → Nat → BitVec 8} {first : Fault}

/-- A fault has a code. -/
theorem faultCode_ne_zero : faultCode first ≠ 0 := by
  cases first
  all_goals simp [faultCode]

/-- The blocks of sectors one by one. -/
theorem blocks_succ : device.blocks words lba (count + 1) =
    device.block words lba :: device.blocks words (lba + 1) count := by
  simp only [AtaDevice.blocks, List.range_succ_eq_map, List.map_cons, List.map_map, Nat.add_zero]
  congr 1
  refine List.map_congr_left fun index _ => ?_
  simp only [Function.comp_apply, Nat.succ_eq_add_one]
  congr 1
  omega

/-- There is one for each sector. -/
theorem blocks_length : (device.blocks words lba count).length = count := by
  simp [AtaDevice.blocks]

/-- All of them have as many words. -/
theorem blocks_whole (block : List (BitVec 16))
    (member : .ok block ∈ device.blocks words lba count) : block.length = words := by
  obtain ⟨index, _, is⟩ := List.mem_map.mp member
  unfold AtaDevice.block at is
  split at is
  · cases is
  · cases is
    exact toWords_length

/-- Sectors one behind the other, from the second one on. -/
theorem slice_sectorBytes (some : 0 < words) :
    slice (sectorBytes words sectors lba) words = sectorBytes words sectors (lba + 1) := by
  funext index
  simp only [slice, sectorBytes, Nat.add_div_left index some, Nat.add_mod_left]
  congr 1
  omega

/-- Reading the blocks of sectors gives those in front of the first fault. -/
theorem readBlocks_sectors (some : 0 < words) :
    readBlocks (device.blocks words lba count) edi memory =
      (firstFault device.medium.readFault lba count,
        overwrite memory edi (2 * words * soundCount device.medium.readFault lba count)
          (sectorBytes (2 * words) device.sectors lba)) := by
  induction count generalizing lba edi memory with
  | zero => exact congrArg (Prod.mk none) (overwrite_empty).symm
  | succ count ih =>
    rw [blocks_succ, AtaDevice.block, firstFault, soundCount]
    cases device.medium.readFault lba with
    | some first => exact congrArg (Prod.mk _) (overwrite_empty).symm
    | none =>
      have one : overwrite memory edi (2 * words) (toBytes (toWords words (device.sectors lba))) =
          overwrite memory edi (2 * words) (sectorBytes (2 * words) device.sectors lba) := by
        refine overwrite_congr fun index inside => ?_
        rw [toBytes_toWords inside, sectorBytes, Nat.div_eq_of_lt inside, Nat.mod_eq_of_lt inside,
          Nat.add_zero]
      have rest := @overwrite_append memory (sectorBytes (2 * words) device.sectors lba) edi
        (2 * words) (2 * words * soundCount device.medium.readFault (lba + 1) count)
      rw [slice_sectorBytes (by omega)] at rest
      simp only [readBlocks, toWords_length, one, ih, rest]
      congr 2
      rw [Nat.mul_succ, Nat.add_comm]

/-- No sectors are stored. -/
theorem storeSectors_zero : storeSectors sectors lba 0 bytes = sectors := by
  funext sector
  exact if_neg (by omega)

/-- Sectors are stored one by one. -/
theorem storeSectors_succ : storeSectors sectors lba (count + 1) bytes =
    storeSectors (Function.update sectors lba (overwrite (sectors lba) 0 512 bytes)) (lba + 1) count
      (slice bytes 512) := by
  funext sector
  unfold storeSectors
  by_cases here : sector = lba
  · subst here
    rw [if_pos (by omega), if_neg (by omega), Function.update_self, Nat.sub_self, Nat.mul_zero,
      slice_zero]
  · rw [Function.update_of_ne here]
    by_cases inside : lba + 1 ≤ sector ∧ sector < lba + 1 + count
    · rw [if_pos (by omega), if_pos inside, slice_slice]
      congr 2
      omega
    · rw [if_neg (by omega), if_neg inside]

end Blocks

namespace Bus

section Rounds

variable {bus : Bus} {channel : Fin 2} {device : AtaDevice} {blocks : List Block}
  {words edi : Nat}

/-- A wait may only take from the count of a busy device. -/
def Patient (channel : Fin 2) (wait : Kernel Bus Unit) : Prop :=
  ∀ (bus : Bus) (device : AtaDevice), ∃ busy ≤ device.busy,
    wait (bus.put channel device) = .ok () (bus.put channel { device with busy })

/-- The loop over the sectors that are read gets the blocks of the device. -/
theorem readRounds_settles {wait : Kernel Bus Unit} (patient : Patient channel wait)
    (some : 0 < words)
    (whole : ∀ block : List (BitVec 16), .ok block ∈ blocks → block.length = words) :
    ∃ last, Rests device last ∧
      (∀ fault, (readBlocks blocks edi bus.memory).1 = .some fault → last.phase = .failed fault) ∧
      Settles (fun fuel => readRounds fuel channel words wait blocks.length edi)
        (bus.put channel (device.send blocks)) (resultCode (readBlocks blocks edi bus.memory).1)
        ((bus.put channel last).fill (readBlocks blocks edi bus.memory).2) := by
  -- By induction on the blocks that the device has to send.
  induction blocks generalizing bus device edi with
  | nil => exact ⟨device.send [], ⟨rfl, rfl, rfl, rfl⟩, fun _ failed => (by cases failed), .returns⟩
  | cons block blocks ih =>
    obtain ⟨busy, _, waited⟩ := patient bus (device.send (block :: blocks))
    have polled : Settles (fun fuel => idePolling fuel channel true)
        (bus.put channel { device.send (block :: blocks) with busy })
        (checked (calm (device.send (block :: blocks))).status)
        (bus.put channel (calm (device.send (block :: blocks)))) := by
      have polled := idePolling_settles
        (@selected_put bus channel { device.send (block :: blocks) with busy }) true
      rw [if_pos rfl, put_put] at polled
      exact polled
    cases block with
    | error fault =>
      have code : checked (calm (device.send (.error fault :: blocks))).status = faultCode fault :=
        checked_failed rfl
      rw [code] at polled
      refine ⟨calm (device.enter (.failed fault)), ⟨rfl, rfl, rfl, rfl⟩, ?_,
        .bind (.of_ok fun _ => waited) (.bind polled ?_)⟩
      · rintro _ ⟨⟩
        rfl
      exact .congr (fun _ => by rw [if_pos faultCode_ne_zero]; rfl) .returns
    | ok block =>
      let sending := calm (device.enter (.sending block blocks))
      have code : checked (calm (device.send (.ok block :: blocks))).status = 0 :=
        checked_sending rfl
      rw [code] at polled
      have length : block.length = words := whole block List.mem_cons_self
      have nonempty : block ≠ [] := fun empty => by
        rw [empty, List.length_nil] at length
        omega
      have moved := @insw_sending (bus.put channel sending) channel sending block blocks edi
        nonempty selected_put rfl rfl
      rw [put_put, memory_put, length, ← fill_put] at moved
      obtain ⟨last, rests, failed, settles⟩ := @ih
        (bus.fill (overwrite bus.memory edi (2 * words) (toBytes block))) sending (edi + 2 * words)
        fun other member => whole other (List.mem_cons_of_mem _ member)
      simp only [readBlocks, length]
      refine ⟨last, ⟨rests.free, rests.medium, rests.file, rests.sectors⟩, failed,
        .bind (.of_ok fun _ => waited) (.bind polled ?_)⟩
      refine .congr (fun fuel => by rw [if_neg (not_not.mpr rfl)]) (.bind_modify ?_)
      rw [show insw channel words edi (bus.put channel (calm (device.send (.ok block :: blocks)))) =
        _ from moved]
      exact settles

/-- The device waits for a command, or reports a fault, once it is not busy. -/
def Waits (device : AtaDevice) : Prop :=
  device.phase = .idle ∨ ∃ fault, device.phase = .failed fault

/-- Such a device takes no words. -/
theorem Waits.deaf (waits : Waits device) (word : BitVec 16) : device.writeData word = device := by
  unfold AtaDevice.writeData
  split_ifs
  · rfl
  · rcases waits with idle | ⟨fault, failed⟩
    · rw [idle]
    · rw [failed]

/-- The loop over the sectors that are written does nothing to such a device but wait for it. -/
theorem writeRounds_deaf {rounds esi : Nat} (waits : Waits device) :
    ∃ busy, Settles (fun fuel => writeRounds fuel channel rounds esi) (bus.put channel device) ()
      (bus.put channel { device with busy }) := by
  induction rounds generalizing device esi with
  | zero => exact ⟨device.busy, .returns⟩
  | succ rounds ih =>
    have polled := idePolling_settles (@selected_put bus channel device) false
    rw [put_put] at polled
    have quiet : Waits (calm device) := waits
    obtain ⟨busy, settles⟩ := @ih (calm device) (esi + 512) quiet
    refine ⟨busy, .bind polled (.bind_modify ?_)⟩
    rw [outsw_deaf selected_put quiet.deaf]
    exact settles

/-- What the loop over the sectors that are written leaves of a device. -/
structure Stored (device last : AtaDevice) (sectors : Nat → Nat → BitVec 8) : Prop where
  /-- It waits for a command. -/
  waits : Waits last
  /-- What it is made of. -/
  medium : last.medium = device.medium
  /-- Its registers. -/
  file : last.file = device.file
  /-- Its sectors. -/
  sectors : last.sectors = sectors

/-- The first round leaves the device with what it does after a sector. -/
theorem writeRounds_first {lba remaining rounds esi : Nat} {last : Bus}
    (receiving : device.phase = .receiving (.sector lba remaining) [])
    (rest : Settles (fun fuel => writeRounds fuel channel rounds (esi + 512))
      (bus.put channel ((calm device).received (toWords 256 (slice bus.memory esi))
        (.sector lba remaining))) () last) :
    Settles (fun fuel => writeRounds fuel channel (rounds + 1) esi) (bus.put channel device) ()
      last := by
  have polled := idePolling_settles (@selected_put bus channel device) false
  rw [put_put] at polled
  have moved := @outsw_receiving (bus.put channel (calm device)) channel (calm device) []
    (.sector lba remaining) 256 (slice bus.memory esi) (by decide) selected_put rfl receiving rfl
  rw [put_put, List.nil_append] at moved
  refine .bind polled (.bind_modify ?_)
  rw [memory_put, moved]
  exact rest

/-- A sector that is stored holds the words that were sent. -/
theorem store_toWords {lba : Nat} {bytes : Nat → BitVec 8} :
    (device.store lba (toWords 256 bytes)).sectors =
      Function.update device.sectors lba (overwrite (device.sectors lba) 0 512 bytes) := by
  have same : overwrite (device.sectors lba) 0 512 (toBytes (toWords 256 bytes)) =
      overwrite (device.sectors lba) 0 512 bytes :=
    overwrite_congr fun index inside => toBytes_toWords inside
  rw [← same]
  rfl

/-- The loop over the sectors that are written stores those in front of the first fault. -/
theorem writeRounds_settles {lba rounds esi : Nat}
    (receiving : device.phase = .receiving (.sector lba (rounds + 1)) []) :
    ∃ last, Stored device last (storeSectors device.sectors lba
        (soundCount device.medium.writeFault lba (rounds + 1)) (slice bus.memory esi)) ∧
      Settles (fun fuel => writeRounds fuel channel (rounds + 1) esi) (bus.put channel device) ()
        (bus.put channel last) := by
  -- By induction on the sectors that the device expects.
  induction rounds generalizing device lba esi with
  | zero =>
    have first := @writeRounds_first bus channel device lba 1 0 esi
    rw [soundCount]
    cases fault : device.medium.writeFault lba with
    | some fault' =>
      have ends : (calm device).received (toWords 256 (slice bus.memory esi)) (.sector lba 1) =
          (calm device).enter (.failed fault') := by
        simp only [AtaDevice.received, calm, fault]
      exact ⟨(calm device).enter (.failed fault'),
        ⟨.inr ⟨fault', rfl⟩, rfl, rfl, storeSectors_zero.symm⟩, first receiving (ends ▸ .returns)⟩
    | none =>
      have ends : (calm device).received (toWords 256 (slice bus.memory esi)) (.sector lba 1) =
          ((calm device).store lba (toWords 256 (slice bus.memory esi))).enter .idle := by
        simp only [AtaDevice.received, calm, fault]
        rfl
      refine ⟨((calm device).store lba (toWords 256 (slice bus.memory esi))).enter .idle,
        ⟨.inl rfl, rfl, rfl, ?_⟩, first receiving (ends ▸ .returns)⟩
      rw [soundCount, storeSectors_succ, storeSectors_zero]
      exact store_toWords
  | succ rounds ih =>
    have first := @writeRounds_first bus channel device lba (rounds + 2) (rounds + 1) esi
    rw [soundCount]
    cases fault : device.medium.writeFault lba with
    | some fault' =>
      have ends : (calm device).received (toWords 256 (slice bus.memory esi))
          (.sector lba (rounds + 2)) = (calm device).enter (.failed fault') := by
        simp only [AtaDevice.received, calm, fault]
      obtain ⟨busy, deaf⟩ := @writeRounds_deaf bus channel ((calm device).enter (.failed fault'))
        (rounds + 1) (esi + 512) (.inr ⟨fault', rfl⟩)
      exact ⟨{ (calm device).enter (.failed fault') with busy },
        ⟨.inr ⟨fault', rfl⟩, rfl, rfl, storeSectors_zero.symm⟩, first receiving (ends ▸ deaf)⟩
    | none =>
      let next := ((calm device).store lba (toWords 256 (slice bus.memory esi))).enter
        (.receiving (.sector (lba + 1) (rounds + 1)) [])
      have ends : (calm device).received (toWords 256 (slice bus.memory esi))
          (.sector lba (rounds + 2)) = next := by
        simp only [AtaDevice.received, calm, fault]
        rw [if_neg (by omega)]
        rfl
      obtain ⟨last, stored, settles⟩ := @ih next (lba + 1) (esi + 512) rfl
      refine ⟨last, ⟨stored.waits, stored.medium, stored.file, ?_⟩,
        first receiving (ends ▸ settles)⟩
      rw [stored.sectors, storeSectors_succ, ← store_toWords, slice_slice]
      rfl

end Rounds

end Bus

end Unarddeg.Ide
