import Unarddeg.Modules.Ide.Nodes

/-!
# The search for drives

`IDEInitialise` asks the four places of the two channels to identify themselves. The entries are
those of the devices that are there, one behind the other in the order of the places, and their
nodes have the names `hda` to `hdd` (`initialise_finds`). What it leaves is what the transfers need:
the entries and the devices belong together, and all devices take commands.

`IDEState.Dev` is there, as `IDEFind` has tested, and `Buff` is the buffer of the bus. The nodes are
given by their name and their entry.
-/

namespace Unarddeg.Ide

open Library

/-- `ATA_IDENT_DEVICETYPE`. -/
def ataIdentDevicetype : Nat := 0
/-- `ATA_IDENT_MODEL`. -/
def ataIdentModel : Nat := 54
/-- `ATA_IDENT_CAPABILITIES`. -/
def ataIdentCapabilities : Nat := 98
/-- `ATA_IDENT_MAX_LBA`. -/
def ataIdentMaxLba : Nat := 120
/-- `ATA_IDENT_COMMANDSETS`. -/
def ataIdentCommandsets : Nat := 164
/-- `ATA_IDENT_MAX_LBA_EXT`. -/
def ataIdentMaxLbaExt : Nat := 200

namespace Bus

/-- The bus with another entry. -/
def enroll (bus : Bus) (drive : Fin 4) (dev : Entry) : Bus :=
  { bus with ideDev := Function.update bus.ideDev drive dev }

/-- `IDEReadBuffer` from the data register: `rep insl`, whose double words are two words each. -/
def ideReadBuffer (channel : Fin 2) (quads : Nat) : Kernel Bus Unit :=
  modify (insw channel (2 * quads) 0)

/-- The loop of `IDEInitialise` that waits for the identification: whether it saw an error. -/
def identifyPoll (channel : Fin 2) : (timeout : Nat) → Kernel Bus Bool
  | 0 => pure false
  | timeout + 1 => do
    let status ← ideRead channel ataRegStatus
    if status &&& ataSrErr ≠ 0 then pure true
    else if hasData status then pure false
    else identifyPoll channel timeout

/-- A place is asked for its identification: the type of the drive, or nothing when the code goes on
to the next place. Behind `IDENTIFY PACKET` it does not wait. -/
def identify (channel slavebit : Fin 2) : Kernel Bus (Option (BitVec 16)) := do
  ideWrite channel ataRegHddevsel (0xA0 ||| (BitVec.ofNat 8 slavebit <<< 4))
  ideWrite channel ataRegCommand 0xEC
  let status ← ideRead channel ataRegStatus
  if status = 0 then pure none
  else do
    let err ← identifyPoll channel 100000
    if err then do
      let cl ← ideRead channel ataRegLba1
      let ch ← ideRead channel ataRegLba2
      if (cl = 0x14 ∧ ch = 0xEB) ∨ (cl = 0x69 ∧ ch = 0x96) then do
        ideWrite channel ataRegCommand 0xA1
        pure (some ideAtapi)
      else pure none
    else pure (some ideAta)

/-- The entry of a drive that has identified itself. The bytes of its name come in pairs, the second
one first. -/
def entryOf (buff : Nat → BitVec 8) (type : BitVec 16) (channel drive : Fin 2) : Entry where
  reserved := 1
  type := type
  size :=
    if little 32 (slice buff ataIdentCommandsets) &&& (1 <<< 26) ≠ 0 then
      little 32 (slice buff ataIdentMaxLbaExt)
    else little 32 (slice buff ataIdentMaxLba)
  channel := channel
  drive := drive
  signature := little 16 (slice buff ataIdentDevicetype)
  capabilities := little 16 (slice buff ataIdentCapabilities)
  commandSets := little 32 (slice buff ataIdentCommandsets)
  model := fun k =>
    if k = 40 then 0
    else if k.val % 2 = 0 then buff (ataIdentModel + k + 1)
    else buff (ataIdentModel + k - 1)

/-- The name of a node: `hd` and a letter. -/
def nodeName (count : Nat) : List (BitVec 8) := [0x68, 0x64, .ofNat 8 (count + 0x61)]

/-- The loops of `IDEInitialise` over the places: the nodes that it registers. -/
def probe : List (Fin 2 × Fin 2) → (count : Nat) → Kernel Bus (List (List (BitVec 8) × Fin 4))
  | [], _ => pure []
  | (i, j) :: places, count =>
    if inside : count < 4 then do
      modify fun bus => bus.enroll ⟨count, inside⟩ { bus.ideDev ⟨count, inside⟩ with reserved := 0 }
      let type ← identify i j
      match type with
      | none => probe places count
      | some type => do
        ideReadBuffer i 128
        modify fun bus => bus.enroll ⟨count, inside⟩ (entryOf bus.memory type i j)
        let nodes ← probe places (count + 1)
        pure ((nodeName count, ⟨count, inside⟩) :: nodes)
    else throw .outOfBounds

/-- The places in the order of the loops. -/
def places : List (Fin 2 × Fin 2) := [(0, 0), (0, 1), (1, 0), (1, 1)]

/-- `IDEInitialise`. -/
def ideInitialise : Kernel Bus (List (List (BitVec 8) × Fin 4)) := do
  ideWrite 0 ataRegControl 0x02
  ideWrite 1 ataRegControl 0x02
  probe places 0

/-! ## Waits -/

section Polls

variable {bus : Bus} {channel : Fin 2} {device : AtaDevice} {timeout : Nat}

/-- The status register of a device is never zero. -/
theorem status_ne_zero : device.status ≠ 0 := by
  unfold AtaDevice.status
  split_ifs
  · decide
  · split
    all_goals decide

/-- A busy device shows neither an error nor data. -/
theorem status_of_busy (busy : 0 < device.busy) : device.status = 0x80 := if_pos busy

/-- The loop waits until the device is not busy, if it has enough rounds. -/
theorem identifyPoll_ends (enough : device.busy < timeout) {err : Bool}
    (ends : ((calm device).status &&& ataSrErr ≠ 0 ∧ err = true) ∨
      ((calm device).status &&& ataSrErr = 0 ∧ hasData (calm device).status = true ∧ err = false)) :
    identifyPoll channel timeout (bus.put channel device) =
      .ok err (bus.put channel (calm device)) := by
  -- By induction on the rounds: each takes one from the count of the device.
  induction timeout generalizing device with
  | zero => omega
  | succ timeout ih =>
    have read := ideRead_status (@selected_put bus channel device)
    rw [put_put] at read
    rw [identifyPoll, bind_of_ok read]
    by_cases busy : 0 < device.busy
    · have shown := status_of_busy busy
      rw [shown, if_neg (by decide), if_neg (by decide), ih (by
        show device.busy - 1 < timeout
        omega) (by rw [calm_polled]; exact ends), calm_polled]
    · have same : calm device = device := calm_of_zero (by omega)
      have polled : device.polled = device := by rw [← same, polled_calm]
      rw [same] at ends
      rw [polled, same]
      rcases ends with ⟨error, rfl⟩ | ⟨none, data, rfl⟩
      · rw [if_pos error]
        rfl
      · rw [if_neg (not_not.mpr none), if_pos data]
        rfl

/-- A register of the selected device is read. -/
theorem ideRead_register {register : Nat} (selected : bus.Selected channel device)
    (low : register < 7) (apart : register ≠ 1) :
    ideRead channel register bus = .ok (device.file.current register) bus := by
  have read : (bus.channel channel).read register =
      (device.file.current register, bus.channel channel) := by
    unfold Selected at selected
    unfold Channel.read
    rw [selected]
    dsimp only
    rw [if_neg (by omega), if_neg apart]
  rw [ideRead_base (by omega), read, wire_self]

end Polls

/-! ## One place -/

/-- An entry for a place. -/
def seat (place : Fin 2 × Fin 2) : Entry := entryOf (fun _ => 0) 0 place.1 place.2

/-- The device at a place. -/
def at' (bus : Bus) (place : Fin 2 × Fin 2) : Option AtaDevice :=
  (bus.channel place.1).device place.2

/-- A device that identifies itself while the driver waits for it. -/
structure Prompt (device : AtaDevice) : Prop where
  /-- Its identification is a block. -/
  whole : device.medium.identity.length = 256
  /-- It is not busy for too long. -/
  identify : device.medium.waits device.turn ≤ 100000
  /-- When it takes packets, it is not busy at all the second time. -/
  packet : device.medium.atapi = true → device.medium.waits (device.turn + 1) = 0

section Place

variable {bus : Bus} {place : Fin 2 × Fin 2} {device : AtaDevice}

/-- The bus once a place is selected. -/
def seated (bus : Bus) (place : Fin 2 × Fin 2) : Bus :=
  bus.chosen (seat place) (selecting (seat place))

/-- A place without a device does not identify itself. -/
theorem identify_absent (free : Free (bus.channel place.1)) (missing : bus.at' place = none)
    (absent : (bus.channel place.1).absent = 0xFF ∨ (bus.channel place.1).absent = 0x00) :
    identify place.1 place.2 bus = .ok none (bus.seated place) := by
  have nothing : (bus.channel (seat place).channel).device (seat place).drive = none := missing
  have reads : ∀ register < 8, ideRead place.1 register (bus.seated place) =
      .ok (bus.channel place.1).absent (bus.seated place) := fun _ low =>
    ideRead_missing nothing low
  have select := @ideWrite_selecting bus (seat place) free
  have command : ideWrite place.1 ataRegCommand 0xEC (bus.seated place) =
      .ok () (bus.seated place) := ideWrite_missing nothing 0xEC
  unfold identify
  refine (bind_of_ok select).trans ?_
  refine (bind_of_ok command).trans ?_
  refine (bind_of_ok (reads ataRegStatus (by decide))).trans ?_
  rcases absent with high | low
  · have polled : identifyPoll place.1 100000 (bus.seated place) =
        .ok true (bus.seated place) := by
      rw [identifyPoll, bind_of_ok (reads ataRegStatus (by decide)), high, if_pos (by decide)]
      rfl
    rw [high, if_neg (by decide), bind_of_ok polled, if_pos rfl,
      bind_of_ok (reads ataRegLba1 (by decide)), bind_of_ok (reads ataRegLba2 (by decide)), high,
      if_neg (by decide)]
    rfl
  · rw [low, if_pos rfl]
    rfl

/-- The device of a place is selected. -/
theorem seated_selected (there : bus.at' place = some device) :
    (bus.seated place).Selected place.1 (refile (selecting (seat place)) device) :=
  @chosen_selected bus device (selecting (seat place)) (seat place) there

/-- The device of a place gets the command to identify itself, and the driver waits until it has an
answer. -/
theorem identify_answers (free : Free (bus.channel place.1)) (there : bus.at' place = some device)
    {asked : AtaDevice} (is : (refile (selecting (seat place)) device).command 0xEC = asked)
    (enough : asked.busy ≤ 100000) {err : Bool}
    (ends : ((calm asked).status &&& ataSrErr ≠ 0 ∧ err = true) ∨
      ((calm asked).status &&& ataSrErr = 0 ∧ hasData (calm asked).status = true ∧ err = false)) :
    identify place.1 place.2 bus =
      (if err then do
        let cl ← ideRead place.1 ataRegLba1
        let ch ← ideRead place.1 ataRegLba2
        if (cl = 0x14 ∧ ch = 0xEB) ∨ (cl = 0x69 ∧ ch = 0x96) then do
          ideWrite place.1 ataRegCommand 0xA1
          pure (some ideAtapi)
        else pure none
      else pure (some ideAta)) ((bus.seated place).put place.1 (calm asked)) := by
  have select := @ideWrite_selecting bus (seat place) free
  have ready : (refile (selecting (seat place)) device).engaged = false :=
    free _ device there
  have command := @ideWrite_command (bus.seated place) place.1 _ ready 0xEC
  rw [(seated_selected there).put_self, is] at command
  have status := ideRead_status (@selected_put (bus.seated place) place.1 asked)
  rw [put_put] at status
  have polled := @identifyPoll_ends (bus.seated place) place.1 asked.polled 100000 (by
    show asked.busy - 1 < 100000
    omega) err (by rw [calm_polled]; exact ends)
  rw [calm_polled] at polled
  unfold identify
  refine (bind_of_ok select).trans ?_
  refine (bind_of_ok command).trans ?_
  refine (bind_of_ok status).trans ?_
  rw [if_neg status_ne_zero, bind_of_ok polled]

/-- A disk identifies itself. -/
theorem identify_ata (free : Free (bus.channel place.1)) (there : bus.at' place = some device)
    (prompt : Prompt device) (ata : device.medium.atapi = false) :
    ∃ last, last.busy = 0 ∧ last.phase = .sending device.medium.identity [] ∧
      last.medium = device.medium ∧ last.sectors = device.sectors ∧
      identify place.1 place.2 bus =
        .ok (some ideAta) ((bus.seated place).put place.1 last) := by
  let given := refile (selecting (seat place)) device
  have command : given.command 0xEC = given.enter (.sending device.medium.identity []) := by
    rw [AtaDevice.command, if_neg (by rw [show given.medium.atapi = false from ata]; decide)]
    rfl
  refine ⟨calm (given.enter (.sending device.medium.identity [])), rfl, rfl, rfl, rfl, ?_⟩
  rw [@identify_answers bus place device free there _ command prompt.identify false
    (.inr ⟨(by decide : (0x58 : BitVec 8) &&& ataSrErr = 0), (by decide : hasData 0x58 = true),
      rfl⟩)]
  rfl

/-- A device that takes packets identifies itself. -/
theorem identify_atapi (free : Free (bus.channel place.1)) (there : bus.at' place = some device)
    (prompt : Prompt device) (atapi : device.medium.atapi = true) :
    ∃ last, last.busy = 0 ∧ last.phase = .sending device.medium.identity [] ∧
      last.medium = device.medium ∧ last.sectors = device.sectors ∧
      identify place.1 place.2 bus =
        .ok (some ideAtapi) ((bus.seated place).put place.1 last) := by
  let given := refile (selecting (seat place)) device
  let signed : AtaDevice := { given with file := (given.file.write 4 0x14).write 5 0xEB }
  let failed := calm signed.abort
  let last := failed.enter (.sending device.medium.identity [])
  have isAtapi : given.medium.atapi = true := atapi
  have command : given.command 0xEC = signed.abort := by
    rw [AtaDevice.command, if_pos isAtapi]
    rfl
  have again : failed.command 0xA1 = last := by
    rw [AtaDevice.command, if_pos (show failed.medium.atapi = true from atapi)]
    rfl
  have low := @ideRead_register ((bus.seated place).put place.1 failed) place.1 failed ataRegLba1
    selected_put (by decide) (by decide)
  have high := @ideRead_register ((bus.seated place).put place.1 failed) place.1 failed ataRegLba2
    selected_put (by decide) (by decide)
  have write := @ideWrite_command (bus.seated place) place.1 failed rfl 0xA1
  rw [again] at write
  refine ⟨last, prompt.packet atapi, rfl, rfl, rfl, ?_⟩
  rw [@identify_answers bus place device free there _ command prompt.identify true
    (.inl ⟨(by decide : (0x51 : BitVec 8) &&& ataSrErr ≠ 0), rfl⟩), if_pos rfl, bind_of_ok low,
    bind_of_ok high, if_pos (.inl ⟨rfl, rfl⟩), bind_of_ok write]
  rfl

/-- The type of an entry for a device. -/
def typeOf (medium : Medium) : BitVec 16 := if medium.atapi then ideAtapi else ideAta

/-- A device identifies itself, and its identification arrives in `Buff`. -/
theorem identify_found (free : Free (bus.channel place.1)) (there : bus.at' place = some device)
    (prompt : Prompt device) :
    ∃ last middle, last.engaged = false ∧ last.medium = device.medium ∧
      last.sectors = device.sectors ∧
      identify place.1 place.2 bus = .ok (some (typeOf device.medium)) middle ∧
      insw place.1 (2 * 128) 0 middle = ((bus.seated place).put place.1 last).fill
        (overwrite bus.memory 0 512 (toBytes device.medium.identity)) := by
  have answers : ∃ sending : AtaDevice, sending.busy = 0 ∧
      sending.phase = .sending device.medium.identity [] ∧ sending.medium = device.medium ∧
      sending.sectors = device.sectors ∧
      identify place.1 place.2 bus =
        .ok (some (typeOf device.medium)) ((bus.seated place).put place.1 sending) := by
    unfold typeOf
    cases atapi : device.medium.atapi with
    | false => exact identify_ata free there prompt atapi
    | true => exact identify_atapi free there prompt atapi
  obtain ⟨sending, notBusy, phase, medium, sectors, answer⟩ := answers
  have nonempty : device.medium.identity ≠ [] := fun empty => by
    have whole := prompt.whole
    rw [empty] at whole
    cases whole
  have moved := @insw_sending ((bus.seated place).put place.1 sending) place.1 sending
    device.medium.identity [] 0 nonempty selected_put notBusy phase
  rw [put_put, memory_put, prompt.whole] at moved
  exact ⟨sending.send [], _, rfl, medium, sectors, answer, moved⟩

end Place

/-! ## All places -/

/-- The devices that the search has still to ask, and the lines without any. -/
structure Waiting (bus : Bus) (places : List (Fin 2 × Fin 2)) : Prop where
  /-- All devices take registers. -/
  free : ∀ channel, Free (bus.channel channel)
  /-- Lines without a device read as ones, or as zeros. -/
  absent : ∀ channel, (bus.channel channel).absent = 0xFF ∨ (bus.channel channel).absent = 0x00
  /-- The devices identify themselves. -/
  prompt : ∀ place ∈ places, ∀ device, bus.at' place = some device → Prompt device

/-- The entries of the devices at some places, in their order. -/
def found (bus : Bus) (places : List (Fin 2 × Fin 2)) : List Entry :=
  places.filterMap fun place => (bus.contents place).map fun held =>
    entryOf (toBytes held.1.identity) (typeOf held.1) place.1 place.2

section Places

variable {bus after : Bus} {place other : Fin 2 × Fin 2} {device last : AtaDevice}
  {memory : Nat → BitVec 8}

/-- An entry only depends on the bytes of the block. -/
theorem entryOf_congr {buff bytes : Nat → BitVec 8} {type : BitVec 16} {channel drive : Fin 2}
    (same : ∀ index < 512, buff index = bytes index) :
    entryOf buff type channel drive = entryOf bytes type channel drive := by
  have words : ∀ width start, start + (width + 7) / 8 ≤ 512 →
      little width (slice buff start) = little width (slice bytes start) := by
    intro width start inside
    refine little_congr fun index small => ?_
    exact same (start + index) (by omega)
  unfold entryOf
  rw [words 32 ataIdentCommandsets (by decide), words 32 ataIdentMaxLbaExt (by decide),
    words 32 ataIdentMaxLba (by decide), words 16 ataIdentDevicetype (by decide),
    words 16 ataIdentCapabilities (by decide)]
  have names : ∀ k : Fin 41, (if k = 40 then (0 : BitVec 8)
      else if k.val % 2 = 0 then buff (ataIdentModel + k + 1) else buff (ataIdentModel + k - 1)) =
        if k = 40 then 0
        else if k.val % 2 = 0 then bytes (ataIdentModel + k + 1)
        else bytes (ataIdentModel + k - 1) := by
    intro k
    have bound := k.isLt
    unfold ataIdentModel
    rw [same (54 + k + 1) (by omega), same (54 + k - 1) (by omega)]
  congr 1
  funext k
  exact names k

/-- The devices at the other places only take registers while one is asked. -/
theorem at_other (apart : other ≠ place) :
    ∃ writes, (((bus.seated place).put place.1 last).fill memory).at' other =
      (bus.at' other).map (refile writes) := by
  obtain ⟨channel, slavebit⟩ := other
  by_cases same : channel = place.1
  · subst same
    have different : slavebit ≠ place.2 := fun equal => apart (Prod.ext rfl equal)
    refine ⟨selecting (seat place), ?_⟩
    simp [at', fill, put, seated, chosen, wire, Channel.put, seat, entryOf, filed,
      Function.update_of_ne different]
  · refine ⟨[], ?_⟩
    have none : refile [] = id := rfl
    rw [none, Option.map_id]
    simp [at', fill, put, seated, chosen, wire, seat, entryOf, Function.update_of_ne same]

/-- The devices only take registers while a place is selected. -/
theorem at_seated :
    ∃ writes, (bus.seated place).at' other = (bus.at' other).map (refile writes) := by
  obtain ⟨channel, slavebit⟩ := other
  by_cases same : channel = place.1
  · subst same
    exact ⟨selecting (seat place), by simp [at', seated, chosen, wire, seat, entryOf, filed]⟩
  · refine ⟨[], ?_⟩
    have none : refile [] = id := rfl
    rw [none, Option.map_id]
    simp [at', seated, chosen, wire, seat, entryOf, Function.update_of_ne same]

/-- Registers make no difference to how a device identifies itself. -/
theorem Waiting.moves {places : List (Fin 2 × Fin 2)} (waiting : Waiting bus places)
    (free : ∀ channel, Free (after.channel channel))
    (absent : ∀ channel, (after.channel channel).absent = (bus.channel channel).absent)
    (moved : ∀ place ∈ places, ∃ writes, after.at' place = (bus.at' place).map (refile writes)) :
    Waiting after places where
  free := free
  absent channel := absent channel ▸ waiting.absent channel
  prompt place member device there := by
    obtain ⟨writes, same⟩ := moved place member
    rw [same] at there
    obtain ⟨before, found, rfl⟩ := Option.map_eq_some_iff.mp there
    have prompt := waiting.prompt place member before found
    exact ⟨prompt.whole, prompt.identify, prompt.packet⟩

/-- What the search leaves behind some places. -/
structure Probed (bus : Bus) (count : Nat) (entries : List Entry) (after : Bus) : Prop where
  /-- All devices take registers. -/
  free : ∀ channel, Free (after.channel channel)
  /-- What is read where there is no device. -/
  absent : ∀ channel, (after.channel channel).absent = (bus.channel channel).absent
  /-- The devices hold what they held. -/
  contents : after.contents = bus.contents
  /-- The result of the last transfer. -/
  package : after.package = bus.package
  /-- The entries from the given number on are those of the devices that were found. -/
  table : ∀ drive : Fin 4, after.ideDev drive =
    if drive < count then bus.ideDev drive else entries.getD (drive - count) (bus.ideDev drive)

/-- An entry that is blank already. -/
theorem enroll_blank {drive : Fin 4} (blank : (bus.ideDev drive).reserved = 0) :
    bus.enroll drive { bus.ideDev drive with reserved := 0 } = bus := by
  have same : { bus.ideDev drive with reserved := 0 } = bus.ideDev drive := by
    rw [← blank]
  rw [same, enroll, Function.update_eq_self]

/-- The other entries are left alone. -/
theorem enroll_other {drive other : Fin 4} {entry : Entry} (apart : other ≠ drive) :
    (bus.enroll drive entry).ideDev other = bus.ideDev other :=
  Function.update_of_ne apart ..

section Steps

variable {places : List (Fin 2 × Fin 2)} {count : Nat} {middle : Bus}

/-- A place that does not identify itself is left out. -/
theorem probe_skips (inside : count < 4) (blank : (bus.ideDev ⟨count, inside⟩).reserved = 0)
    (answer : identify place.1 place.2 bus = .ok none middle) :
    probe (place :: places) count bus = probe places count middle := by
  have modified : (modify fun bus : Bus => bus.enroll ⟨count, inside⟩
      { bus.ideDev ⟨count, inside⟩ with reserved := 0 } : Kernel Bus Unit) bus = .ok () bus :=
    congrArg (EStateM.Result.ok ()) (enroll_blank blank)
  rw [probe, dif_pos inside, bind_of_ok modified, bind_of_ok answer]

/-- A device that identifies itself gets an entry and a node. -/
theorem probe_enters (inside : count < 4) (blank : (bus.ideDev ⟨count, inside⟩).reserved = 0)
    {type : BitVec 16} (answer : identify place.1 place.2 bus = .ok (some type) middle)
    {filled : Bus} (moved : insw place.1 (2 * 128) 0 middle = filled) :
    probe (place :: places) count bus = (probe places (count + 1) >>= fun nodes =>
      pure ((nodeName count, (⟨count, inside⟩ : Fin 4)) :: nodes))
        (filled.enroll ⟨count, inside⟩ (entryOf filled.memory type place.1 place.2)) := by
  have modified : (modify fun bus : Bus => bus.enroll ⟨count, inside⟩
      { bus.ideDev ⟨count, inside⟩ with reserved := 0 } : Kernel Bus Unit) bus = .ok () bus :=
    congrArg (EStateM.Result.ok ()) (enroll_blank blank)
  subst moved
  rw [probe, dif_pos inside, bind_of_ok modified, bind_of_ok answer]
  rfl

end Steps

/-- The devices behind the first place wait as well. -/
theorem Waiting.rest {places : List (Fin 2 × Fin 2)} (waiting : Waiting bus (place :: places)) :
    Waiting bus places :=
  ⟨waiting.free, waiting.absent, fun other member =>
    waiting.prompt other (List.mem_cons_of_mem _ member)⟩

/-- A place without a device adds nothing to what is found. -/
theorem found_skip {places : List (Fin 2 × Fin 2)} (contents : after.contents = bus.contents)
    (empty : bus.contents place = none) : found bus (place :: places) = found after places := by
  unfold found
  rw [contents, List.filterMap_cons, empty]
  rfl

/-- The device at the first place is found before the others. -/
theorem found_enter {places : List (Fin 2 × Fin 2)} (contents : after.contents = bus.contents)
    (held : bus.contents place = some (device.medium, device.sectors)) :
    found bus (place :: places) =
      entryOf (toBytes device.medium.identity) (typeOf device.medium) place.1 place.2 ::
        found after places := by
  unfold found
  rw [contents, List.filterMap_cons, held]
  rfl

/-- A bus that only differs in what is selected has the same search behind it. -/
theorem Probed.skip {middle : Bus} {count : Nat} {entries : List Entry} (keeps : Keeps bus middle)
    (contents : middle.contents = bus.contents) (probed : Probed middle count entries after) :
    Probed bus count entries after where
  free := probed.free
  absent channel := (probed.absent channel).trans (keeps.absent channel)
  contents := probed.contents.trans contents
  package := probed.package.trans keeps.package
  table drive := by rw [probed.table, keeps.ideDev]

/-- An entry is followed by those that the search finds behind it. -/
theorem Probed.enter {middle : Bus} {count : Nat} {entry : Entry} {entries : List Entry}
    (inside : count < 4) (keeps : Keeps bus middle) (contents : middle.contents = bus.contents)
    (probed : Probed (middle.enroll ⟨count, inside⟩ entry) (count + 1) entries after) :
    Probed bus count (entry :: entries) after where
  free := probed.free
  absent channel := (probed.absent channel).trans (keeps.absent channel)
  contents := probed.contents.trans contents
  package := probed.package.trans keeps.package
  table drive := by
    have table : (middle.enroll ⟨count, inside⟩ entry).ideDev drive =
        if drive.val = count then entry else bus.ideDev drive := by
      rw [← keeps.ideDev]
      by_cases here : drive = ⟨count, inside⟩
      · rw [if_pos (congrArg Fin.val here), here]
        exact Function.update_self ..
      · rw [if_neg fun same => here (Fin.ext same)]
        exact enroll_other here
    rw [probed.table, table]
    rcases Nat.lt_trichotomy drive.val count with before | here | behind
    · rw [if_pos (by omega), if_neg (by omega), if_pos before]
    · rw [if_pos (by omega), if_pos here, if_neg (by omega), here, Nat.sub_self]
      rfl
    · obtain ⟨further, is⟩ : ∃ further, drive.val - count = further + 1 :=
        ⟨drive.val - count - 1, by omega⟩
      have same : drive.val - (count + 1) = further := by omega
      rw [if_neg (by omega), if_neg (by omega), if_neg (by omega), is, same,
        List.getD_cons_succ]

/-- A device at the first place gets an entry and a node, and the others keep theirs. -/
theorem probe_found {places : List (Fin 2 × Fin 2)} {count : Nat} (inside : count < 4)
    (blank : (bus.ideDev ⟨count, inside⟩).reserved = 0) (free : Free (bus.channel place.1))
    (there : bus.at' place = some device) (prompt : Prompt device) :
    ∃ middle, Keeps bus middle ∧ middle.contents = bus.contents ∧
      (∀ other ≠ place, ∃ writes, middle.at' other = (bus.at' other).map (refile writes)) ∧
      probe (place :: places) count bus = (probe places (count + 1) >>= fun nodes =>
        pure ((nodeName count, (⟨count, inside⟩ : Fin 4)) :: nodes))
          (middle.enroll ⟨count, inside⟩
            (entryOf (toBytes device.medium.identity) (typeOf device.medium) place.1 place.2)) := by
  obtain ⟨last, answered, ready, medium, sectors, answer, moved⟩ :=
    identify_found free there prompt
  let buff := overwrite bus.memory 0 512 (toBytes device.medium.identity)
  have contents : (((bus.seated place).put place.1 last).fill buff).contents = bus.contents := by
    refine (@contents_chosen bus last buff _ (seat place)).trans ?_
    rw [medium, sectors]
    exact Function.update_eq_self_iff.mpr
      (Option.map_eq_some_iff.mpr ⟨device, there, rfl⟩ : bus.contents place = _).symm
  have read : entryOf buff (typeOf device.medium) place.1 place.2 =
      entryOf (toBytes device.medium.identity) (typeOf device.medium) place.1 place.2 :=
    entryOf_congr fun index small => by
      have written := @overwrite_inside bus.memory (toBytes device.medium.identity) 0 512 index
        small
      rw [Nat.zero_add] at written
      exact written
  have entered := @probe_enters bus place places count answered inside blank _ answer _ moved
  rw [memory_fill, read] at entered
  exact ⟨_, @keeps_chosen bus last buff _ (seat place) ready, contents,
    fun other apart => at_other apart, entered⟩

/-- The loops of the search find the devices of their places. -/
theorem probe_finds {places : List (Fin 2 × Fin 2)} {count : Nat} (different : places.Nodup)
    (waiting : Waiting bus places) (room : count + places.length ≤ 4)
    (blank : ∀ drive : Fin 4, count ≤ drive → (bus.ideDev drive).reserved = 0) :
    ∃ nodes after, probe places count bus = .ok nodes after ∧
      nodes.map (fun node => (node.1, node.2.val)) =
        (List.range' count (found bus places).length).map
          (fun number => (nodeName number, number)) ∧
      Probed bus count (found bus places) after := by
  -- By induction on the places: each leaves the devices of the others as they were.
  induction places generalizing bus count with
  | nil =>
    exact ⟨[], bus, rfl, rfl, waiting.free, fun _ => rfl, rfl, rfl, fun drive => by simp [found]⟩
  | cons place places ih =>
    rw [List.length_cons] at room
    have inside : count < 4 := by omega
    have blankHere := blank ⟨count, inside⟩ (Nat.le_refl _)
    obtain ⟨apart, different⟩ := List.nodup_cons.mp different
    have free := waiting.free place.1
    cases there : bus.at' place with
    | none =>
      have answer := identify_absent free there (waiting.absent place.1)
      have keeps : Keeps bus (bus.seated place) := keeps_selected
      have contents : (bus.seated place).contents = bus.contents := contents_selected
      obtain ⟨nodes, after, ended, names, probed⟩ := @ih (bus.seated place) count different
        (waiting.rest.moves (keeps.free waiting.free) keeps.absent fun _ _ => at_seated)
        (by omega) blank
      rw [found_skip contents (Option.map_eq_none_iff.mpr there)]
      exact ⟨nodes, after, (probe_skips inside blankHere answer).trans ended, names,
        probed.skip keeps contents⟩
    | some device =>
      obtain ⟨middle, keeps, contents, moved, entered⟩ := @probe_found bus place device places
        count inside blankHere free there (waiting.prompt place List.mem_cons_self device there)
      let entry := entryOf (toBytes device.medium.identity) (typeOf device.medium) place.1 place.2
      obtain ⟨nodes, after, ended, names, probed⟩ := @ih (middle.enroll ⟨count, inside⟩ entry)
        (count + 1) different
        (waiting.rest.moves (keeps.free waiting.free) keeps.absent fun other member =>
          moved other fun same => apart (same ▸ member)) (by omega) (by
          intro drive behind
          have other : drive ≠ ⟨count, inside⟩ := fun same => by
            rw [same] at behind
            simp at behind
          rw [enroll_other other, keeps.ideDev]
          exact blank drive (by omega))
      rw [found_enter contents (Option.map_eq_some_iff.mpr ⟨device, there, rfl⟩)]
      refine ⟨(nodeName count, ⟨count, inside⟩) :: nodes, after,
        entered.trans ((bind_of_ok ended).trans rfl), ?_, probed.enter inside keeps contents⟩
      rw [List.map_cons, names, List.length_cons, List.range'_succ, List.map_cons]
      rfl

end Places

/-! ## What the search leaves -/

/-- The devices have what the driver counts on: a disc has no faults, and a disk without addresses
of 28 bits is no larger than its geometry. -/
structure Suitable (bus : Bus) : Prop where
  /-- The discs. -/
  disc : ∀ place medium sectors, bus.contents place = some (medium, sectors) →
    medium.atapi = true → ∀ lba, medium.readFault lba = none
  /-- The entries. -/
  addressable : ∀ entry ∈ found bus places, entry.capabilities &&& 0x200 ≠ 0 ∨
    entry.size.toNat ≤ 65536 * 16 * 63

section Leaves

variable {bus after : Bus}

/-- The places of the entries that are found are some of the places, in their order. -/
theorem found_places (some : List (Fin 2 × Fin 2)) :
    (found bus some).map (fun entry => (entry.channel, entry.drive)) =
      some.filter fun place => (bus.contents place).isSome := by
  induction some with
  | nil => rfl
  | cons place some ih =>
    unfold found at ih ⊢
    rw [List.filterMap_cons, List.filter_cons]
    cases held : bus.contents place with
    | none => exact ih
    | some content =>
      simp only [Option.map_some, Option.isSome_some, if_true, List.map_cons, ih]
      rfl

/-- An entry that is found is that of the device at its place. -/
theorem found_entry {entry : Entry} (member : entry ∈ found bus places) : entry.reserved = 1 ∧
    ∃ medium sectors, bus.contents (entry.channel, entry.drive) = some (medium, sectors) ∧
      entry.type = typeOf medium := by
  obtain ⟨place, _, is⟩ := List.mem_filterMap.mp member
  obtain ⟨⟨medium, sectors⟩, held, rfl⟩ := Option.map_eq_some_iff.mp is
  exact ⟨rfl, medium, sectors, held, rfl⟩

/-- An entry that is reserved is one of those that are found. -/
theorem Probed.entry (probed : Probed bus 0 (found bus places) after)
    (blank : ∀ drive : Fin 4, (bus.ideDev drive).reserved = 0) {drive : Fin 4}
    (reserved : (after.ideDev drive).reserved ≠ 0) :
    ∃ inside : drive.val < (found bus places).length,
      after.ideDev drive = (found bus places)[drive.val] := by
  have table := probed.table drive
  rw [if_neg (Nat.not_lt_zero _), Nat.sub_zero] at table
  by_cases inside : drive.val < (found bus places).length
  · refine ⟨inside, table.trans ?_⟩
    rw [List.getD_eq_getElem?_getD, List.getElem?_eq_getElem inside, Option.getD_some]
  · rw [List.getD_eq_getElem?_getD, List.getElem?_eq_none (Nat.le_of_not_lt inside),
      Option.getD_none] at table
    rw [table] at reserved
    exact absurd (blank drive) reserved

/-- The channels and the entries belong together behind the search. -/
theorem Probed.wired (probed : Probed bus 0 (found bus places) after) (suitable : Suitable bus)
    (absent : ∀ channel, (bus.channel channel).absent = 0xFF ∨ (bus.channel channel).absent = 0x00)
    (blank : ∀ drive : Fin 4, (bus.ideDev drive).reserved = 0)
    (empty : ∀ drive : Fin 4, (bus.ideDev drive).size = 0) : after.Wired where
  apart drive other reserved otherReserved same := by
    obtain ⟨inside, is⟩ := probed.entry blank reserved
    obtain ⟨otherInside, otherIs⟩ := probed.entry blank otherReserved
    have different : ((found bus places).map fun entry => (entry.channel, entry.drive)).Nodup := by
      rw [found_places]
      exact (by decide : places.Nodup).filter _
    unfold Bus.place at same
    rw [is, otherIs] at same
    have listed : ∀ index (small : index < (found bus places).length),
        index < ((found bus places).map fun entry => (entry.channel, entry.drive)).length := by
      intro index small
      rw [List.length_map]
      exact small
    refine Fin.ext ((@List.Nodup.getElem_inj_iff _ _ different drive.val (listed _ inside) other.val
      (listed _ otherInside)).mp ?_)
    rw [List.getElem_map, List.getElem_map]
    exact same
  absent channel := probed.absent channel ▸ absent channel
  type drive medium sectors reserved there := by
    obtain ⟨inside, is⟩ := probed.entry blank reserved
    obtain ⟨_, made, stored, held, type⟩ := found_entry (List.getElem_mem inside)
    unfold Bus.place at there
    rw [probed.contents, is, held] at there
    cases there
    rw [is, type]
    unfold typeOf
    cases atapi : medium.atapi with
    | false => exact .inl ⟨rfl, rfl⟩
    | true => exact .inr ⟨rfl, rfl, suitable.disc _ _ _ held atapi⟩
  addressable drive := by
    have table := probed.table drive
    rw [if_neg (Nat.not_lt_zero _), Nat.sub_zero] at table
    rw [table, List.getD_eq_getElem?_getD]
    by_cases inside : drive.val < (found bus places).length
    · rw [List.getElem?_eq_getElem inside, Option.getD_some]
      exact suitable.addressable _ (List.getElem_mem inside)
    · rw [List.getElem?_eq_none (Nat.le_of_not_lt inside), Option.getD_none]
      rw [empty]
      exact .inr (by decide)

/-- The whole search. -/
theorem ideInitialise_finds (waiting : Waiting bus places)
    (blank : ∀ drive : Fin 4, (bus.ideDev drive).reserved = 0) :
    ∃ nodes after, ideInitialise bus = .ok nodes after ∧
      nodes.map (fun node => (node.1, node.2.val)) =
        (List.range (found bus places).length).map (fun number => (nodeName number, number)) ∧
      Probed bus 0 (found bus places) after := by
  obtain ⟨nodes, after, ended, names, probed⟩ := @probe_finds bus places 0 (by decide) waiting
    (by decide) fun drive _ => blank drive
  rw [← List.range_eq_range'] at names
  refine ⟨nodes, after, ?_, names, probed⟩
  unfold ideInitialise
  rw [bind_of_ok (ideWrite_control 0x02), bind_of_ok (ideWrite_control 0x02)]
  exact ended

/-- The drives that the devices of a bus make. -/
def drivesOf (bus : Bus) : Drives where
  ideDev := fun drive => (bus.ideDev drive).toIDEDev
  status := fun drive =>
    if (bus.contents (bus.place drive)).isSome then 0x50
    else (bus.channel (bus.ideDev drive).channel).absent
  sector := fun drive lba =>
    match bus.contents (bus.place drive) with
    | some (_, sectors) => sectors lba.toNat
    | none => fun _ => 0
  package := bus.package

/-- They look like the devices. -/
theorem shows_drivesOf (free : ∀ channel, Free (bus.channel channel)) :
    bus.Shows bus.drivesOf where
  ideDev _ := rfl
  package := rfl
  free := free
  holds drive _ := by
    cases held : bus.contents (bus.place drive) with
    | none =>
      unfold Holds drivesOf
      dsimp only
      rw [held]
      rfl
    | some content =>
      refine ⟨?_, fun lba => ?_⟩
      · unfold drivesOf
        dsimp only
        rw [held]
        exact (by decide : ¬ ((0x50 : BitVec 8) = 0xFF ∨ (0x50 : BitVec 8) = 0x00))
      · unfold drivesOf
        dsimp only
        rw [held]

end Leaves

/-- A device that identifies itself. -/
def promptDevice (atapi : Bool) : AtaDevice :=
  { sampleDevice atapi false with
    medium :=
      { (sampleDevice atapi false).medium with
        identity := List.replicate 256 0x0200
        waits := fun turn => if turn = 0 then 3 else 0 } }

/-- A disk and a disc that the driver has not found yet. -/
def promptBus : Bus :=
  { sampleBus false with
    channel := fun channel =>
      { device := fun place =>
          if place = channel then some (promptDevice (decide (channel = 1))) else none
        selected := 0, absent := 0xFF }
    ideDev := fun _ => { seat (0, 0) with reserved := 0, size := 0 } }

/-- They identify themselves while the driver waits for them. -/
theorem promptBus_waiting : Waiting promptBus places where
  free channel place device there := by
    have is : (if place = channel then some (promptDevice (decide (channel = 1))) else none) =
      some device := there
    split_ifs at is
    cases is
    rfl
  absent _ := .inl rfl
  prompt place _ device there := by
    have is : (if place.2 = place.1 then some (promptDevice (decide (place.1 = 1))) else none) =
      some device := there
    split_ifs at is
    cases is
    exact ⟨List.length_replicate, (by decide : 3 ≤ 100000), fun _ => rfl⟩

end Bus

end Unarddeg.Ide
