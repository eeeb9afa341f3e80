import Unarddeg.Modules.Ide.Sectors

/-!
# Nodes over the ports

`IDEReadFunction` and `IDEWriteFunction` with the devices behind their ports. A read that fails
leaves zeros in the place of its sector. Every run of calls, on the nodes of all four drives and at
any positions, gives what it gives on drives that are a store of sectors with faults
(`nodes_refine`).
-/

namespace Unarddeg.Ide

open Library

/-! ## Reads that fail -/

section Functions

variable {width : Nat} (faults : ReadFaults)

/-- A round of the loop of `IDEReadFunction`. -/
def readRoundWith (drive : Fin 4) (bytesPerSector bytes : BitVec width) (stale : Nat → BitVec 8)
    (state : ReadState width) : ReadState width :=
  let sector := state.currentOffset / bytesPerSector
  let offsetInSector := state.currentOffset % bytesPerSector
  let count := bytesThisIter bytesPerSector state.remaining state.currentOffset
  let (buffer, drives) := loadSectorWith faults drive bytesPerSector sector stale state.drives
  { remaining := state.remaining - count
    currentOffset := state.currentOffset + count
    dest := overwrite state.dest (bytes - state.remaining).toNat count.toNat
      (slice buffer offsetInSector.toNat)
    drives }

/-- The loop of `IDEReadFunction`, at most as many rounds as given. -/
def readLoopWith (drive : Fin 4) (bytesPerSector bytes : BitVec width)
    (stale : Nat → Nat → BitVec 8) : Nat → ReadState width → ReadState width
  | 0, state => state
  | rounds + 1, state =>
    if state.remaining > 0 then
      readLoopWith drive bytesPerSector bytes stale rounds
        (readRoundWith faults drive bytesPerSector bytes (stale rounds) state)
    else state

/-- `IDEReadFunction` on drives whose reads can fail. -/
def ideReadFunctionWith (buf : Option (Nat → BitVec 8)) (size elements : BitVec width)
    (stale : Nat → Nat → BitVec 8) : Kernel (DriveNode width) (BitVec 32 × (Nat → BitVec 8)) := do
  match buf with
  | none => panicWith .nullPointerDereference
  | some dest =>
    if size = 0 ∨ elements = 0 then
      pure (0, dest)
    else
      let node ← get
      let self := node.drives.ideDev node.drive
      let bytes := size * elements
      if ¬ isDrivePresent node.drives node.drive then
        let zeros ← ofExcept (memset dest 0 bytes.toInt)
        set { node with fileOffset := node.fileOffset + bytes }
        pure (elements.setWidth 32, zeros)
      else
        let bytesPerSector := if self.type = ideAtapi then 2048 else 512
        let last := readLoopWith faults node.drive bytesPerSector bytes stale bytes.toNat
          ⟨bytes, node.fileOffset, dest, node.drives⟩
        set { node with fileOffset := node.fileOffset + bytes, drives := last.drives }
        pure (elements.setWidth 32, last.dest)

end Functions

section Never

variable {width : Nat}

/-- The loop is the one from before when no read fails. -/
theorem readLoopWith_never (drive : Fin 4) (bytesPerSector bytes : BitVec width)
    (stale : Nat → Nat → BitVec 8) (rounds : Nat) (state : ReadState width) :
    readLoopWith .never drive bytesPerSector bytes stale rounds state =
      readLoop drive bytesPerSector bytes stale rounds state := by
  induction rounds generalizing state with
  | zero => rfl
  | succ rounds ih =>
    have round : readRoundWith .never drive bytesPerSector bytes (stale rounds) state =
        readRound drive bytesPerSector bytes (stale rounds) state := by
      simp only [readRoundWith, readRound, loadSectorWith_never]
    rw [readLoopWith, readLoop, round, ih]

/-- `IDEReadFunction` is the one from before when no read fails. -/
theorem ideReadFunctionWith_never (buf : Option (Nat → BitVec 8)) (size elements : BitVec width)
    (stale : Nat → Nat → BitVec 8) :
    ideReadFunctionWith .never buf size elements stale =
      ideReadFunction buf size elements stale := by
  cases buf with
  | none => rfl
  | some dest => simp only [ideReadFunctionWith, ideReadFunction, readLoopWith_never]

end Never

/-! ## The functions -/

namespace Bus

section Functions

variable {width : Nat}

/-- A sector in the `sector_buffer` of a round; zeros behind the last sector and after an error. -/
def loadSector (fuel : Nat) (drive : Fin 4) (bytesPerSector sector : BitVec width)
    (stale : Nat → BitVec 8) : Kernel Bus Unit := do
  modify fun bus => bus.fill stale
  if sector ≥ ((← get).ideDev drive).size.setWidth width then
    modify fun bus => bus.fill (clear bus.memory bytesPerSector.toNat)
  else
    ideReadSectors fuel drive 1 (sector.setWidth 32) 0
    if (← get).package ≠ 0 then
      modify fun bus => bus.fill (clear bus.memory bytesPerSector.toNat)
      setPackage 0

/-- The end of a round: a sector in front of the end is stored, and its result is dropped. -/
def storeSector (fuel : Nat) (drive : Fin 4) (sector : BitVec width) : Kernel Bus Unit := do
  if sector < ((← get).ideDev drive).size.setWidth width then
    ideWriteSectors fuel drive 1 (sector.setWidth 32) 0
    if (← get).package ≠ 0 then setPackage 0

/-- The loop of `IDEReadFunction`, at most as many rounds as given: `dest` behind it. -/
def readLoop (fuel : Nat) (drive : Fin 4) (bytesPerSector bytes : BitVec width)
    (stale : Nat → Nat → BitVec 8) : (rounds : Nat) → (remaining currentOffset : BitVec width) →
    (dest : Nat → BitVec 8) → Kernel Bus (Nat → BitVec 8)
  | 0, _, _, dest => pure dest
  | rounds + 1, remaining, currentOffset, dest =>
    if remaining > 0 then do
      let offsetInSector := currentOffset % bytesPerSector
      let count := bytesThisIter bytesPerSector remaining currentOffset
      loadSector fuel drive bytesPerSector (currentOffset / bytesPerSector) (stale rounds)
      let bus ← get
      readLoop fuel drive bytesPerSector bytes stale rounds (remaining - count)
        (currentOffset + count) (overwrite dest (bytes - remaining).toNat count.toNat
          (slice bus.memory offsetInSector.toNat))
    else pure dest

/-- `sector_buffer` of `IDEWriteFunction` before the bytes of the round: a sector that is written in
part is read. -/
def partSector (fuel : Nat) (drive : Fin 4) (sector : BitVec width) (part : Prop) [Decidable part]
    (stale : Nat → BitVec 8) : Kernel Bus Unit :=
  if part then loadSector fuel drive 512 sector stale else modify fun bus => bus.fill stale

/-- The loop of `IDEWriteFunction`, at most as many rounds as given. -/
def writeLoop (fuel : Nat) (drive : Fin 4) (bytes : BitVec width) (src : Nat → BitVec 8)
    (stale : Nat → Nat → BitVec 8) : (rounds : Nat) → (remaining currentOffset : BitVec width) →
    Kernel Bus Unit
  | 0, _, _ => pure ()
  | rounds + 1, remaining, currentOffset =>
    if remaining > 0 then do
      let sector := currentOffset / 512
      let offsetInSector := currentOffset % 512
      let count := bytesThisIter 512 remaining currentOffset
      partSector fuel drive sector (offsetInSector ≠ 0 ∨ count ≠ 512) (stale rounds)
      modify fun bus => bus.fill (overwrite bus.memory offsetInSector.toNat count.toNat
        (slice src (bytes - remaining).toNat))
      storeSector fuel drive sector
      writeLoop fuel drive bytes src stale rounds (remaining - count) (currentOffset + count)
    else pure ()

/-- `IDEReadFunction`: the result, the buffer, and `FileOffset`. -/
def ideReadFunction (fuel : Nat) (drive : Fin 4) (fileOffset : BitVec width)
    (buf : Option (Nat → BitVec 8)) (size elements : BitVec width) (stale : Nat → Nat → BitVec 8) :
    Kernel Bus (BitVec 32 × (Nat → BitVec 8) × BitVec width) := do
  match buf with
  | none => panicWith .nullPointerDereference
  | some dest =>
    if size = 0 ∨ elements = 0 then
      pure (0, dest, fileOffset)
    else
      let bytes := size * elements
      let present ← isDrivePresent drive
      if ¬ present then
        let zeros ← ofExcept (memset dest 0 bytes.toInt)
        pure (elements.setWidth 32, zeros, fileOffset + bytes)
      else
        let self := (← get).ideDev drive
        let bytesPerSector := if self.type = ideAtapi then 2048 else 512
        let answer ←
          readLoop fuel drive bytesPerSector bytes stale bytes.toNat bytes fileOffset dest
        pure (elements.setWidth 32, answer, fileOffset + bytes)

/-- `IDEWriteFunction`: the result and `FileOffset`. -/
def ideWriteFunction (fuel : Nat) (drive : Fin 4) (fileOffset : BitVec width)
    (buf : Option (Nat → BitVec 8)) (size elements : BitVec width) (stale : Nat → Nat → BitVec 8) :
    Kernel Bus (BitVec 32 × BitVec width) := do
  match buf with
  | none => panicWith .nullPointerDereference
  | some src =>
    if size = 0 ∨ elements = 0 then
      pure (0, fileOffset)
    else
      let bytes := size * elements
      let present ← isDrivePresent drive
      if ¬ present then
        pure (elements.setWidth 32, fileOffset + bytes)
      else if ((← get).ideDev drive).type = ideAtapi then
        pure (-1, fileOffset)
      else
        writeLoop fuel drive bytes src stale bytes.toNat bytes fileOffset
        pure (elements.setWidth 32, fileOffset + bytes)

end Functions

end Bus

/-! ## Sectors -/

/-- The errors of a device, for the functions that drop what a failed transfer leaves. -/
def mediumErrors (medium : Option Medium) : DeviceErrors := Bus.deviceErrors medium fun _ => 0

/-- What a failed transfer leaves in the buffer makes no difference. -/
theorem loadSectorWith_torn {width : Nat} {faults other : ReadFaults} {drive : Fin 4}
    {bytesPerSector sector : BitVec width} {stale : Nat → BitVec 8} {drives : Drives}
    (same : faults.result = other.result) (large : 512 ≤ bytesPerSector.toNat) :
    loadSectorWith faults drive bytesPerSector sector stale drives =
      loadSectorWith other drive bytesPerSector sector stale drives := by
  have cleared : ∀ torn : Nat → BitVec 8,
      clear (overwrite stale 0 512 torn) bytesPerSector.toNat =
        clear stale bytesPerSector.toNat := by
    intro torn
    funext position
    unfold clear overwrite
    split_ifs
    all_goals first | rfl | omega
  unfold loadSectorWith ideReadSectorsWith
  dsimp only
  rw [same]
  by_cases failed : other.result (sector.setWidth 32) ≠ 0
  · simp only [if_pos failed]
    split_ifs
    all_goals first | rfl | simp only [cleared]
  · simp only [if_neg failed]

/-- The devices are made of the media, belong to the entries, and look like the drives. -/
structure Matches (media : Fin 4 → Option Medium) (bus : Bus) (drives : Drives) : Prop where
  /-- The channels and the entries belong together. -/
  wired : bus.Wired
  /-- The devices look like the drives. -/
  shows : bus.Shows drives
  /-- The devices are made of the media. -/
  media : ∀ drive, bus.medium drive = media drive

section Rounds

variable {width : Nat} {media : Fin 4 → Option Medium} {bus : Bus} {drives : Drives} {drive : Fin 4}
  {bytesPerSector sector bytes : BitVec width} {stale src : Nat → BitVec 8}

/-- A buffer makes no difference. -/
theorem Matches.fill (is : Matches media bus drives) (buffer : Nat → BitVec 8) :
    Matches media (bus.fill buffer) drives :=
  ⟨is.wired.fill, is.shows.fill, is.media⟩

/-- A result is the same on both sides. -/
theorem Matches.report (is : Matches media bus drives) (package : BitVec 8) :
    Matches media (bus.report package) { drives with package } :=
  ⟨is.wired.report, is.shows.report, is.media⟩

/-- A call keeps it. -/
theorem Matches.called (is : Matches media bus drives) {after : Bus} {next : Drives}
    {memory : Nat → BitVec 8} (called : bus.Called next memory after) : Matches media after next :=
  ⟨called.wired, called.shows, fun drive => (called.media drive).trans (is.media drive)⟩

/-- The size of a drive is that of its entry. -/
theorem Matches.size (is : Matches media bus drives) :
    (bus.ideDev drive).size = (drives.ideDev drive).size :=
  congrArg IDEDev.size (is.shows.ideDev drive)

/-- The type of a drive is that of its entry. -/
theorem Matches.type (is : Matches media bus drives) :
    (bus.ideDev drive).type = (drives.ideDev drive).type :=
  congrArg IDEDev.type (is.shows.ideDev drive)

/-- A sector comes into the buffer of a round. -/
theorem Matches.loadSector (is : Matches media bus drives) (large : 512 ≤ bytesPerSector.toNat)
    (sector : BitVec width) (stale : Nat → BitVec 8) :
    ∃ after,
      Settles (fun fuel => Bus.loadSector fuel drive bytesPerSector sector stale) bus () after ∧
      after.memory = (loadSectorWith (mediumErrors (media drive)).reads drive bytesPerSector sector
        stale drives).1 ∧
      Matches media after
        (loadSectorWith (mediumErrors (media drive)).reads drive bytesPerSector sector stale
          drives).2 := by
  have filled := is.fill stale
  have size : ((bus.fill stale).ideDev drive).size = (drives.ideDev drive).size := filled.size
  have torn := @loadSectorWith_torn width (mediumErrors (media drive)).reads
    (Bus.deviceErrors (media drive) stale).reads drive bytesPerSector sector stale drives rfl large
  rw [torn, loadSectorWith]
  by_cases beyond : sector ≥ (drives.ideDev drive).size.setWidth width
  · rw [if_pos beyond]
    refine ⟨(bus.fill stale).fill (clear stale bytesPerSector.toNat),
      .bind_modify (.bind_get (.of_ok fun _ => ?_)), rfl, filled.fill _⟩
    rw [if_pos (size ▸ beyond)]
    rfl
  · obtain ⟨read, settles, called⟩ :=
      Bus.ideReadSectors_shows filled.wired filled.shows drive (sector.setWidth 32)
    rw [filled.media drive, Bus.memory_fill] at called
    have now := filled.called called
    have package := called.shows.package
    have memory := called.memory
    rw [if_neg beyond]
    generalize ideReadSectorsWith (Bus.deviceErrors (media drive) stale).reads drive
      (sector.setWidth 32) stale drives = transferred at now package memory ⊢
    obtain ⟨buffer, next⟩ := transferred
    dsimp only at now package memory ⊢
    by_cases failed : next.package ≠ 0
    · rw [if_pos failed]
      refine ⟨(read.fill (clear read.memory bytesPerSector.toNat)).report 0,
        .bind_modify (.bind_get (.congr (fun _ => by rw [if_neg (size ▸ beyond)])
          (.bind settles (.bind_get (.of_ok fun _ => ?_))))), ?_, (now.fill _).report 0⟩
      · rw [if_pos (package ▸ failed)]
        rfl
      · rw [← memory]
        rfl
    · rw [if_neg failed]
      refine ⟨read, .bind_modify (.bind_get (.congr (fun _ => by rw [if_neg (size ▸ beyond)])
        (.bind settles (.bind_get (.of_ok fun _ => ?_))))), memory, now⟩
      rw [if_neg (package ▸ failed)]
      rfl

/-- The buffer of a round is stored. -/
theorem Matches.storeSector (is : Matches media bus drives) (sector : BitVec width) :
    ∃ after, Settles (fun fuel => Bus.storeSector fuel drive sector) bus () after ∧
      Matches media after
        (storeSectorUnder (mediumErrors (media drive)) drive sector bus.memory drives).1 := by
  have size : (bus.ideDev drive).size = (drives.ideDev drive).size := is.size
  unfold storeSectorUnder
  by_cases inside : sector < (drives.ideDev drive).size.setWidth width
  · obtain ⟨written, settles, called⟩ :=
      Bus.ideWriteSectors_shows is.wired is.shows drive (sector.setWidth 32)
    rw [is.media drive] at called
    have now := is.called called
    have package := called.shows.package
    have same : ideWriteSectorsUnder (Bus.deviceErrors (media drive) bus.memory) drive
        (sector.setWidth 32) bus.memory drives =
      ideWriteSectorsUnder (mediumErrors (media drive)) drive (sector.setWidth 32) bus.memory
        drives := rfl
    rw [same] at now package
    rw [if_pos inside]
    generalize ideWriteSectorsUnder (mediumErrors (media drive)) drive (sector.setWidth 32)
      bus.memory drives = stored at now package ⊢
    obtain ⟨next, commands⟩ := stored
    dsimp only at now package ⊢
    by_cases failed : next.package ≠ 0
    · refine ⟨written.report 0, .bind_get (.congr (fun _ => by rw [if_pos (size ▸ inside)])
        (.bind settles (.bind_get (.of_ok fun _ => ?_)))), now.report 0⟩
      rw [if_pos (package ▸ failed)]
      rfl
    · have still : { next with package := 0 } = next := by
        rw [← not_not.mp failed]
      refine ⟨written, .bind_get (.congr (fun _ => by rw [if_pos (size ▸ inside)])
        (.bind settles (.bind_get (.of_ok fun _ => ?_)))), still ▸ now⟩
      rw [if_neg (package ▸ failed)]
      rfl
  · rw [if_neg inside]
    refine ⟨bus, .bind_get (.of_ok fun _ => ?_), is⟩
    rw [if_neg (size ▸ inside)]
    rfl

/-- The loop of `IDEReadFunction` reads the same bytes. -/
theorem Matches.readLoop {rounds : Nat} {stale : Nat → Nat → BitVec 8} {state : ReadState width}
    (is : Matches media bus state.drives) (large : 512 ≤ bytesPerSector.toNat) :
    ∃ after, Settles (fun fuel => Bus.readLoop fuel drive bytesPerSector bytes stale rounds
          state.remaining state.currentOffset state.dest) bus
        (readLoopWith (mediumErrors (media drive)).reads drive bytesPerSector bytes stale rounds
          state).dest after ∧
      Matches media after (readLoopWith (mediumErrors (media drive)).reads drive bytesPerSector
        bytes stale rounds state).drives := by
  induction rounds generalizing bus state with
  | zero => exact ⟨bus, .returns, is⟩
  | succ rounds ih =>
    rw [readLoopWith]
    by_cases more : state.remaining > 0
    · obtain ⟨loaded, settles, memory, now⟩ :=
        is.loadSector large (state.currentOffset / bytesPerSector) (stale rounds)
      rw [if_pos more]
      obtain ⟨after, rest, last⟩ := @ih loaded (readRoundWith (mediumErrors (media drive)).reads
        drive bytesPerSector bytes (stale rounds) state) now
      refine ⟨after, .congr (fun _ => by rw [Bus.readLoop, if_pos more])
        (.bind settles (.bind_get ?_)), last⟩
      rw [memory]
      exact rest
    · rw [if_neg more]
      exact ⟨bus, .of_ok fun _ => by rw [Bus.readLoop, if_neg more]; rfl, is⟩

/-- The buffer before the bytes of a round. -/
theorem Matches.partSector (is : Matches media bus drives) (wide : 32 ≤ width) (part : Prop)
    [Decidable part] (sector : BitVec width) (stale : Nat → BitVec 8) :
    ∃ after, Settles (fun fuel => Bus.partSector fuel drive sector part stale) bus () after ∧
      after.memory = (if part then
        loadSectorWith (mediumErrors (media drive)).reads drive 512 sector stale drives
        else (stale, drives)).1 ∧
      Matches media after (if part then
        loadSectorWith (mediumErrors (media drive)).reads drive 512 sector stale drives
        else (stale, drives)).2 := by
  unfold Bus.partSector
  split_ifs
  · exact is.loadSector (Nat.le_of_eq (sectorBytes_toNat wide).symm) sector stale
  · exact ⟨bus.fill stale, .of_ok fun _ => rfl, rfl, is.fill stale⟩

/-- The loop of `IDEWriteFunction` stores the same sectors. -/
theorem Matches.writeLoop (wide : 32 ≤ width) {rounds : Nat} {stale : Nat → Nat → BitVec 8}
    {state : WriteState width} (is : Matches media bus state.drives) :
    ∃ after, Settles (fun fuel => Bus.writeLoop fuel drive bytes src stale rounds state.remaining
          state.currentOffset) bus () after ∧
      Matches media after (writeLoopUnder (mediumErrors (media drive)) drive bytes src stale rounds
        state).1.drives := by
  induction rounds generalizing bus state with
  | zero => exact ⟨bus, .returns, is⟩
  | succ rounds ih =>
    rw [writeLoopUnder]
    by_cases more : state.remaining > 0
    · obtain ⟨loaded, settles, memory, now⟩ :=
        @Matches.partSector width media bus state.drives drive is wide
          (state.currentOffset % 512 ≠ 0 ∨
            bytesThisIter 512 state.remaining state.currentOffset ≠ 512) _
          (state.currentOffset / 512) (stale rounds)
      let buffer := overwrite loaded.memory (state.currentOffset % 512).toNat
        (bytesThisIter 512 state.remaining state.currentOffset).toNat
        (slice src (bytes - state.remaining).toNat)
      obtain ⟨stored, settlesStore, next⟩ :=
        @Matches.storeSector width media _ _ drive (now.fill buffer) (state.currentOffset / 512)
      rw [Bus.memory_fill, show buffer = overwrite loaded.memory _ _ _ from rfl, memory] at next
      obtain ⟨after, rest, last⟩ := @ih stored (writeRoundUnder (mediumErrors (media drive)) drive
        bytes src (stale rounds) state).1 next
      rw [if_pos more]
      exact ⟨after, .congr (fun _ => by rw [Bus.writeLoop, if_pos more])
        (.bind settles (.bind_modify (.bind settlesStore rest))), last⟩
    · rw [if_neg more]
      exact ⟨bus, .of_ok fun _ => by rw [Bus.writeLoop, if_neg more]; rfl, is⟩

end Rounds

/-! ## Calls -/

section Calls

variable {width : Nat} {media : Fin 4 → Option Medium} {bus asked : Bus} {drives : Drives}
  {drive : Fin 4} {size elements offset : BitVec width} {stale : Nat → Nat → BitVec 8}
  {node : DriveNode width}

/-- Selecting a drive keeps it. -/
theorem Matches.asked_is (is : Matches media bus drives) (selected : Bus.Asked bus asked) :
    Matches media asked drives :=
  have same := Bus.sameMedia_contents selected.keeps selected.contents
  ⟨is.wired.same same, is.shows.same selected.keeps selected.contents,
    fun drive => same.medium_eq.trans (is.media drive)⟩

/-- The sectors of a drive have 512 bytes at least. -/
theorem sectorSize_large {type : BitVec 16} (wide : 32 ≤ width) :
    512 ≤ (if type = ideAtapi then (2048 : BitVec width) else 512).toNat := by
  have room : 2 ^ 32 ≤ 2 ^ width := Nat.pow_le_pow_right (by decide) wide
  split_ifs
  · have size : (2048 : BitVec width).toNat = 2048 :=
      Nat.mod_eq_of_lt (show 2048 < 2 ^ width by omega)
    rw [size]
    decide
  · exact Nat.le_of_eq (sectorBytes_toNat wide).symm

/-- `IDEReadFunction` returns what it returns on the drives. -/
theorem Matches.ideReadFunction (is : Matches media bus drives) (wide : 32 ≤ width)
    {dest : Nat → BitVec 8} {answer : BitVec 32 × (Nat → BitVec 8)}
    (returned : ideReadFunctionWith (mediumErrors (media drive)).reads (some dest) size elements
      stale ⟨drive, offset, drives⟩ = .ok answer node) :
    ∃ after, Settles (fun fuel => Bus.ideReadFunction fuel drive offset (some dest) size elements
          stale) bus (answer.1, answer.2, node.fileOffset) after ∧
      Matches media after node.drives := by
  unfold ideReadFunctionWith at returned
  unfold Bus.ideReadFunction
  dsimp only at returned ⊢
  by_cases empty : size = 0 ∨ elements = 0
  · rw [if_pos empty] at returned
    cases returned
    exact ⟨bus, .of_ok fun _ => by rw [if_pos empty]; rfl, is⟩
  · rw [if_neg empty, bind_of_ok (get_ok.mpr ⟨rfl, rfl⟩)] at returned
    rcases Bus.isDrivePresent_asked is.wired is.shows drive with
      ⟨missing, asked, sees, selected⟩ | ⟨device, asked, found⟩
    · rw [if_pos (by rw [missing]; decide)] at returned
      obtain ⟨zeros, middle, zeroed, rest⟩ := bind_ok.mp returned
      obtain ⟨cleared, rfl⟩ := ofExcept_ok.mp zeroed
      cases rest
      refine ⟨asked, .congr (fun _ => by rw [if_neg empty]) (.bind (.of_ok fun _ => sees)
        (.of_ok fun _ => ?_)), is.asked_is selected⟩
      rw [if_pos (by decide), bind_of_ok (ofExcept_ok.mpr ⟨cleared, rfl⟩)]
      rfl
    · rw [if_neg (not_not.mpr found.present)] at returned
      cases returned
      have now := is.asked_is found.toAsked
      have type : (asked.ideDev drive).type = (drives.ideDev drive).type := now.type
      obtain ⟨after, settles, last⟩ := @Matches.readLoop width media asked drive _ (size * elements)
        (size * elements).toNat stale ⟨size * elements, offset, dest, drives⟩ now
        (sectorSize_large wide)
      refine ⟨after, .congr (fun _ => by rw [if_neg empty]) (.bind (.of_ok fun _ => found.answer)
        (.congr (fun _ => by rw [if_neg (by decide)]) (.bind_get ?_))), last⟩
      rw [type]
      exact .bind settles .returns

/-- `IDEWriteFunction` returns what it returns on the drives. -/
theorem Matches.ideWriteFunction (is : Matches media bus drives) (wide : 32 ≤ width)
    {src : Nat → BitVec 8} {count : BitVec 32 × List SectorCommand}
    (returned : ideWriteFunctionUnder (mediumErrors (media drive)) (some src) size elements stale
      ⟨drive, offset, drives⟩ = .ok count node) :
    ∃ after, Settles (fun fuel => Bus.ideWriteFunction fuel drive offset (some src) size elements
          stale) bus (count.1, node.fileOffset) after ∧
      Matches media after node.drives := by
  unfold ideWriteFunctionUnder at returned
  unfold Bus.ideWriteFunction
  dsimp only at returned ⊢
  by_cases empty : size = 0 ∨ elements = 0
  · rw [if_pos empty] at returned
    cases returned
    exact ⟨bus, .of_ok fun _ => by rw [if_pos empty]; rfl, is⟩
  · rw [if_neg empty, bind_of_ok (get_ok.mpr ⟨rfl, rfl⟩)] at returned
    rcases Bus.isDrivePresent_asked is.wired is.shows drive with
      ⟨missing, asked, sees, selected⟩ | ⟨device, asked, found⟩
    · rw [if_pos (by rw [missing]; decide)] at returned
      cases returned
      exact ⟨asked, .congr (fun _ => by rw [if_neg empty]) (.bind (.of_ok fun _ => sees)
        (.of_ok fun _ => rfl)), is.asked_is selected⟩
    · rw [if_neg (not_not.mpr found.present)] at returned
      have now := is.asked_is found.toAsked
      have type : (asked.ideDev drive).type = (drives.ideDev drive).type := now.type
      by_cases atapi : (drives.ideDev drive).type = ideAtapi
      · rw [if_pos atapi] at returned
        cases returned
        refine ⟨asked, .congr (fun _ => by rw [if_neg empty]) (.bind (.of_ok fun _ => found.answer)
          (.congr (fun _ => by rw [if_neg (by decide)]) (.bind_get (.of_ok fun _ => ?_)))), now⟩
        rw [if_pos (type ▸ atapi)]
        rfl
      · rw [if_neg atapi] at returned
        cases returned
        obtain ⟨after, settles, last⟩ := @Matches.writeLoop width media asked drive
          (size * elements) src wide (size * elements).toNat stale ⟨size * elements, offset, drives⟩
          now
        refine ⟨after, .congr (fun _ => by rw [if_neg empty]) (.bind (.of_ok fun _ => found.answer)
          (.congr (fun _ => by rw [if_neg (by decide)]) (.bind_get
            (.congr (fun _ => by rw [if_neg (type ▸ atapi)]) (.bind settles .returns))))), last⟩

end Calls

/-! ## Runs -/

/-- A call of one of the two functions on the node of a drive, with its `FileOffset`, its buffer,
and what the stack holds before each round. -/
inductive NodeCall (width : Nat)
  /-- `IDEReadFunction`. -/
  | read (drive : Fin 4) (fileOffset size elements : BitVec width) (dest : Nat → BitVec 8)
    (stale : Nat → Nat → BitVec 8)
  /-- `IDEWriteFunction`. -/
  | write (drive : Fin 4) (fileOffset size elements : BitVec width) (src : Nat → BitVec 8)
    (stale : Nat → Nat → BitVec 8)

/-- What a call returns: its result, its buffer and `FileOffset`. -/
abbrev NodeAnswer (width : Nat) : Type := BitVec 32 × (Nat → BitVec 8) × BitVec width

namespace NodeCall

variable {width : Nat}

/-- A call over the ports. -/
def perform (fuel : Nat) : NodeCall width → Kernel Bus (NodeAnswer width)
  | read drive fileOffset size elements dest stale =>
    Bus.ideReadFunction fuel drive fileOffset (some dest) size elements stale
  | write drive fileOffset size elements src stale => do
    let (count, position) ←
      Bus.ideWriteFunction fuel drive fileOffset (some src) size elements stale
    pure (count, src, position)

/-- A call on drives that are a store of sectors. -/
def answer (media : Fin 4 → Option Medium) : NodeCall width → Kernel Drives (NodeAnswer width)
  | read drive fileOffset size elements dest stale => fun drives =>
    match ideReadFunctionWith (mediumErrors (media drive)).reads (some dest) size elements stale
      ⟨drive, fileOffset, drives⟩ with
    | .ok (count, bytes) node => .ok (count, bytes, node.fileOffset) node.drives
    | .error stop node => .error stop node.drives
  | write drive fileOffset size elements src stale => fun drives =>
    match ideWriteFunctionUnder (mediumErrors (media drive)) (some src) size elements stale
      ⟨drive, fileOffset, drives⟩ with
    | .ok (count, _) node => .ok (count, src, node.fileOffset) node.drives
    | .error stop node => .error stop node.drives

/-- A call over the ports returns what it returns on the drives. -/
theorem perform_matches {media : Fin 4 → Option Medium} {bus : Bus} {drives next : Drives}
    {result : NodeAnswer width} (call : NodeCall width) (wide : 32 ≤ width)
    (is : Matches media bus drives) (returned : call.answer media drives = .ok result next) :
    ∃ after, Settles (fun fuel => call.perform fuel) bus result after ∧
      Matches media after next := by
  cases call with
  | read drive fileOffset size elements dest stale =>
    unfold answer at returned
    dsimp only at returned
    split at returned
    · rename_i count bytes node ended
      cases returned
      exact is.ideReadFunction wide ended
    · cases returned
  | write drive fileOffset size elements src stale =>
    unfold answer at returned
    dsimp only at returned
    split at returned
    · rename_i count commands node ended
      cases returned
      obtain ⟨after, settles, last⟩ := is.ideWriteFunction wide ended
      exact ⟨after, .bind settles .returns, last⟩
    · cases returned

/-- Runs of calls over the ports return what they return on the drives. -/
theorem performs_matches {media : Fin 4 → Option Medium} {bus : Bus} {drives last : Drives}
    {results : List (NodeAnswer width)} (calls : List (NodeCall width)) (wide : 32 ≤ width)
    (is : Matches media bus drives)
    (returned : calls.mapM (answer media) drives = .ok results last) :
    ∃ after, Settles (fun fuel => calls.mapM (perform fuel)) bus results after ∧
      Matches media after last := by
  -- By induction on the calls: each leaves devices that look like the drives.
  induction calls generalizing bus drives results with
  | nil =>
    rw [List.mapM_nil] at returned
    cases returned
    exact ⟨bus, .of_ok fun _ => by rw [List.mapM_nil]; rfl, is⟩
  | cons call calls ih =>
    rw [List.mapM_cons] at returned
    obtain ⟨result, next, first, rest⟩ := bind_ok.mp returned
    obtain ⟨others, final, ended, joined⟩ := bind_ok.mp rest
    cases joined
    obtain ⟨middle, settles, now⟩ := call.perform_matches wide is first
    obtain ⟨after, settlesAll, final⟩ := ih now ended
    refine ⟨after, .congr (fun _ => by rw [List.mapM_cons]) (.bind settles (.bind settlesAll ?_)),
      final⟩
    exact .returns

end NodeCall

namespace NodeCall

variable {width : Nat}

/-- The drive of a call. -/
def drive : NodeCall width → Fin 4
  | read drive _ _ _ _ _ => drive
  | write drive _ _ _ _ _ => drive

/-- The end of the range of a call does not overflow. -/
def InRange : NodeCall width → Prop
  | read _ fileOffset size elements _ _ => Fits fileOffset size elements
  | write _ fileOffset size elements _ _ => Fits fileOffset size elements

/-- The buffer behind a call when the drives are arrays of bytes. -/
def buffer (arrays : Fin 4 → Nat → BitVec 8) : NodeCall width → Nat → BitVec 8
  | read drive fileOffset size elements dest _ =>
    overwrite dest 0 (size.toNat * elements.toNat) (slice (arrays drive) fileOffset.toNat)
  | write _ _ _ _ src _ => src

/-- The arrays behind a call. A write does not reach behind the end. -/
def arrays (limits : Fin 4 → Nat) (before : Fin 4 → Nat → BitVec 8) :
    NodeCall width → Fin 4 → Nat → BitVec 8
  | read _ _ _ _ _ _ => before
  | write drive fileOffset size elements src _ =>
    Function.update before drive (overwriteBelow (limits drive) (before drive) fileOffset.toNat
      (size.toNat * elements.toNat) src)

/-- The buffers and the arrays behind calls one after the other. -/
def buffers (limits : Fin 4 → Nat) (before : Fin 4 → Nat → BitVec 8) :
    List (NodeCall width) → List (Nat → BitVec 8) × (Fin 4 → Nat → BitVec 8)
  | [] => ([], before)
  | call :: calls =>
    let (others, last) := buffers limits (call.arrays limits before) calls
    (call.buffer before :: others, last)

end NodeCall

/-- A disk without faults. -/
structure Sound (media : Fin 4 → Option Medium) (drives : Drives) (drive : Fin 4) : Prop where
  /-- It is there, and is no drive for discs. -/
  ready : Ready drives drive
  /-- Its sectors can be read and written. -/
  faultless : ∀ medium, media drive = some medium →
    ∀ lba, medium.readFault lba = none ∧ medium.writeFault lba = none

section Bytes

variable {width : Nat} {media : Fin 4 → Option Medium} {drives next : Drives} {drive : Fin 4}

/-- The errors of a disk without faults. -/
theorem Sound.errors (sound : Sound media drives drive) :
    mediumErrors (media drive) = ReadFaults.never.willing := by
  unfold mediumErrors Bus.deviceErrors ReadFaults.willing ReadFaults.never
  cases made : media drive with
  | none => rfl
  | some medium =>
    have faultless := sound.faultless medium made
    simp only [Option.bind_some, (faultless _).1, (faultless _).2]
    rfl

/-- It stays one while the entries and the status registers stay. -/
theorem Sound.keeps (sound : Sound media drives drive) (ideDev : next.ideDev = drives.ideDev)
    (status : next.status = drives.status) : Sound media next drive :=
  ⟨⟨ideDev ▸ sound.ready.reserved, status ▸ sound.ready.status, ideDev ▸ sound.ready.type⟩,
    sound.faultless⟩

/-- The number of bytes of the drives is that of their entries. -/
theorem byteCount_congr (ideDev : next.ideDev = drives.ideDev) :
    byteCount next = byteCount drives := by
  funext drive
  unfold byteCount
  rw [ideDev]

/-- Other drives have the same bytes. -/
theorem content_elsewhere (frame : Elsewhere drives next drive) {other : Fin 4}
    (apart : other ≠ drive) : content next other = content drives other := by
  funext position
  unfold content
  rw [byteCount_congr frame.ideDev, frame.sector other _ _ (.inl apart)]

/-- A call on a disk without faults does what it does to its array of bytes. -/
theorem NodeCall.answer_bytes (call : NodeCall width) (wide : 32 ≤ width)
    (sound : Sound media drives call.drive) (fits : call.InRange) :
    ∃ result next, call.answer media drives = .ok result next ∧
      result.2.1 = call.buffer (content drives) ∧
      content next = call.arrays (byteCount drives) (content drives) ∧
      next.ideDev = drives.ideDev ∧ next.status = drives.status := by
  cases call with
  | read drive fileOffset size elements dest stale =>
    have errors := sound.errors
    obtain ⟨value, package, returned⟩ := @Ready.ideReadFunction width ⟨drive, fileOffset, drives⟩
      size elements stale sound.ready wide fits dest
    have same : ideReadFunctionWith (mediumErrors (media drive)).reads (some dest) size elements
        stale = ideReadFunction (some dest) size elements stale := by
      rw [show mediumErrors (media drive) = _ from errors]
      exact ideReadFunctionWith_never ..
    refine ⟨(value, overwrite dest 0 (size.toNat * elements.toNat)
      (slice (content drives drive) fileOffset.toNat), fileOffset + size * elements),
      { drives with package }, ?_, rfl, rfl, rfl, rfl⟩
    unfold NodeCall.answer
    dsimp only
    rw [same, returned]
  | write drive fileOffset size elements src stale =>
    have errors := sound.errors
    obtain ⟨value, after, returned, frame, replaced⟩ := @Ready.ideWriteFunction width
      ⟨drive, fileOffset, drives⟩ size elements stale sound.ready wide fits src
    have same := @ideWriteFunctionUnder_willing width .never (some src) size elements stale
    rw [ideWriteFunctionWith_never] at same
    rw [← same] at returned
    obtain ⟨⟨count, commands⟩, node, issued, dropped⟩ := bind_ok.mp returned
    cases dropped
    refine ⟨(count, src, fileOffset + size * elements), after, ?_, rfl, ?_, frame.ideDev,
      frame.status⟩
    · unfold NodeCall.answer
      dsimp only
      rw [show mediumErrors (media drive) = _ from errors, issued]
    · funext other
      by_cases here : other = drive
      · subst here
        rw [NodeCall.arrays, Function.update_self]
        exact replaced
      · rw [NodeCall.arrays, Function.update_of_ne here]
        exact content_elsewhere frame here

/-- Runs of calls on disks without faults do what they do to arrays of bytes. -/
theorem NodeCall.answers_bytes (calls : List (NodeCall width)) (wide : 32 ≤ width)
    (sound : ∀ call ∈ calls, Sound media drives call.drive) (fits : ∀ call ∈ calls, call.InRange) :
    ∃ results last, calls.mapM (answer media) drives = .ok results last ∧
      results.map (fun result => result.2.1) =
        (buffers (byteCount drives) (content drives) calls).1 ∧
      content last = (buffers (byteCount drives) (content drives) calls).2 := by
  -- By induction on the calls: each keeps the entries, so the disks stay without faults.
  induction calls generalizing drives with
  | nil => exact ⟨[], drives, by rw [List.mapM_nil]; rfl, rfl, rfl⟩
  | cons call calls ih =>
    obtain ⟨result, next, first, bytes, now, ideDev, status⟩ := call.answer_bytes wide
      (sound call List.mem_cons_self) (fits call List.mem_cons_self)
    obtain ⟨results, last, rest, others, final⟩ := @ih next
      (fun other member => (sound other (List.mem_cons_of_mem _ member)).keeps ideDev status)
      (fun other member => fits other (List.mem_cons_of_mem _ member))
    rw [byteCount_congr ideDev, now] at others final
    refine ⟨result :: results, last, ?_, ?_, final⟩
    · rw [List.mapM_cons]
      exact bind_ok.mpr ⟨result, next, first, bind_ok.mpr ⟨results, last, rest, rfl⟩⟩
    · rw [List.map_cons, others, bytes]
      rfl

end Bytes

/-- The disk of the example has no faults. -/
theorem sampleBus_sound : Sound (Bus.sampleBus false).medium sampleDrives 0 where
  ready := ⟨by decide, by decide, rfl⟩
  faultless medium made lba := by
    cases made
    exact Bus.sampleDevice_sound false lba

end Unarddeg.Ide
