import Unarddeg.Modules.Ide.Faults

/-!
# Writes with commands that fail

`IDEWriteFunction` on a drive that refuses sectors. `IDEAccess` does not look at what the drive
reports about a command that writes, and `IDEWriteFunction` goes on behind the end of the drive and
on a drive that is not there. So its result is the number of elements whatever the drive took
(`write_result`): the bytes of the sectors that lie on the drive and were not refused.
-/

namespace Unarddeg.Ide

open Library

/-! ## Commands -/

/-- A command that writes a sector, with its data. -/
structure SectorCommand where
  /-- The sector. -/
  lba : BitVec 32
  /-- The bytes of `sector_buffer`. -/
  buffer : Nat → BitVec 8

/-- The errors of an ATA drive. -/
structure DeviceErrors where
  /-- What comes of reads. -/
  reads : ReadFaults
  /-- The sectors whose command to write reports an error. -/
  refused : BitVec 32 → Bool

/-- `IDEAccess` with `ATA_WRITE` and one sector. It does not look at what `IDEPolling` returns: its
result is 0. -/
def ideAccessWrite (errors : DeviceErrors) (drive : Fin 4) (lba : BitVec 32)
    (buffer : Nat → BitVec 8) (drives : Drives) : BitVec 8 × Drives × List SectorCommand :=
  (0, if errors.refused lba then drives else drives.store drive lba buffer, [⟨lba, buffer⟩])

/-- `IDEWriteSectors` with one sector, and the commands that it issues. -/
def ideWriteSectorsUnder (errors : DeviceErrors) (drive : Fin 4) (lba : BitVec 32)
    (buffer : Nat → BitVec 8) (drives : Drives) : Drives × List SectorCommand :=
  let dev := drives.ideDev drive
  if ¬ isDrivePresent drives drive then ({ drives with package := 0 }, [])
  else if dev.reserved = 0 then ({ drives with package := 0x1 }, [])
  else if outside dev lba then ({ drives with package := 0x2 }, [])
  else if dev.type = ideAta then
    let (err, next, commands) := ideAccessWrite errors drive lba buffer drives
    ({ next with package := err }, commands)
  else if dev.type = ideAtapi then ({ drives with package := 8 }, [])
  else ({ drives with package := 0 }, [])

section Functions

variable {width : Nat} (errors : DeviceErrors)

/-- The end of a round: a sector in front of the end is stored, and its error is dropped. -/
def storeSectorUnder (drive : Fin 4) (sector : BitVec width) (buffer : Nat → BitVec 8)
    (drives : Drives) : Drives × List SectorCommand :=
  if sector < (drives.ideDev drive).size.setWidth width then
    let (next, commands) := ideWriteSectorsUnder errors drive (sector.setWidth 32) buffer drives
    ({ next with package := 0 }, commands)
  else (drives, [])

/-- A round of the loop of `IDEWriteFunction`. -/
def writeRoundUnder (drive : Fin 4) (bytes : BitVec width) (src stale : Nat → BitVec 8)
    (state : WriteState width) : WriteState width × List SectorCommand :=
  let sector := state.currentOffset / 512
  let offsetInSector := state.currentOffset % 512
  let count := bytesThisIter 512 state.remaining state.currentOffset
  let (old, drives) :=
    if offsetInSector ≠ 0 ∨ count ≠ 512 then
      loadSectorWith errors.reads drive 512 sector stale state.drives
    else (stale, state.drives)
  let buffer := overwrite old offsetInSector.toNat count.toNat
    (slice src (bytes - state.remaining).toNat)
  let (drives, commands) := storeSectorUnder errors drive sector buffer drives
  ({ remaining := state.remaining - count
     currentOffset := state.currentOffset + count
     drives }, commands)

/-- The loop of `IDEWriteFunction`, at most as many rounds as given. -/
def writeLoopUnder (drive : Fin 4) (bytes : BitVec width) (src : Nat → BitVec 8)
    (stale : Nat → Nat → BitVec 8) :
    Nat → WriteState width → WriteState width × List SectorCommand
  | 0, state => (state, [])
  | rounds + 1, state =>
    if state.remaining > 0 then
      let (next, commands) := writeRoundUnder errors drive bytes src (stale rounds) state
      let (last, later) := writeLoopUnder drive bytes src stale rounds next
      (last, commands ++ later)
    else (state, [])

/-- `IDEWriteFunction` on drives with errors: the result, and the commands that were issued. -/
def ideWriteFunctionUnder (buf : Option (Nat → BitVec 8)) (size elements : BitVec width)
    (stale : Nat → Nat → BitVec 8) :
    Kernel (DriveNode width) (BitVec 32 × List SectorCommand) := do
  match buf with
  | none => panicWith .nullPointerDereference
  | some src =>
    if size = 0 ∨ elements = 0 then
      pure (0, [])
    else
      let node ← get
      let bytes := size * elements
      if ¬ isDrivePresent node.drives node.drive then
        set { node with fileOffset := node.fileOffset + bytes }
        pure (elements.setWidth 32, [])
      else if (node.drives.ideDev node.drive).type = ideAtapi then
        pure (-1, [])
      else
        let (last, commands) := writeLoopUnder errors node.drive bytes src stale bytes.toNat
          ⟨bytes, node.fileOffset, node.drives⟩
        set { node with fileOffset := node.fileOffset + bytes, drives := last.drives }
        pure (elements.setWidth 32, commands)

end Functions

/-- The drive accepted a byte at a position: a command that was not refused holds it there. -/
def Accepted (errors : DeviceErrors) (commands : List SectorCommand) (position : Nat)
    (byte : BitVec 8) : Prop :=
  ∃ command ∈ commands, errors.refused command.lba = false ∧
    command.lba.toNat = position / 512 ∧ command.buffer (position % 512) = byte

/-! ## Without refusals -/

section Willing

variable {width : Nat} {faults : ReadFaults}

/-- A drive that refuses nothing. -/
def ReadFaults.willing (faults : ReadFaults) : DeviceErrors := ⟨faults, fun _ => false⟩

/-- A sector is stored as before when nothing is refused. -/
theorem ideWriteSectorsUnder_willing (drive : Fin 4) (lba : BitVec 32) (buffer : Nat → BitVec 8)
    (drives : Drives) : (ideWriteSectorsUnder faults.willing drive lba buffer drives).1 =
      ideWriteSectors drive lba buffer drives := by
  unfold ideWriteSectorsUnder ideWriteSectors
  dsimp only
  split_ifs
  all_goals rfl

/-- A round ends as before when nothing is refused. -/
theorem storeSectorUnder_willing (drive : Fin 4) (sector : BitVec width) (buffer : Nat → BitVec 8)
    (drives : Drives) : (storeSectorUnder faults.willing drive sector buffer drives).1 =
      if sector < (drives.ideDev drive).size.setWidth width then
        { ideWriteSectors drive (sector.setWidth 32) buffer drives with package := 0 }
      else drives := by
  unfold storeSectorUnder
  rw [← @ideWriteSectorsUnder_willing faults]
  split_ifs
  all_goals rfl

/-- The loop is the one from before when nothing is refused. -/
theorem writeLoopUnder_willing (drive : Fin 4) (bytes : BitVec width) (src : Nat → BitVec 8)
    (stale : Nat → Nat → BitVec 8) (rounds : Nat) (state : WriteState width) :
    (writeLoopUnder faults.willing drive bytes src stale rounds state).1 =
      writeLoopWith faults drive bytes src stale rounds state := by
  induction rounds generalizing state with
  | zero => rfl
  | succ rounds ih =>
    have round : (writeRoundUnder faults.willing drive bytes src (stale rounds) state).1 =
        writeRoundWith faults drive bytes src (stale rounds) state := by
      unfold writeRoundUnder writeRoundWith
      dsimp only
      rw [storeSectorUnder_willing]
      rfl
    rw [writeLoopUnder, writeLoopWith]
    by_cases more : state.remaining > 0
    · rw [if_pos more, if_pos more, ← round, ← ih]
    · rw [if_neg more, if_neg more]

/-- `IDEWriteFunction` is the one from before when nothing is refused. -/
theorem ideWriteFunctionUnder_willing (buf : Option (Nat → BitVec 8)) (size elements : BitVec width)
    (stale : Nat → Nat → BitVec 8) :
    (ideWriteFunctionUnder faults.willing buf size elements stale >>= fun result =>
      pure result.1) = ideWriteFunctionWith faults buf size elements stale := by
  cases buf with
  | none => rfl
  | some src =>
    unfold ideWriteFunctionUnder ideWriteFunctionWith
    simp only [← writeLoopUnder_willing]
    by_cases empty : size = 0 ∨ elements = 0
    · rw [if_pos empty, if_pos empty]
      rfl
    · rw [if_neg empty, if_neg empty, bind_assoc]
      refine congrArg (get >>= ·) (funext fun node => ?_)
      by_cases absent : ¬ isDrivePresent node.drives node.drive
      · rw [if_pos absent, if_pos absent]
        rfl
      · rw [if_neg absent, if_neg absent]
        split_ifs
        · rfl
        · rfl

end Willing

/-! ## The loop -/

/-- The commands of a write to some positions: each is for a sector of the range in front of the
end, with the bytes of the range, and every such sector has one. -/
structure Covers (commands : List SectorCommand) (sectors offset count : Nat)
    (src : Nat → BitVec 8) : Prop where
  /-- The sectors of the commands. -/
  inside : ∀ command ∈ commands, ∃ position, offset ≤ position ∧ position < offset + count ∧
    position / 512 < sectors ∧ command.lba.toNat = position / 512
  /-- Their bytes. -/
  bytes : ∀ command ∈ commands, ∀ position, command.lba.toNat = position / 512 →
    offset ≤ position → position < offset + count →
      command.buffer (position % 512) = src (position - offset)
  /-- All sectors. -/
  all : ∀ position, offset ≤ position → position < offset + count → position / 512 < sectors →
    ∃ command ∈ commands, command.lba.toNat = position / 512

section Covers

variable {first second commands : List SectorCommand} {sectors offset count rest : Nat}
  {src : Nat → BitVec 8} {errors : DeviceErrors}

/-- No commands cover an empty range. -/
theorem covers_empty : Covers [] sectors offset 0 src where
  inside := List.forall_mem_nil _
  bytes := List.forall_mem_nil _
  all _ above below := absurd below (Nat.not_lt.mpr above)

/-- The command for a sector covers a range in it. -/
theorem covers_sector {lba : BitVec 32} (some : 0 < count) (inside : offset % 512 + count ≤ 512)
    (named : offset / 512 < sectors → lba.toNat = offset / 512) (old : Nat → BitVec 8) :
    Covers (if offset / 512 < sectors then [⟨lba, overwrite old (offset % 512) count src⟩] else [])
      sectors offset count src := by
  by_cases before : offset / 512 < sectors
  · rw [if_pos before]
    refine ⟨List.forall_mem_singleton.mpr ?_, List.forall_mem_singleton.mpr ?_, ?_⟩
    · exact ⟨offset, Nat.le_refl _, by omega, before, named before⟩
    · intro position sector above below
      have same := named before
      show overwrite old (offset % 512) count src (position % 512) = src (position - offset)
      rw [overwrite, if_pos (by omega)]
      congr 1
      omega
    · intro position above below _
      refine ⟨_, List.mem_singleton_self _, ?_⟩
      rw [named before]
      omega
  · rw [if_neg before]
    refine ⟨List.forall_mem_nil _, List.forall_mem_nil _, fun position above below front => ?_⟩
    exact absurd front (by omega)

/-- The commands of two parts cover the whole, where the first ends at the end of a sector. -/
theorem Covers.append (left : Covers first sectors offset count src)
    (right : Covers second sectors (offset + count) rest (slice src count))
    (ends : rest = 0 ∨ (offset + count) % 512 = 0) :
    Covers (first ++ second) sectors offset (count + rest) src where
  inside command member := by
    rcases List.mem_append.mp member with early | late
    · obtain ⟨position, above, below, before, sector⟩ := left.inside command early
      exact ⟨position, above, by omega, before, sector⟩
    · obtain ⟨position, above, below, before, sector⟩ := right.inside command late
      exact ⟨position, by omega, by omega, before, sector⟩
  bytes command member position sector above below := by
    rcases List.mem_append.mp member with early | late
    · obtain ⟨other, _, inside, _, same⟩ := left.inside command early
      exact left.bytes command early position sector above (by omega)
    · obtain ⟨other, outside, inside, _, same⟩ := right.inside command late
      rw [right.bytes command late position sector (by omega) (by omega), slice]
      congr 1
      omega
  all position above below before := by
    by_cases early : position < offset + count
    · obtain ⟨command, member, sector⟩ := left.all position above early before
      exact ⟨command, List.mem_append_left _ member, sector⟩
    · obtain ⟨command, member, sector⟩ := right.all position (by omega) (by omega) before
      exact ⟨command, List.mem_append_right _ member, sector⟩

/-- A byte of the range is accepted if and only if its sector lies in front of the end and is not
refused. -/
theorem Covers.accepted (covers : Covers commands sectors offset count src) {position : Nat}
    (above : offset ≤ position) (below : position < offset + count) :
    Accepted errors commands position (src (position - offset)) ↔
      position / 512 < sectors ∧ errors.refused (.ofNat 32 (position / 512)) = false := by
  have named : ∀ command : SectorCommand, command.lba.toNat = position / 512 →
      command.lba = .ofNat 32 (position / 512) := by
    intro command sector
    rw [← sector, BitVec.ofNat_toNat, BitVec.setWidth_eq]
  constructor
  · rintro ⟨command, member, taken, sector, _⟩
    obtain ⟨other, _, _, before, same⟩ := covers.inside command member
    exact ⟨by omega, named command sector ▸ taken⟩
  · rintro ⟨before, taken⟩
    obtain ⟨command, member, sector⟩ := covers.all position above below before
    refine ⟨command, member, ?_, sector, covers.bytes command member position sector above below⟩
    rw [named command sector]
    exact taken

end Covers

section Loop

variable {width : Nat} {errors : DeviceErrors} {drives : Drives} {drive : Fin 4}
  {bytes : BitVec width} {src : Nat → BitVec 8}

/-- A drive that is ready gets a command for a sector in front of the end. -/
theorem Ready.storeSectorUnder (ready : Ready drives drive) (wide : 32 ≤ width)
    (sector : BitVec width) (buffer : Nat → BitVec 8) :
    ∃ after commands, storeSectorUnder errors drive sector buffer drives = (after, commands) ∧
      Elsewhere drives after drive ∧
      commands = if sector.toNat < (drives.ideDev drive).size.toNat then
        [⟨sector.setWidth 32, buffer⟩] else [] := by
  have bound := (drives.ideDev drive).size.isLt
  unfold Ide.storeSectorUnder
  by_cases before : sector < (drives.ideDev drive).size.setWidth width
  · rw [if_pos before]
    rw [BitVec.lt_def, size_toNat wide] at before
    have small : (sector.setWidth 32).toNat < (drives.ideDev drive).size.toNat := by
      rw [BitVec.toNat_setWidth, Nat.mod_eq_of_lt (by omega)]
      exact before
    have issued : ideWriteSectorsUnder errors drive (sector.setWidth 32) buffer drives =
        ({ if errors.refused (sector.setWidth 32) then drives
            else drives.store drive (sector.setWidth 32) buffer with package := 0 },
          [⟨sector.setWidth 32, buffer⟩]) := by
      unfold ideWriteSectorsUnder ideAccessWrite
      simp only [ready.present, not_true_eq_false, if_false, if_neg ready.reserved,
        if_neg (not_outside small), if_pos ready.type]
    rw [issued]
    refine ⟨_, _, rfl, ?_, (if_pos before).symm⟩
    by_cases refused : errors.refused (sector.setWidth 32) = true
    · simp only [if_pos refused]
      exact elsewhere_package
    · simp only [if_neg refused]
      exact (elsewhere_store small).trans elsewhere_package
  · rw [if_neg before]
    rw [BitVec.lt_def, size_toNat wide] at before
    exact ⟨drives, [], rfl, Elsewhere.refl, (if_neg before).symm⟩

/-- The commands of a round cover its range. -/
theorem Ready.writeRoundUnder (ready : Ready drives drive) (wide : 32 ≤ width)
    {remaining : BitVec width} (some : 0 < remaining.toNat) (bytes offset : BitVec width)
    (src stale : Nat → BitVec 8) :
    ∃ after commands, writeRoundUnder errors drive bytes src stale ⟨remaining, offset, drives⟩ =
        (⟨remaining - bytesThisIter 512 remaining offset,
          offset + bytesThisIter 512 remaining offset, after⟩, commands) ∧
      Elsewhere drives after drive ∧
      Covers commands (drives.ideDev drive).size.toNat offset.toNat
        (bytesThisIter 512 remaining offset).toNat (slice src (bytes - remaining).toNat) := by
  obtain ⟨positive, _, inside⟩ := @bytesThisIter_toNat width wide remaining offset some
  obtain ⟨sector, place⟩ := sectorPlace_toNat wide offset
  -- What the buffer holds outside of the range makes no difference.
  obtain ⟨old, package, loaded⟩ : ∃ old package,
      (if offset % 512 ≠ 0 ∨ bytesThisIter 512 remaining offset ≠ 512 then
        Ide.loadSectorWith errors.reads drive 512 (offset / 512) stale drives
      else (stale, drives)) = (old, { drives with package := package }) := by
    split_ifs
    · obtain ⟨old, package, loaded, _⟩ :=
        @Ready.loadSectorWith width errors.reads drives drive ready wide (offset / 512) stale
      exact ⟨old, package, loaded⟩
    · exact ⟨stale, drives.package, rfl⟩
  have kept : Ready { drives with package := package } drive := ⟨ready.1, ready.2, ready.3⟩
  obtain ⟨after, commands, stored, frame, issued⟩ :=
    @Ready.storeSectorUnder width errors _ drive kept wide (offset / 512)
      (overwrite old (offset % 512).toNat (bytesThisIter 512 remaining offset).toNat
        (slice src (bytes - remaining).toNat))
  refine ⟨after, commands, ?_, elsewhere_package.trans frame, ?_⟩
  · unfold Ide.writeRoundUnder
    simp only [loaded, stored]
  · rw [issued, sector, place]
    refine covers_sector positive inside (fun before => ?_) old
    have bound := (drives.ideDev drive).size.isLt
    rw [BitVec.toNat_setWidth, sector, Nat.mod_eq_of_lt (by omega)]

/-- The commands of the loop cover what remains, and nothing remains behind it. -/
theorem Ready.writeLoopUnder (ready : Ready drives drive) (wide : 32 ≤ width)
    {stales : Nat → Nat → BitVec 8} {rounds : Nat} {remaining offset : BitVec width}
    (enough : remaining.toNat ≤ rounds) (part : remaining.toNat ≤ bytes.toNat)
    (fits : offset.toNat + remaining.toNat < 2 ^ width) :
    ∃ after last commands,
      writeLoopUnder errors drive bytes src stales rounds ⟨remaining, offset, drives⟩ =
        (⟨0, last, after⟩, commands) ∧ Elsewhere drives after drive ∧
      Covers commands (drives.ideDev drive).size.toNat offset.toNat remaining.toNat
        (slice src (bytes - remaining).toNat) := by
  induction rounds generalizing remaining offset drives with
  | zero =>
    have none : remaining.toNat = 0 := Nat.le_zero.mp enough
    have zero : remaining = 0 := BitVec.eq_of_toNat_eq none
    refine ⟨drives, offset, [], by rw [Ide.writeLoopUnder, zero], Elsewhere.refl, ?_⟩
    rw [none]
    exact covers_empty
  | succ rounds ih =>
    unfold Ide.writeLoopUnder
    by_cases more : remaining > 0
    · have some : 0 < remaining.toNat := BitVec.lt_def.mp more
      obtain ⟨middle, commands, round, first, covers⟩ :=
        @Ready.writeRoundUnder width errors drives drive ready wide remaining some bytes offset src
          (stales rounds)
      obtain ⟨positive, below, _⟩ := @bytesThisIter_toNat width wide remaining offset some
      have ends := bytesThisIter_ends wide remaining offset
      generalize bytesThisIter 512 remaining offset = count at round covers positive below ends
      obtain ⟨rest, next, later⟩ := remaining_sub below part fits
      obtain ⟨after, last, others, looped, second, behind⟩ := @ih middle (ready.elsewhere first)
        (remaining - count) (offset + count) (by omega) (by omega) (by omega)
      rw [first.ideDev, next, rest, later, ← slice_slice] at behind
      have whole := covers.append behind (by omega)
      rw [Nat.add_sub_cancel' below] at whole
      refine ⟨after, last, commands ++ others, ?_, first.trans second, whole⟩
      rw [if_pos more, round]
      dsimp only
      rw [looped]
    · have none : remaining.toNat = 0 := Nat.eq_zero_of_not_pos fun some =>
        more (BitVec.lt_def.mpr some)
      have zero : remaining = 0 := BitVec.eq_of_toNat_eq none
      refine ⟨drives, offset, [], by rw [if_neg more, zero], Elsewhere.refl, ?_⟩
      rw [none]
      exact covers_empty

end Loop

/-! ## Calls -/

section Calls

variable {width : Nat} (errors : DeviceErrors) (node : DriveNode width)
  (size elements : BitVec width) (src : Nat → BitVec 8) (stale : Nat → Nat → BitVec 8)

/-- What `IDEWriteFunction` returns. -/
def writeResult : BitVec 32 :=
  if size = 0 ∨ elements = 0 then 0
  else if isDrivePresent node.drives node.drive ∧
    (node.drives.ideDev node.drive).type = ideAtapi then -1
  else elements.setWidth 32

/-- It issues nothing to a drive that is absent or is an ATAPI drive. -/
def Unserved : Prop :=
  ¬ isDrivePresent node.drives node.drive ∨ (node.drives.ideDev node.drive).type = ideAtapi

instance : Decidable (Unserved node) := inferInstanceAs (Decidable (_ ∨ _))

/-- The commands that it issues. -/
def issuedCommands : List SectorCommand :=
  if (size = 0 ∨ elements = 0) ∨ Unserved node then []
  else (writeLoopUnder errors node.drive (size * elements) src stale (size * elements).toNat
    ⟨size * elements, node.fileOffset, node.drives⟩).2

/-- It returns this whatever the errors are. -/
theorem ideWriteFunctionUnder_returns :
    ∃ after, ideWriteFunctionUnder errors (some src) size elements stale node =
      .ok (writeResult node size elements,
        issuedCommands errors node size elements src stale) after := by
  unfold ideWriteFunctionUnder writeResult issuedCommands
  dsimp only
  by_cases empty : size = 0 ∨ elements = 0
  · rw [if_pos empty, if_pos empty, if_pos (.inl empty)]
    exact ⟨node, rfl⟩
  · rw [if_neg empty, if_neg empty]
    by_cases present : isDrivePresent node.drives node.drive = true
    · by_cases atapi : (node.drives.ideDev node.drive).type = ideAtapi
      · rw [if_pos ⟨present, atapi⟩, if_pos (.inr (.inr atapi))]
        refine ⟨node, bind_ok.mpr ⟨node, node, rfl, ?_⟩⟩
        rw [if_neg (not_not.mpr present), if_pos atapi]
        rfl
      · have served : ¬ Unserved node := not_or.mpr ⟨not_not.mpr present, atapi⟩
        rw [if_neg fun both => atapi both.2, if_neg (not_or.mpr ⟨empty, served⟩)]
        refine ⟨{ node with
          fileOffset := node.fileOffset + size * elements
          drives := (writeLoopUnder errors node.drive (size * elements) src stale
            (size * elements).toNat ⟨size * elements, node.fileOffset, node.drives⟩).1.drives },
          bind_ok.mpr ⟨node, node, rfl, ?_⟩⟩
        rw [if_neg (not_not.mpr present), if_neg atapi]
        exact bind_ok.mpr ⟨⟨⟩, _, rfl, rfl⟩
    · rw [if_neg fun both => present both.1, if_pos (.inr (.inl present))]
      refine ⟨{ node with fileOffset := node.fileOffset + size * elements },
        bind_ok.mpr ⟨node, node, rfl, ?_⟩⟩
      rw [if_pos present]
      exact bind_ok.mpr ⟨⟨⟩, _, rfl, rfl⟩

variable {node size elements}

/-- A drive that is ready gets the commands for the range of a write. -/
theorem Ready.issuedCommands (ready : Ready node.drives node.drive) (wide : 32 ≤ width)
    (fits : Fits node.fileOffset size elements) :
    Covers (issuedCommands errors node size elements src stale)
      (node.drives.ideDev node.drive).size.toNat node.fileOffset.toNat
      (size.toNat * elements.toNat) src := by
  unfold Ide.issuedCommands
  by_cases empty : size = 0 ∨ elements = 0
  · obtain ⟨zero, _⟩ := @empty_bytes width node size elements empty
    rw [if_pos (.inl empty), zero]
    exact covers_empty
  · have served : ¬ Unserved node := not_or.mpr ⟨not_not.mpr ready.present, ready.ata⟩
    obtain ⟨count, _⟩ := fits.toNat
    obtain ⟨_, last, commands, looped, _, covers⟩ := @Ready.writeLoopUnder width errors node.drives
      node.drive (size * elements) src ready wide stale (size * elements).toNat (size * elements)
      node.fileOffset (Nat.le_refl _) (Nat.le_refl _) (by rw [count]; exact fits)
    rw [count, BitVec.sub_self, BitVec.toNat_zero, slice_zero] at covers
    rw [if_neg (not_or.mpr ⟨empty, served⟩), looped]
    exact covers

/-- A drive that is ready accepts the bytes of the range that lie in front of its end, in sectors
that are not refused. -/
theorem Ready.accepted (ready : Ready node.drives node.drive) (wide : 32 ≤ width)
    (fits : Fits node.fileOffset size elements) {index : Nat}
    (below : index < size.toNat * elements.toNat) :
    Accepted errors (Ide.issuedCommands errors node size elements src stale)
        (node.fileOffset.toNat + index) (src index) ↔
      node.fileOffset.toNat + index < byteCount node.drives node.drive ∧
        errors.refused (.ofNat 32 ((node.fileOffset.toNat + index) / 512)) = false := by
  have covers := ready.issuedCommands errors src stale wide fits
  have accepted := @Covers.accepted _ _ _ _ _ errors covers (node.fileOffset.toNat + index)
    (Nat.le_add_right _ _) (by omega)
  rw [Nat.add_sub_cancel_left] at accepted
  rw [accepted, byteCount, Nat.div_lt_iff_lt_mul (by decide)]

end Calls

/-- **Results.** Whatever the errors of a drive are, `IDEWriteFunction` returns 0 for an empty
request, -1 for a present ATAPI drive, and else the number of elements. A present ATA drive has
accepted exactly the bytes that lie in front of its end, in sectors that it did not refuse; a drive
that is absent or an ATAPI drive has accepted none. -/
theorem write_result {width : Nat} (wide : 32 ≤ width) (errors : DeviceErrors)
    (node : DriveNode width) (size elements : BitVec width) (src : Nat → BitVec 8)
    (stale : Nat → Nat → BitVec 8) :
    ∃ commands after, ideWriteFunctionUnder errors (some src) size elements stale node =
        .ok (if size = 0 ∨ elements = 0 then 0
          else if isDrivePresent node.drives node.drive ∧
            (node.drives.ideDev node.drive).type = ideAtapi then -1
          else elements.setWidth 32, commands) after ∧
      (Unserved node → ∀ position byte, ¬ Accepted errors commands position byte) ∧
      (Ready node.drives node.drive → Fits node.fileOffset size elements →
        ∀ index < size.toNat * elements.toNat,
          Accepted errors commands (node.fileOffset.toNat + index) (src index) ↔
            node.fileOffset.toNat + index < byteCount node.drives node.drive ∧
              errors.refused (.ofNat 32 ((node.fileOffset.toNat + index) / 512)) = false) := by
  obtain ⟨after, returned⟩ := ideWriteFunctionUnder_returns errors node size elements src stale
  refine ⟨_, after, returned, ?_, ?_⟩
  · rintro unserved position byte ⟨command, member, _⟩
    rw [issuedCommands, if_pos (.inr unserved)] at member
    cases member
  · intro ready fits index below
    exact ready.accepted errors src stale wide fits below

/-- A drive that refuses every sector. -/
def refusing : DeviceErrors := ⟨.never, fun _ => true⟩

/-- A byte for a drive that refuses it. -/
theorem write_result_sample :
    ∃ commands after, ideWriteFunctionUnder refusing (some fun _ => 1) 1 1 (fun _ _ => 0) sevens =
        .ok (if (1 : BitVec 32) = 0 ∨ (1 : BitVec 32) = 0 then 0
          else if isDrivePresent sevens.drives sevens.drive ∧
            (sevens.drives.ideDev sevens.drive).type = ideAtapi then -1
          else (1 : BitVec 32).setWidth 32, commands) after ∧
      (Unserved sevens → ∀ position byte, ¬ Accepted refusing commands position byte) ∧
      (Ready sevens.drives sevens.drive → Fits sevens.fileOffset 1 1 →
        ∀ index < (1 : BitVec 32).toNat * (1 : BitVec 32).toNat,
          Accepted refusing commands (sevens.fileOffset.toNat + index) 1 ↔
            sevens.fileOffset.toNat + index < byteCount sevens.drives sevens.drive ∧
              refusing.refused (.ofNat 32 ((sevens.fileOffset.toNat + index) / 512)) = false) :=
  write_result (by decide) refusing sevens 1 1 (fun _ => 1) fun _ _ => 0

/-- It is reported as written. -/
theorem refused_byte_counted : ¬ ∀ (errors : DeviceErrors) (node after : DriveNode 32)
    (size elements value : BitVec 32) (src : Nat → BitVec 8) (stale : Nat → Nat → BitVec 8)
    (commands : List SectorCommand),
    ideWriteFunctionUnder errors (some src) size elements stale node =
      .ok (value, commands) after → value.toInt = elements.toNat →
        ∀ index < size.toNat * elements.toNat,
          Accepted errors commands (node.fileOffset.toNat + index) (src index) := by
  intro claim
  obtain ⟨after, returned⟩ :=
    ideWriteFunctionUnder_returns refusing sevens 1 1 (fun _ => 1) fun _ _ => 0
  have accepted := claim _ _ _ _ _ _ _ _ _ returned (by decide +kernel) 0 (by decide)
  obtain ⟨command, _, taken, _⟩ := accepted
  cases taken

end Unarddeg.Ide
