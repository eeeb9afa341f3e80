import Unarddeg.Modules.Ide.Disk

/-!
# Writes with reads that fail

`IDEWriteFunction` on a drive whose reads can fail. A sector that is written in part is read
first; when that read reports an error, the code clears its buffer and stores it all the same. So
the other bytes of the sector become zeros, and the write stays inside its range exactly when they
were zeros before (`outside_kept_iff`).
-/

namespace Unarddeg.Ide

open Library

/-! ## Transfers that fail -/

/-- What comes of the reads of the sectors of an ATA drive. -/
structure ReadFaults where
  /-- The value for `package[0]`; zero when the sector is read. -/
  result : BitVec 32 → BitVec 8
  /-- The bytes that a failed transfer leaves in the buffer. -/
  torn : BitVec 32 → Nat → BitVec 8

/-- No read fails. -/
def ReadFaults.never : ReadFaults := ⟨fun _ => 0, fun _ _ => 0⟩

/-- `IDEReadSectors` with one sector, whose transfer can fail. -/
def ideReadSectorsWith (faults : ReadFaults) (drive : Fin 4) (lba : BitVec 32)
    (buffer : Nat → BitVec 8) (drives : Drives) : (Nat → BitVec 8) × Drives :=
  let dev := drives.ideDev drive
  if ¬ isDrivePresent drives drive then (clear buffer 512, { drives with package := 0 })
  else if dev.reserved = 0 then (buffer, { drives with package := 0x1 })
  else if outside dev lba then (buffer, { drives with package := 0x2 })
  else if dev.type = ideAta then
    if faults.result lba ≠ 0 then
      (overwrite buffer 0 512 (faults.torn lba), { drives with package := faults.result lba })
    else (overwrite buffer 0 512 (drives.sector drive lba), { drives with package := 0 })
  else if dev.type = ideAtapi then
    (overwrite buffer 0 2048 (drives.sector drive lba), { drives with package := 0 })
  else (buffer, { drives with package := 0 })

section Functions

variable {width : Nat} (faults : ReadFaults)

/-- A sector in the buffer of a round; zeros behind the last sector and after an error. -/
def loadSectorWith (drive : Fin 4) (bytesPerSector sector : BitVec width)
    (stale : Nat → BitVec 8) (drives : Drives) : (Nat → BitVec 8) × Drives :=
  if sector ≥ (drives.ideDev drive).size.setWidth width then
    (clear stale bytesPerSector.toNat, drives)
  else
    let (buffer, next) := ideReadSectorsWith faults drive (sector.setWidth 32) stale drives
    if next.package ≠ 0 then (clear buffer bytesPerSector.toNat, { next with package := 0 })
    else (buffer, next)

/-- A round of the loop of `IDEWriteFunction`. -/
def writeRoundWith (drive : Fin 4) (bytes : BitVec width) (src stale : Nat → BitVec 8)
    (state : WriteState width) : WriteState width :=
  let sector := state.currentOffset / 512
  let offsetInSector := state.currentOffset % 512
  let count := bytesThisIter 512 state.remaining state.currentOffset
  let (old, drives) :=
    if offsetInSector ≠ 0 ∨ count ≠ 512 then
      loadSectorWith faults drive 512 sector stale state.drives
    else (stale, state.drives)
  let buffer := overwrite old offsetInSector.toNat count.toNat
    (slice src (bytes - state.remaining).toNat)
  let drives :=
    if sector < (drives.ideDev drive).size.setWidth width then
      { ideWriteSectors drive (sector.setWidth 32) buffer drives with package := 0 }
    else drives
  { remaining := state.remaining - count
    currentOffset := state.currentOffset + count
    drives }

/-- The loop of `IDEWriteFunction`, at most as many rounds as given. -/
def writeLoopWith (drive : Fin 4) (bytes : BitVec width) (src : Nat → BitVec 8)
    (stale : Nat → Nat → BitVec 8) : Nat → WriteState width → WriteState width
  | 0, state => state
  | rounds + 1, state =>
    if state.remaining > 0 then
      writeLoopWith drive bytes src stale rounds
        (writeRoundWith faults drive bytes src (stale rounds) state)
    else state

/-- `IDEWriteFunction` on drives whose reads can fail. -/
def ideWriteFunctionWith (buf : Option (Nat → BitVec 8)) (size elements : BitVec width)
    (stale : Nat → Nat → BitVec 8) : Kernel (DriveNode width) (BitVec 32) := do
  match buf with
  | none => panicWith .nullPointerDereference
  | some src =>
    if size = 0 ∨ elements = 0 then
      pure 0
    else
      let node ← get
      let bytes := size * elements
      if ¬ isDrivePresent node.drives node.drive then
        set { node with fileOffset := node.fileOffset + bytes }
        pure (elements.setWidth 32)
      else if (node.drives.ideDev node.drive).type = ideAtapi then
        pure (-1)
      else
        let last := writeLoopWith faults node.drive bytes src stale bytes.toNat
          ⟨bytes, node.fileOffset, node.drives⟩
        set { node with fileOffset := node.fileOffset + bytes, drives := last.drives }
        pure (elements.setWidth 32)

end Functions

/-! ## Without failures -/

section Never

variable {width : Nat}

/-- A sector is loaded as before when no read fails. -/
theorem loadSectorWith_never (drive : Fin 4) (bytesPerSector sector : BitVec width)
    (stale : Nat → BitVec 8) (drives : Drives) :
    loadSectorWith .never drive bytesPerSector sector stale drives =
      loadSector drive bytesPerSector sector stale drives := by
  have transfer : ideReadSectorsWith .never drive (sector.setWidth 32) stale drives =
      ideReadSectors drive (sector.setWidth 32) stale drives := by
    simp [ideReadSectorsWith, ideReadSectors, ReadFaults.never]
  unfold loadSectorWith loadSector
  rw [transfer]

/-- The loop is the one from before when no read fails. -/
theorem writeLoopWith_never (drive : Fin 4) (bytes : BitVec width) (src : Nat → BitVec 8)
    (stale : Nat → Nat → BitVec 8) (rounds : Nat) (state : WriteState width) :
    writeLoopWith .never drive bytes src stale rounds state =
      writeLoop drive bytes src stale rounds state := by
  induction rounds generalizing state with
  | zero => rfl
  | succ rounds ih =>
    have round : writeRoundWith .never drive bytes src (stale rounds) state =
        writeRound drive bytes src (stale rounds) state := by
      simp only [writeRoundWith, writeRound, loadSectorWith_never]
    rw [writeLoopWith, writeLoop, round, ih]

/-- `IDEWriteFunction` is the one of the drives whose transfers succeed when no read fails. -/
theorem ideWriteFunctionWith_never (buf : Option (Nat → BitVec 8)) (size elements : BitVec width)
    (stale : Nat → Nat → BitVec 8) :
    ideWriteFunctionWith .never buf size elements stale =
      ideWriteFunction buf size elements stale := by
  cases buf with
  | none => rfl
  | some src => simp only [ideWriteFunctionWith, ideWriteFunction, writeLoopWith_never]

end Never

/-! ## What a failed read does -/

/-- A position in a sector that a write touches, and whose read fails. -/
def Spoiled (faults : ReadFaults) (offset count position : Nat) : Prop :=
  0 < count ∧ offset / 512 ≤ position / 512 ∧ position / 512 ≤ (offset + count - 1) / 512 ∧
    faults.result (.ofNat 32 (position / 512)) ≠ 0

instance decidableSpoiled (faults : ReadFaults) (offset count position : Nat) :
    Decidable (Spoiled faults offset count position) := inferInstanceAs (Decidable (_ ∧ _))

/-- A store with zeros at the spoiled positions below a limit. -/
def spoil (faults : ReadFaults) (limit offset count : Nat) (bytes : Nat → BitVec 8) :
    Nat → BitVec 8 := fun position =>
  if position < limit ∧ Spoiled faults offset count position then 0 else bytes position

/-- A spoiled position below the limit holds a zero. -/
theorem spoil_spoiled {faults : ReadFaults} {limit offset count position : Nat}
    {bytes : Nat → BitVec 8} (below : position < limit)
    (spoiled : Spoiled faults offset count position) :
    spoil faults limit offset count bytes position = 0 := if_pos ⟨below, spoiled⟩

/-- A position that is not spoiled keeps its byte. -/
theorem spoil_kept {faults : ReadFaults} {limit offset count position : Nat}
    {bytes : Nat → BitVec 8} (kept : ¬ Spoiled faults offset count position) :
    spoil faults limit offset count bytes position = bytes position :=
  if_neg fun spoiled => kept spoiled.2

/-- A store after a write with reads that fail: the new bytes in the range, zeros at the other
spoiled positions. -/
def writtenWith (faults : ReadFaults) (limit : Nat) (bytes : Nat → BitVec 8)
    (offset count : Nat) (src : Nat → BitVec 8) : Nat → BitVec 8 :=
  overwriteBelow limit (spoil faults limit offset count bytes) offset count src

/-- A write of nothing changes nothing. -/
theorem writtenWith_empty {faults : ReadFaults} {limit offset : Nat}
    {bytes src : Nat → BitVec 8} : writtenWith faults limit bytes offset 0 src = bytes := by
  unfold writtenWith
  rw [overwriteBelow_empty]
  funext position
  unfold spoil
  rw [if_neg fun both => absurd both.2.1 (Nat.lt_irrefl 0)]

/-- Where a first part ends at the end of a sector, the two parts spoil what the whole does. -/
theorem spoiled_append {faults : ReadFaults} {offset count rest position : Nat} (some : 0 < count)
    (ends : rest = 0 ∨ (offset + count) % 512 = 0) :
    Spoiled faults offset (count + rest) position ↔
      Spoiled faults offset count position ∨ Spoiled faults (offset + count) rest position := by
  unfold Spoiled
  grind

/-- Two parts of a write one behind the other are one write, where the first ends at the end of a
sector. -/
theorem writtenWith_append {faults : ReadFaults} {limit offset count rest : Nat}
    {bytes src : Nat → BitVec 8} (some : 0 < count) (ends : rest = 0 ∨ (offset + count) % 512 = 0) :
    writtenWith faults limit (writtenWith faults limit bytes offset count src) (offset + count) rest
        (slice src count) = writtenWith faults limit bytes offset (count + rest) src := by
  have both : ∀ position, Spoiled faults offset (count + rest) position ↔
      Spoiled faults offset count position ∨ Spoiled faults (offset + count) rest position :=
    fun _ => spoiled_append some ends
  have first : ∀ {position}, position < offset + count →
      ¬ Spoiled faults (offset + count) rest position := by
    rintro position before ⟨positive, after, _⟩
    have aligned := ends.resolve_left (Nat.ne_of_gt positive)
    omega
  funext position
  unfold writtenWith overwriteBelow
  by_cases below : position < limit
  · simp only [if_pos below]
    have whole := both position
    by_cases second : offset + count ≤ position ∧ position < offset + count + rest
    · rw [overwrite, if_pos second, overwrite, if_pos (by omega), slice]
      congr 1
      omega
    · rw [overwrite, if_neg second]
      by_cases inside : offset ≤ position ∧ position < offset + count
      · rw [spoil_kept (first inside.2), if_pos below, overwrite, if_pos inside, overwrite,
          if_pos (by omega)]
      · rw [overwrite, if_neg (by omega)]
        by_cases late : Spoiled faults (offset + count) rest position
        · rw [spoil_spoiled below late, spoil_spoiled below (whole.mpr (.inr late))]
        · rw [spoil_kept late, if_pos below, overwrite, if_neg inside]
          by_cases early : Spoiled faults offset count position
          · rw [spoil_spoiled below early, spoil_spoiled below (whole.mpr (.inl early))]
          · rw [spoil_kept early, spoil_kept fun spoiled => (whole.mp spoiled).elim early late]
  · simp only [spoil, below, false_and, if_false]

/-! ## The loop -/

section Loop

variable {width : Nat} {faults : ReadFaults} {drives : Drives} {drive : Fin 4}
  {bytes : BitVec width} {src : Nat → BitVec 8}

/-- The buffer of a round holds the bytes of its sector, or zeros when the read fails. -/
theorem Ready.loadSectorWith (ready : Ready drives drive) (wide : 32 ≤ width)
    (sector : BitVec width) (stale : Nat → BitVec 8) :
    ∃ buffer package, loadSectorWith faults drive 512 sector stale drives =
        (buffer, { drives with package := package }) ∧
      ∀ index < 512, buffer index = if faults.result (.ofNat 32 sector.toNat) ≠ 0 then 0
        else content drives drive (sector.toNat * 512 + index) := by
  have unit := sectorBytes_toNat wide
  unfold Ide.loadSectorWith
  by_cases behind : sector ≥ (drives.ideDev drive).size.setWidth width
  · rw [if_pos behind]
    refine ⟨_, drives.package, rfl, fun index small => ?_⟩
    rw [ge_iff_le, BitVec.le_def, size_toNat wide] at behind
    have blank : content drives drive (sector.toNat * 512 + index) = 0 := by
      rw [content, if_neg (by unfold byteCount; omega)]
    rw [blank, ite_self, clear, unit, overwrite, if_pos (by omega)]
  · rw [if_neg behind]
    rw [ge_iff_le, BitVec.le_def, size_toNat wide] at behind
    have bound := (drives.ideDev drive).size.isLt
    have same : BitVec.ofNat 32 sector.toNat = sector.setWidth 32 := BitVec.ofNat_toNat ..
    have lba : (sector.setWidth 32).toNat = sector.toNat := by
      rw [BitVec.toNat_setWidth, Nat.mod_eq_of_lt (by omega)]
    have inside : ¬ outside (drives.ideDev drive) (sector.setWidth 32) :=
      not_outside (by omega)
    have transfer : ideReadSectorsWith faults drive (sector.setWidth 32) stale drives =
        if faults.result (sector.setWidth 32) ≠ 0 then
          (overwrite stale 0 512 (faults.torn (sector.setWidth 32)),
            { drives with package := faults.result (sector.setWidth 32) })
        else (overwrite stale 0 512 (drives.sector drive (sector.setWidth 32)),
          { drives with package := 0 }) := by
      unfold ideReadSectorsWith
      simp only [ready.present, not_true_eq_false, if_false, if_neg ready.reserved, if_neg inside,
        if_pos ready.type]
    rw [transfer, same]
    by_cases failed : faults.result (sector.setWidth 32) ≠ 0
    · simp only [if_pos failed]
      refine ⟨_, 0, rfl, fun index small => ?_⟩
      rw [clear, unit, overwrite, if_pos (by omega)]
    · simp only [if_neg failed]
      refine ⟨_, 0, rfl, fun index small => ?_⟩
      rw [content, if_pos (by unfold byteCount; omega), overwrite, if_pos (by omega),
        show (sector.toNat * 512 + index) / 512 = sector.toNat by omega,
        show (sector.toNat * 512 + index) % 512 = index by omega, same]
      simp

/-- The buffer that a round of a write stores holds the bytes of the sector, or zeros when its
read fails, but for those of the range. -/
theorem Ready.mergedWith (ready : Ready drives drive) (wide : 32 ≤ width) (offset : BitVec width)
    {count : Nat} (some : 0 < count) (inside : offset.toNat % 512 + count ≤ 512)
    (test : Prop) [Decidable test] (whole : ¬ test → offset.toNat % 512 = 0 ∧ count = 512)
    (stale src : Nat → BitVec 8) :
    ∃ buffer package, (if test then Ide.loadSectorWith faults drive 512 (offset / 512) stale drives
        else (stale, drives)) = (buffer, { drives with package := package }) ∧
      ∀ index < 512, offset.toNat / 512 * 512 + index < byteCount drives drive →
        overwrite buffer (offset.toNat % 512) count src index =
          writtenWith faults (byteCount drives drive) (content drives drive) offset.toNat count src
            (offset.toNat / 512 * 512 + index) := by
  have sector := (sectorPlace_toNat wide offset).1
  by_cases part : test
  · rw [if_pos part]
    obtain ⟨buffer, package, loaded, same⟩ :=
      @Ready.loadSectorWith width faults drives drive ready wide (offset / 512) stale
    refine ⟨buffer, package, loaded, fun index small below => ?_⟩
    unfold writtenWith overwriteBelow
    rw [if_pos below]
    unfold overwrite
    by_cases here : offset.toNat % 512 ≤ index ∧ index < offset.toNat % 512 + count
    · rw [if_pos here, if_pos (by omega)]
      congr 1
      omega
    · rw [if_neg here, if_neg (by omega), same index small, sector]
      have place : (offset.toNat / 512 * 512 + index) / 512 = offset.toNat / 512 := by omega
      by_cases failed : faults.result (.ofNat 32 (offset.toNat / 512)) ≠ 0
      · have spoiled : Spoiled faults offset.toNat count (offset.toNat / 512 * 512 + index) := by
          unfold Spoiled
          rw [place]
          exact ⟨some, Nat.le_refl _, by omega, failed⟩
        rw [if_pos failed, spoil_spoiled below spoiled]
      · have kept : ¬ Spoiled faults offset.toNat count (offset.toNat / 512 * 512 + index) := by
          unfold Spoiled
          rw [place]
          exact fun spoiled => failed spoiled.2.2.2
        rw [if_neg failed, spoil_kept kept]
  · rw [if_neg part]
    obtain ⟨first, all⟩ := whole part
    refine ⟨stale, drives.package, rfl, fun index small below => ?_⟩
    unfold writtenWith overwriteBelow
    rw [if_pos below]
    unfold overwrite
    rw [if_pos (by omega), if_pos (by omega)]
    congr 1
    omega

/-- A round of a write with reads that fail. -/
theorem Ready.writeRoundWith (ready : Ready drives drive) (wide : 32 ≤ width)
    {remaining : BitVec width} (some : 0 < remaining.toNat) (bytes offset : BitVec width)
    (src stale : Nat → BitVec 8) :
    ∃ after, writeRoundWith faults drive bytes src stale ⟨remaining, offset, drives⟩ =
        ⟨remaining - bytesThisIter 512 remaining offset,
          offset + bytesThisIter 512 remaining offset, after⟩ ∧
      Elsewhere drives after drive ∧
      content after drive = writtenWith faults (byteCount drives drive) (content drives drive)
        offset.toNat (bytesThisIter 512 remaining offset).toNat
          (slice src (bytes - remaining).toNat) := by
  obtain ⟨positive, _, inside⟩ := @bytesThisIter_toNat width wide remaining offset some
  obtain ⟨sector, place⟩ := sectorPlace_toNat wide offset
  obtain ⟨buffer, package, loaded, same⟩ := @Ready.mergedWith width faults drives drive ready wide
    offset _ positive inside _ _ (wholeSector wide) stale (slice src (bytes - remaining).toNat)
  have kept : Ready { drives with package := package } drive := ⟨ready.1, ready.2, ready.3⟩
  obtain ⟨after, stored, frame, image⟩ := @Ready.stored width _ drive kept wide (offset / 512)
    (overwrite buffer (offset.toNat % 512) (bytesThisIter 512 remaining offset).toNat
      (slice src (bytes - remaining).toNat))
    (writtenWith faults (byteCount drives drive) (content drives drive) offset.toNat
      (bytesThisIter 512 remaining offset).toNat (slice src (bytes - remaining).toNat))
    (fun index small below => by
      rw [same index small (sector ▸ below), sector])
    (fun position outside => by
      rw [sector] at outside
      unfold writtenWith overwriteBelow
      by_cases below : position < byteCount drives drive
      · have apart : ¬ (offset.toNat / 512 * 512 ≤ position ∧
            position < offset.toNat / 512 * 512 + 512) := fun both =>
          outside ⟨both.1, both.2, below⟩
        have clean : ¬ Spoiled faults offset.toNat (bytesThisIter 512 remaining offset).toNat
            position := by
          unfold Spoiled
          omega
        rw [if_pos below, overwrite_outside (by omega), spoil_kept clean]
        rfl
      · rw [if_neg below, spoil, if_neg fun spoiled => below spoiled.1]
        rfl)
  refine ⟨after, ?_, elsewhere_package.trans frame, image⟩
  unfold Ide.writeRoundWith
  simp only [loaded, place]
  rw [← stored]

/-- The loop of a write with reads that fail. -/
theorem Ready.writeLoopWith (ready : Ready drives drive) (wide : 32 ≤ width)
    {stales : Nat → Nat → BitVec 8} {rounds : Nat} {remaining offset : BitVec width}
    (enough : remaining.toNat ≤ rounds) (part : remaining.toNat ≤ bytes.toNat)
    (fits : offset.toNat + remaining.toNat < 2 ^ width) :
    ∃ after last, writeLoopWith faults drive bytes src stales rounds ⟨remaining, offset, drives⟩ =
        ⟨0, last, after⟩ ∧ Elsewhere drives after drive ∧
      content after drive = writtenWith faults (byteCount drives drive) (content drives drive)
        offset.toNat remaining.toNat (slice src (bytes - remaining).toNat) := by
  induction rounds generalizing remaining offset drives with
  | zero =>
    have none : remaining.toNat = 0 := Nat.le_zero.mp enough
    have zero : remaining = 0 := BitVec.eq_of_toNat_eq none
    refine ⟨drives, offset, by rw [Ide.writeLoopWith, zero], Elsewhere.refl, ?_⟩
    rw [none, writtenWith_empty]
  | succ rounds ih =>
    unfold Ide.writeLoopWith
    by_cases more : remaining > 0
    · rw [if_pos more]
      have some : 0 < remaining.toNat := BitVec.lt_def.mp more
      obtain ⟨middle, round, first, stored⟩ :=
        @Ready.writeRoundWith width faults drives drive ready wide remaining some bytes offset src
          (stales rounds)
      obtain ⟨positive, below, _⟩ := @bytesThisIter_toNat width wide remaining offset some
      have ends := bytesThisIter_ends wide remaining offset
      generalize bytesThisIter 512 remaining offset = count at round stored positive below ends
      obtain ⟨rest, next, later⟩ := remaining_sub below part fits
      obtain ⟨after, last, looped, second, replaced⟩ := @ih middle (ready.elsewhere first)
        (remaining - count) (offset + count) (by omega) (by omega) (by omega)
      refine ⟨after, last, by rw [round, looped], first.trans second, ?_⟩
      have limit : byteCount middle drive = byteCount drives drive := by
        unfold byteCount
        rw [first.ideDev]
      have stops : remaining.toNat - count.toNat = 0 ∨ (offset.toNat + count.toNat) % 512 = 0 := by
        omega
      rw [replaced, stored, later, next, rest, limit, ← slice_slice,
        writtenWith_append positive stops, Nat.add_sub_cancel' below]
    · rw [if_neg more]
      have none : remaining.toNat = 0 := Nat.eq_zero_of_not_pos fun some =>
        more (BitVec.lt_def.mpr some)
      have zero : remaining = 0 := BitVec.eq_of_toNat_eq none
      refine ⟨drives, offset, by rw [zero], Elsewhere.refl, ?_⟩
      rw [none, writtenWith_empty]

end Loop

/-! ## Calls -/

section Calls

variable {width : Nat} {faults : ReadFaults} {node : DriveNode width} {size elements : BitVec width}
  {stale : Nat → Nat → BitVec 8}

/-- `IDEWriteFunction` with reads that fail. -/
theorem Ready.ideWriteFunctionWith (ready : Ready node.drives node.drive) (wide : 32 ≤ width)
    (fits : Fits node.fileOffset size elements) (src : Nat → BitVec 8) :
    ∃ value after, ideWriteFunctionWith faults (some src) size elements stale node =
        .ok value { node with fileOffset := node.fileOffset + size * elements, drives := after } ∧
      Elsewhere node.drives after node.drive ∧
      content after node.drive = writtenWith faults (byteCount node.drives node.drive)
        (content node.drives node.drive) node.fileOffset.toNat (size.toNat * elements.toNat)
          src := by
  obtain ⟨count, _⟩ := fits.toNat
  unfold Ide.ideWriteFunctionWith
  by_cases empty : size = 0 ∨ elements = 0
  · obtain ⟨zero, stays⟩ := @empty_bytes width node size elements empty
    refine ⟨0, node.drives, ?_, Elsewhere.refl, by rw [zero, writtenWith_empty]⟩
    rw [stays]
    exact congrFun (if_pos empty) node
  · obtain ⟨after, last, looped, frame, replaced⟩ := @Ready.writeLoopWith width faults node.drives
      node.drive (size * elements) src ready wide stale (size * elements).toNat (size * elements)
      node.fileOffset (Nat.le_refl _) (Nat.le_refl _) (by rw [count]; exact fits)
    have ata := ready.ata
    refine ⟨elements.setWidth 32, after, ?_, frame, ?_⟩
    · refine (congrFun (if_neg empty) node).trans (bind_ok.mpr ⟨node, node, rfl, ?_⟩)
      dsimp only
      rw [if_neg (not_not.mpr ready.present), if_neg ata, looped]
      exact bind_ok.mpr ⟨⟨⟩, _, rfl, rfl⟩
    · rw [replaced, count, BitVec.sub_self, BitVec.toNat_zero, slice_zero]

/-- A write changes no byte of its drive outside a range. -/
def KeepsOutside (before after : Drives) (drive : Fin 4) (offset count : Nat) : Prop :=
  ∀ position < byteCount before drive, ¬ (offset ≤ position ∧ position < offset + count) →
    content after drive position = content before drive position

/-- Each sector that is written in part, and whose read fails, holds zeros outside the range. -/
def BlankWhereFailed (faults : ReadFaults) (drives : Drives) (drive : Fin 4) (offset count : Nat) :
    Prop :=
  ∀ position < byteCount drives drive, ¬ (offset ≤ position ∧ position < offset + count) →
    Spoiled faults offset count position → content drives drive position = 0

/-- What a write leaves keeps the bytes outside its range exactly when those of the sectors that it
cannot read were zeros. -/
theorem keepsOutside_iff {before after : Drives} {drive : Fin 4} {offset count : Nat}
    {src : Nat → BitVec 8}
    (written : content after drive = writtenWith faults (byteCount before drive)
      (content before drive) offset count src) :
    KeepsOutside before after drive offset count ↔
      BlankWhereFailed faults before drive offset count := by
  unfold KeepsOutside BlankWhereFailed
  rw [written]
  refine forall_congr' fun position => forall_congr' fun below => forall_congr' fun apart => ?_
  rw [writtenWith, overwriteBelow, if_pos below, overwrite, if_neg apart]
  by_cases spoiled : Spoiled faults offset count position
  · rw [spoil_spoiled below spoiled]
    exact ⟨fun zero _ => zero.symm, fun zero => (zero spoiled).symm⟩
  · rw [spoil_kept spoiled]
    exact ⟨fun _ failed => absurd failed spoiled, fun _ => rfl⟩

/-- **Writes with reads that fail.** A write to an ATA drive returns and changes nothing elsewhere;
it stays inside its range exactly when the sectors that it writes in part and cannot read hold zeros
around the range. -/
theorem outside_kept_iff (wide : 32 ≤ width) (ready : Ready node.drives node.drive)
    (fits : Fits node.fileOffset size elements) (src : Nat → BitVec 8) :
    ∃ value after, ideWriteFunctionWith faults (some src) size elements stale node =
        .ok value { node with fileOffset := node.fileOffset + size * elements, drives := after } ∧
      Elsewhere node.drives after node.drive ∧
      (KeepsOutside node.drives after node.drive node.fileOffset.toNat
          (size.toNat * elements.toNat) ↔
        BlankWhereFailed faults node.drives node.drive node.fileOffset.toNat
          (size.toNat * elements.toNat)) := by
  obtain ⟨value, after, returned, frame, written⟩ :=
    @Ready.ideWriteFunctionWith width faults node size elements stale ready wide fits src
  exact ⟨value, after, returned, frame, keepsOutside_iff written⟩

end Calls

/-- A node of a drive of one sector of sevens. -/
def sevens : DriveNode 32 :=
  { oneSector with drives := { oneSector.drives with sector := fun _ _ _ => 7 } }

/-- Every read is aborted. -/
def ReadFaults.always : ReadFaults := ⟨fun _ => 20, fun _ _ => 0⟩

/-- The first byte is written. -/
def writeFirst : Kernel (DriveNode 32) (BitVec 32) :=
  ideWriteFunctionWith .always (some fun _ => 1) 1 1 fun _ _ => 0

/-- The drive is ready. -/
theorem sevens_ready : Ready sevens.drives sevens.drive := ⟨by decide, by decide, by decide⟩

/-- A write of the first byte when every read is aborted. -/
theorem outside_kept_iff_sample : ∃ value after,
    writeFirst sevens = .ok value { sevens with
      fileOffset := sevens.fileOffset + 1 * 1, drives := after } ∧
    Elsewhere sevens.drives after sevens.drive ∧
    (KeepsOutside sevens.drives after sevens.drive 0 1 ↔
      BlankWhereFailed .always sevens.drives sevens.drive 0 1) :=
  outside_kept_iff (by decide) sevens_ready (by unfold Fits; decide) fun _ => 1

/-- The write of the first byte clears the others. -/
theorem failed_read_clears : ¬ ∀ (faults : ReadFaults) (node next : DriveNode 32)
    (size elements value : BitVec 32) (src : Nat → BitVec 8) (stale : Nat → Nat → BitVec 8),
    Ready node.drives node.drive → Fits node.fileOffset size elements →
    ideWriteFunctionWith faults (some src) size elements stale node = .ok value next →
    KeepsOutside node.drives next.drives node.drive node.fileOffset.toNat
      (size.toNat * elements.toNat) := by
  intro claim
  have returned : resultOf writeFirst sevens = some 1 := by decide +kernel
  have kept : content (stateAfter writeFirst sevens).drives sevens.drive 5 =
      content sevens.drives sevens.drive 5 :=
    claim .always sevens _ 1 1 1 _ _ sevens_ready (by unfold Fits; decide)
      (ok_of_resultOf returned) 5 (by decide) (by decide)
  have before : content sevens.drives sevens.drive 5 = 7 := by decide +kernel
  have cleared : content (stateAfter writeFirst sevens).drives sevens.drive 5 = 0 := by
    decide +kernel
  rw [before, cleared] at kept
  cases kept

end Unarddeg.Ide
