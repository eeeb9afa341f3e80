import Unarddeg.Library.Exec
import Unarddeg.Modules.Ide.Main

/-!
# A drive as an array of bytes

A drive of `size` sectors is an array of `size * 512` bytes. A read returns the bytes at its
position, zeros behind the end; a write replaces those below the end. The loops of the nodes do the
same sector by sector, so every run of calls is a run of the array (`refines_bytes`).
-/

namespace Unarddeg.Ide

open Library

/-! ## The array -/

/-- A store with other bytes in the part of a range below a limit. -/
def overwriteBelow (limit : Nat) (bytes : Nat → BitVec 8) (start length : Nat)
    (source : Nat → BitVec 8) : Nat → BitVec 8 := fun position =>
  if position < limit then overwrite bytes start length source position else bytes position

/-- Two ranges one behind the other are one range. -/
theorem overwriteBelow_append {limit start length further : Nat} {bytes source : Nat → BitVec 8} :
    overwriteBelow limit (overwriteBelow limit bytes start length source) (start + length) further
        (slice source length) = overwriteBelow limit bytes start (length + further) source := by
  funext position
  unfold overwriteBelow
  by_cases below : position < limit
  · rw [if_pos below, if_pos below, ← overwrite_append]
    simp only [overwrite, if_pos below]
  · simp only [if_neg below]

/-- An empty range changes nothing. -/
theorem overwriteBelow_empty {limit start : Nat} {bytes source : Nat → BitVec 8} :
    overwriteBelow limit bytes start 0 source = bytes := by
  funext position
  unfold overwriteBelow
  rw [overwrite_empty, ite_self]

/-- A file that is an array of bytes with a position. -/
structure ByteArrayFile where
  /-- The number of bytes. -/
  limit : Nat
  /-- The bytes; zeros behind the end. -/
  bytes : Nat → BitVec 8
  /-- The position. -/
  position : Nat

/-- A call of one of the two functions, with what a read finds in the buffer and leaves there. -/
inductive Call (width : Nat)
  /-- `IDEReadFunction`. -/
  | read (offset size elements : BitVec width) (dest answer : Nat → BitVec 8)
  /-- `IDEWriteFunction`. -/
  | write (offset size elements : BitVec width) (src : Nat → BitVec 8)

/-- What a call does to the array. -/
inductive ByteStep {width : Nat} : ByteArrayFile → Call width → ByteArrayFile → Prop
  /-- A read returns the stored bytes and moves the position. -/
  | read (file : ByteArrayFile) (offset size elements : BitVec width) (dest : Nat → BitVec 8) :
      ByteStep file
        (.read offset size elements dest
          (overwrite dest 0 (size.toNat * elements.toNat) (slice file.bytes offset.toNat)))
        { file with position := offset.toNat + size.toNat * elements.toNat }
  /-- A write replaces the bytes below the end and moves the position. -/
  | write (file : ByteArrayFile) (offset size elements : BitVec width) (src : Nat → BitVec 8) :
      ByteStep file (.write offset size elements src)
        { file with
          bytes := overwriteBelow file.limit file.bytes offset.toNat
            (size.toNat * elements.toNat) src
          position := offset.toNat + size.toNat * elements.toNat }

/-! ## The drives -/

/-- The number of bytes of a drive. -/
def byteCount (drives : Drives) (drive : Fin 4) : Nat := (drives.ideDev drive).size.toNat * 512

/-- The bytes of a drive; zeros behind the end. -/
def content (drives : Drives) (drive : Fin 4) (position : Nat) : BitVec 8 :=
  if position < byteCount drives drive then
    drives.sector drive (.ofNat 32 (position / 512)) (position % 512)
  else 0

/-- The drive is present and is no ATAPI drive. -/
structure Ready (drives : Drives) (drive : Fin 4) : Prop where
  /-- The drive is there. -/
  reserved : (drives.ideDev drive).reserved ≠ 0
  /-- It answers. -/
  status : ¬ (drives.status drive = 0xFF ∨ drives.status drive = 0x00)
  /-- It is an ATA drive. -/
  type : (drives.ideDev drive).type = ideAta

/-- The drives differ in the result of the last transfer, and in the sectors of one drive. -/
structure Elsewhere (before after : Drives) (drive : Fin 4) : Prop where
  /-- The entries are the same. -/
  ideDev : after.ideDev = before.ideDev
  /-- The status registers are the same. -/
  status : after.status = before.status
  /-- The bytes of the other drives and those behind the end are the same. -/
  sector : ∀ other lba index, other ≠ drive ∨ (before.ideDev drive).size ≤ lba ∨ 512 ≤ index →
    after.sector other lba index = before.sector other lba index

section Drive

variable {width : Nat} {drives before after : Drives} {drive : Fin 4} {lba : BitVec 32}
  {sector bytes : BitVec width} {stale buffer src : Nat → BitVec 8} {index position : Nat}

/-- Nothing changes elsewhere when nothing changes. -/
theorem Elsewhere.refl : Elsewhere drives drives drive := ⟨rfl, rfl, fun _ _ _ _ => rfl⟩

/-- Changes one after the other. -/
theorem Elsewhere.trans {middle : Drives} (first : Elsewhere before middle drive)
    (second : Elsewhere middle after drive) : Elsewhere before after drive where
  ideDev := second.ideDev.trans first.ideDev
  status := second.status.trans first.status
  sector other lba index apart := by
    rw [second.sector other lba index (first.ideDev ▸ apart), first.sector other lba index apart]

/-- A drive that is ready stays ready. -/
theorem Ready.elsewhere (ready : Ready before drive) (frame : Elsewhere before after drive) :
    Ready after drive where
  reserved := frame.ideDev ▸ ready.reserved
  status := frame.status ▸ ready.status
  type := frame.ideDev ▸ ready.type

/-- A drive that is ready is present. -/
theorem Ready.present (ready : Ready drives drive) : isDrivePresent drives drive = true :=
  decide_eq_true ⟨ready.reserved, ready.status⟩

/-- It is no ATAPI drive. -/
theorem Ready.ata (ready : Ready drives drive) : ¬ (drives.ideDev drive).type = ideAtapi := by
  rw [ready.type]
  decide

/-- A sector in front of the end is not refused. -/
theorem not_outside {dev : IDEDev} (small : lba.toNat < dev.size.toNat) : ¬ outside dev lba := by
  unfold outside
  rintro ⟨large, _⟩
  have bound := dev.size.isLt
  rw [gt_iff_lt, BitVec.lt_def, BitVec.toNat_add] at large
  have one : (1 : BitVec 32).toNat = 1 := rfl
  omega

/-- A sector in front of the end is read. -/
theorem Ready.ideReadSectors (ready : Ready drives drive)
    (small : lba.toNat < (drives.ideDev drive).size.toNat) :
    ideReadSectors drive lba buffer drives =
      (overwrite buffer 0 512 (drives.sector drive lba), { drives with package := 0 }) := by
  unfold Ide.ideReadSectors
  simp only [ready.present, not_true_eq_false, if_false, if_neg ready.reserved,
    if_neg (not_outside small), if_pos ready.type]

/-- A sector in front of the end is written. -/
theorem Ready.ideWriteSectors (ready : Ready drives drive)
    (small : lba.toNat < (drives.ideDev drive).size.toNat) :
    ideWriteSectors drive lba buffer drives =
      { drives.store drive lba buffer with package := 0 } := by
  unfold Ide.ideWriteSectors
  simp only [ready.present, not_true_eq_false, if_false, if_neg ready.reserved,
    if_neg (not_outside small), if_pos ready.type]

/-- The number of sectors as an `unsigned long`. -/
theorem size_toNat (wide : 32 ≤ width) {size : BitVec 32} :
    (size.setWidth width).toNat = size.toNat := by
  apply BitVec.toNat_setWidth_of_le
  exact wide

/-- The size of a sector as an `unsigned long`. -/
theorem sectorBytes_toNat (wide : 32 ≤ width) : (512 : BitVec width).toNat = 512 := by
  have large : 2 ^ 32 ≤ 2 ^ width := Nat.pow_le_pow_right (by decide) wide
  exact Nat.mod_eq_of_lt (show 512 < 2 ^ width by omega)

/-- The buffer of a round holds the bytes of its sector, and only the result of the transfer
changes. -/
theorem Ready.loadSector (ready : Ready drives drive) (wide : 32 ≤ width)
    (sector : BitVec width) (stale : Nat → BitVec 8) :
    ∃ buffer package, loadSector drive 512 sector stale drives =
        (buffer, { drives with package := package }) ∧
      ∀ index < 512, buffer index = content drives drive (sector.toNat * 512 + index) := by
  unfold Ide.loadSector
  by_cases behind : sector ≥ (drives.ideDev drive).size.setWidth width
  · rw [if_pos behind]
    refine ⟨_, drives.package, rfl, fun index small => ?_⟩
    rw [ge_iff_le, BitVec.le_def, size_toNat wide] at behind
    rw [content, if_neg (by unfold byteCount; omega), clear, sectorBytes_toNat wide, overwrite,
      if_pos (by omega)]
  · rw [if_neg behind]
    rw [ge_iff_le, BitVec.le_def, size_toNat wide] at behind
    have bound := (drives.ideDev drive).size.isLt
    have lba : (sector.setWidth 32).toNat = sector.toNat := by
      rw [BitVec.toNat_setWidth, Nat.mod_eq_of_lt (by omega)]
    rw [ready.ideReadSectors (by omega)]
    refine ⟨_, 0, rfl, fun index small => ?_⟩
    rw [content, if_pos (by unfold byteCount; omega), overwrite, if_pos (by omega),
      show (sector.toNat * 512 + index) / 512 = sector.toNat by omega,
      show (sector.toNat * 512 + index) % 512 = index by omega, ← lba, BitVec.ofNat_toNat]
    simp

/-- The bytes up to the end of the sector. -/
theorem sectorRest_toNat (wide : 32 ≤ width) (offset : BitVec width) :
    (512 - offset % 512).toNat = 512 - offset.toNat % 512 := by
  have unit := sectorBytes_toNat wide
  have small : offset.toNat % 512 < 512 := Nat.mod_lt _ (by decide)
  have part : (offset % 512).toNat = offset.toNat % 512 := by
    rw [BitVec.toNat_umod, unit]
  rw [BitVec.toNat_sub_of_le (by rw [BitVec.le_def, part, unit]; omega), part, unit]

/-- A round takes what remains, or the rest of its sector. -/
theorem bytesThisIter_eq (wide : 32 ≤ width) (remaining offset : BitVec width) :
    (bytesThisIter 512 remaining offset).toNat =
      min remaining.toNat (512 - offset.toNat % 512) := by
  have rest := sectorRest_toNat wide offset
  unfold bytesThisIter
  simp only [gt_iff_lt, BitVec.lt_def, rest]
  by_cases more : remaining.toNat < 512 - offset.toNat % 512
  · rw [if_pos more, Nat.min_eq_left (Nat.le_of_lt more)]
  · rw [if_neg more, rest, Nat.min_eq_right (Nat.le_of_not_lt more)]

/-- A round takes a byte at least, at most those that remain, and stays in its sector. -/
theorem bytesThisIter_toNat (wide : 32 ≤ width) {remaining offset : BitVec width}
    (some : 0 < remaining.toNat) :
    0 < (bytesThisIter 512 remaining offset).toNat ∧
      (bytesThisIter 512 remaining offset).toNat ≤ remaining.toNat ∧
      offset.toNat % 512 + (bytesThisIter 512 remaining offset).toNat ≤ 512 := by
  rw [bytesThisIter_eq wide]
  omega

/-- A round takes all that remains, or ends at the end of a sector. -/
theorem bytesThisIter_ends (wide : 32 ≤ width) (remaining offset : BitVec width) :
    (bytesThisIter 512 remaining offset).toNat = remaining.toNat ∨
      (offset.toNat + (bytesThisIter 512 remaining offset).toNat) % 512 = 0 := by
  rw [bytesThisIter_eq wide]
  omega

/-! ## Reading -/

/-- A round of a read copies the bytes of its range. -/
theorem Ready.readRound (ready : Ready drives drive) (wide : 32 ≤ width)
    {remaining : BitVec width} (some : 0 < remaining.toNat) (bytes offset : BitVec width)
    (stale dest : Nat → BitVec 8) :
    ∃ count package, readRound drive 512 bytes stale ⟨remaining, offset, dest, drives⟩ =
        ⟨remaining - count, offset + count,
          overwrite dest (bytes - remaining).toNat count.toNat
            (slice (content drives drive) offset.toNat), { drives with package := package }⟩ ∧
      0 < count.toNat ∧ count.toNat ≤ remaining.toNat := by
  obtain ⟨positive, below, inside⟩ := @bytesThisIter_toNat width wide remaining offset some
  obtain ⟨buffer, package, loaded, same⟩ := ready.loadSector wide (offset / 512) stale
  refine ⟨_, package, ?_, positive, below⟩
  have unit := sectorBytes_toNat wide
  have copied : overwrite dest (bytes - remaining).toNat (bytesThisIter 512 remaining offset).toNat
      (slice buffer (offset % 512).toNat) =
        overwrite dest (bytes - remaining).toNat (bytesThisIter 512 remaining offset).toNat
          (slice (content drives drive) offset.toNat) := by
    apply overwrite_congr
    intro index small
    unfold slice
    rw [BitVec.toNat_umod, unit, same _ (by omega), BitVec.toNat_udiv, unit]
    congr 1
    omega
  unfold Ide.readRound
  simp only [loaded, copied]

/-- What remains after a round. -/
theorem remaining_sub {count remaining offset : BitVec width}
    (below : count.toNat ≤ remaining.toNat)
    (part : remaining.toNat ≤ bytes.toNat) (fits : offset.toNat + remaining.toNat < 2 ^ width) :
    (remaining - count).toNat = remaining.toNat - count.toNat ∧
      (offset + count).toNat = offset.toNat + count.toNat ∧
      (bytes - (remaining - count)).toNat = (bytes - remaining).toNat + count.toNat := by
  have rest : (remaining - count).toNat = remaining.toNat - count.toNat :=
    BitVec.toNat_sub_of_le (BitVec.le_def.mpr below)
  have done : (bytes - remaining).toNat = bytes.toNat - remaining.toNat :=
    BitVec.toNat_sub_of_le (BitVec.le_def.mpr part)
  refine ⟨rest, BitVec.toNat_add_of_lt (by omega), ?_⟩
  rw [BitVec.toNat_sub_of_le (BitVec.le_def.mpr (by omega)), rest, done]
  omega

/-- The loop of a read copies the bytes of the range. -/
theorem Ready.readLoop (ready : Ready drives drive) (wide : 32 ≤ width)
    {stales : Nat → Nat → BitVec 8} {rounds : Nat} {remaining offset : BitVec width}
    {dest : Nat → BitVec 8} (enough : remaining.toNat ≤ rounds)
    (part : remaining.toNat ≤ bytes.toNat) (fits : offset.toNat + remaining.toNat < 2 ^ width) :
    ∃ package last, readLoop drive 512 bytes stales rounds ⟨remaining, offset, dest, drives⟩ =
      ⟨0, last, overwrite dest (bytes - remaining).toNat remaining.toNat
        (slice (content drives drive) offset.toNat), { drives with package := package }⟩ := by
  induction rounds generalizing remaining offset dest drives with
  | zero =>
    have none : remaining.toNat = 0 := Nat.le_zero.mp enough
    have zero : remaining = 0 := BitVec.eq_of_toNat_eq none
    refine ⟨drives.package, offset, ?_⟩
    rw [Ide.readLoop, none, overwrite_empty, zero]
  | succ rounds ih =>
    unfold Ide.readLoop
    by_cases more : remaining > 0
    · rw [if_pos more]
      have some : 0 < remaining.toNat := BitVec.lt_def.mp more
      obtain ⟨count, package, round, positive, below⟩ :=
        ready.readRound wide some bytes offset (stales rounds) dest
      obtain ⟨rest, next, done⟩ := remaining_sub below part fits
      have kept : Ready { drives with package := package } drive := ⟨ready.1, ready.2, ready.3⟩
      obtain ⟨later, last, looped⟩ := @ih _ kept (remaining - count) (offset + count)
        (overwrite dest (bytes - remaining).toNat count.toNat
          (slice (content drives drive) offset.toNat)) (by omega) (by omega) (by omega)
      refine ⟨later, last, ?_⟩
      rw [round, looped, done, next, rest, ← slice_slice]
      congr 1
      rw [show content { drives with package := package } drive = content drives drive from rfl,
        overwrite_append, Nat.add_sub_cancel' below]
    · rw [if_neg more]
      have none : remaining.toNat = 0 := Nat.eq_zero_of_not_pos fun some =>
        more (BitVec.lt_def.mpr some)
      have zero : remaining = 0 := BitVec.eq_of_toNat_eq none
      refine ⟨drives.package, offset, ?_⟩
      rw [none, overwrite_empty, zero]

/-! ## Writing -/

/-- The sectors after one was stored. -/
theorem store_sector {other : Fin 4} {place : BitVec 32} :
    (drives.store drive lba buffer).sector other place =
      if other = drive ∧ place = lba then overwrite (drives.sector drive lba) 0 512 buffer
      else drives.sector other place := by
  unfold Drives.store
  dsimp only
  rw [Function.update_apply]
  by_cases same : other = drive
  · rw [if_pos same, Function.update_apply, same]
    simp
  · rw [if_neg same, if_neg fun both => same both.1]

/-- A stored sector changes the bytes of the sector. -/
theorem content_store (small : lba.toNat < (drives.ideDev drive).size.toNat) :
    content (drives.store drive lba buffer) drive =
      overwrite (content drives drive) (lba.toNat * 512) 512 buffer := by
  funext position
  have bound := (drives.ideDev drive).size.isLt
  have same : (drives.store drive lba buffer).ideDev = drives.ideDev := rfl
  unfold content byteCount overwrite
  dsimp only
  rw [same, store_sector]
  by_cases here : lba.toNat * 512 ≤ position ∧ position < lba.toNat * 512 + 512
  · rw [if_pos here, if_pos (by omega), show position / 512 = lba.toNat by omega,
      BitVec.ofNat_toNat, BitVec.setWidth_eq, if_pos ⟨rfl, rfl⟩, overwrite, if_pos (by omega),
      show position % 512 - 0 = position - lba.toNat * 512 by omega]
  · rw [if_neg here]
    by_cases below : position < (drives.ideDev drive).size.toNat * 512
    · have other : BitVec.ofNat 32 (position / 512) ≠ lba := by
        intro equal
        have place := congrArg BitVec.toNat equal
        rw [BitVec.toNat_ofNat, Nat.mod_eq_of_lt (by omega)] at place
        omega
      rw [if_pos below, if_pos below, if_neg fun both => other both.2]
    · rw [if_neg below, if_neg below]

/-- A stored sector changes nothing elsewhere. -/
theorem elsewhere_store (small : lba.toNat < (drives.ideDev drive).size.toNat) :
    Elsewhere drives (drives.store drive lba buffer) drive where
  ideDev := rfl
  status := rfl
  sector other place index apart := by
    rw [store_sector]
    by_cases here : other = drive ∧ place = lba
    · obtain ⟨rfl, rfl⟩ := here
      rw [if_pos ⟨rfl, rfl⟩]
      apply overwrite_outside
      rw [BitVec.le_def] at apart
      rcases apart with different | large | large
      · exact absurd rfl different
      · omega
      · omega
    · rw [if_neg here]

/-- Another result of the last transfer changes nothing elsewhere. -/
theorem elsewhere_package {package : BitVec 8} :
    Elsewhere drives { drives with package := package } drive := ⟨rfl, rfl, fun _ _ _ _ => rfl⟩

/-- The buffer that a round of a write stores holds the bytes of the sector but those of the
range. -/
theorem Ready.merged (ready : Ready drives drive) (wide : 32 ≤ width) (offset : BitVec width)
    {count : Nat} (test : Prop) [Decidable test]
    (whole : ¬ test → offset.toNat % 512 = 0 ∧ count = 512) (stale src : Nat → BitVec 8) :
    ∃ buffer package, (if test then Ide.loadSector drive 512 (offset / 512) stale drives
        else (stale, drives)) = (buffer, { drives with package := package }) ∧
      ∀ index < 512, overwrite buffer (offset.toNat % 512) count src index =
        overwrite (content drives drive) offset.toNat count src
          (offset.toNat / 512 * 512 + index) := by
  have unit := sectorBytes_toNat wide
  by_cases part : test
  · rw [if_pos part]
    obtain ⟨buffer, package, loaded, same⟩ := ready.loadSector wide (offset / 512) stale
    refine ⟨buffer, package, loaded, fun index small => ?_⟩
    unfold overwrite
    by_cases here : offset.toNat % 512 ≤ index ∧ index < offset.toNat % 512 + count
    · rw [if_pos here, if_pos (by omega)]
      congr 1
      omega
    · rw [if_neg here, if_neg (by omega), same index small, BitVec.toNat_udiv, unit]
  · rw [if_neg part]
    obtain ⟨first, all⟩ := whole part
    refine ⟨stale, drives.package, rfl, fun index small => ?_⟩
    unfold overwrite
    rw [if_pos (by omega), if_pos (by omega)]
    congr 1
    omega

/-- A position, in sectors. -/
theorem sectorPlace_toNat (wide : 32 ≤ width) (offset : BitVec width) :
    (offset / 512).toNat = offset.toNat / 512 ∧ (offset % 512).toNat = offset.toNat % 512 := by
  have unit := sectorBytes_toNat wide
  rw [BitVec.toNat_udiv, BitVec.toNat_umod, unit]
  exact ⟨rfl, rfl⟩

/-- A sector is only not read before if all of it is written. -/
theorem wholeSector (wide : 32 ≤ width) {remaining offset : BitVec width}
    (whole : ¬ (offset % 512 ≠ 0 ∨ bytesThisIter 512 remaining offset ≠ 512)) :
    offset.toNat % 512 = 0 ∧ (bytesThisIter 512 remaining offset).toNat = 512 := by
  rw [not_or, not_not, not_not] at whole
  obtain ⟨first, all⟩ := whole
  rw [← (sectorPlace_toNat wide offset).2, first, all, sectorBytes_toNat wide]
  exact ⟨rfl, rfl⟩

/-- The end of a round, with the bytes that the drive is to hold in the sector of the buffer. -/
theorem Ready.stored (ready : Ready drives drive) (wide : 32 ≤ width) (sector : BitVec width)
    {buffer image : Nat → BitVec 8}
    (same : ∀ index < 512, sector.toNat * 512 + index < byteCount drives drive →
      buffer index = image (sector.toNat * 512 + index))
    (kept : ∀ position, ¬ (sector.toNat * 512 ≤ position ∧ position < sector.toNat * 512 + 512 ∧
      position < byteCount drives drive) → image position = content drives drive position) :
    ∃ after, (if sector < (drives.ideDev drive).size.setWidth width then
        { Ide.ideWriteSectors drive (sector.setWidth 32) buffer drives with package := 0 }
      else drives) = after ∧ Elsewhere drives after drive ∧ content after drive = image := by
  have bound := (drives.ideDev drive).size.isLt
  refine ⟨_, rfl, ?_⟩
  by_cases before : sector < (drives.ideDev drive).size.setWidth width
  · rw [if_pos before]
    rw [BitVec.lt_def, size_toNat wide] at before
    have lba : (sector.setWidth 32).toNat = sector.toNat := by
      rw [BitVec.toNat_setWidth, Nat.mod_eq_of_lt (by omega)]
    have small : (sector.setWidth 32).toNat < (drives.ideDev drive).size.toNat := by omega
    rw [ready.ideWriteSectors small]
    refine ⟨(elsewhere_store small).trans elsewhere_package, ?_⟩
    refine Eq.trans (content_store small) (funext fun position => ?_)
    rw [lba]
    by_cases here : sector.toNat * 512 ≤ position ∧ position < sector.toNat * 512 + 512
    · rw [overwrite, if_pos here, same _ (by omega) (by unfold byteCount; omega),
        Nat.add_sub_cancel' here.1]
    · rw [overwrite, if_neg here, kept position (by omega)]
  · rw [if_neg before]
    rw [BitVec.lt_def, size_toNat wide] at before
    refine ⟨Elsewhere.refl, (funext fun position => kept position ?_).symm⟩
    unfold byteCount
    omega

/-- A round of a write replaces the bytes of its range below the end. -/
theorem Ready.writeRound (ready : Ready drives drive) (wide : 32 ≤ width)
    {remaining : BitVec width} (some : 0 < remaining.toNat) (bytes offset : BitVec width)
    (src stale : Nat → BitVec 8) :
    ∃ count after, writeRound drive bytes src stale ⟨remaining, offset, drives⟩ =
        ⟨remaining - count, offset + count, after⟩ ∧
      0 < count.toNat ∧ count.toNat ≤ remaining.toNat ∧ Elsewhere drives after drive ∧
      content after drive = overwriteBelow (byteCount drives drive) (content drives drive)
        offset.toNat count.toNat (slice src (bytes - remaining).toNat) := by
  obtain ⟨positive, below, inside⟩ := @bytesThisIter_toNat width wide remaining offset some
  obtain ⟨sector, place⟩ := sectorPlace_toNat wide offset
  obtain ⟨buffer, package, loaded, same⟩ := ready.merged wide offset _ (wholeSector wide) stale
    (slice src (bytes - remaining).toNat)
  have kept : Ready { drives with package := package } drive := ⟨ready.1, ready.2, ready.3⟩
  obtain ⟨after, stored, frame, image⟩ := @Ready.stored width _ drive kept wide (offset / 512)
    (overwrite buffer (offset.toNat % 512) (bytesThisIter 512 remaining offset).toNat
      (slice src (bytes - remaining).toNat))
    (overwriteBelow (byteCount drives drive) (content drives drive) offset.toNat
      (bytesThisIter 512 remaining offset).toNat (slice src (bytes - remaining).toNat))
    (fun index small below => by
      rw [same index small, overwriteBelow, sector, if_pos (sector ▸ below)])
    (fun position outside => by
      rw [sector] at outside
      unfold overwriteBelow
      by_cases below : position < byteCount drives drive
      · rw [if_pos below, overwrite_outside]
        · rfl
        · have apart : ¬ (offset.toNat / 512 * 512 ≤ position ∧
              position < offset.toNat / 512 * 512 + 512) := fun both =>
            outside ⟨both.1, both.2, below⟩
          omega
      · rw [if_neg below]
        rfl)
  refine ⟨_, after, ?_, positive, below, elsewhere_package.trans frame, image⟩
  unfold Ide.writeRound
  simp only [loaded, place]
  rw [← stored]

/-- The loop of a write replaces the bytes of the range below the end. -/
theorem Ready.writeLoop (ready : Ready drives drive) (wide : 32 ≤ width)
    {stales : Nat → Nat → BitVec 8} {rounds : Nat} {remaining offset : BitVec width}
    (enough : remaining.toNat ≤ rounds) (part : remaining.toNat ≤ bytes.toNat)
    (fits : offset.toNat + remaining.toNat < 2 ^ width) :
    ∃ after last, writeLoop drive bytes src stales rounds ⟨remaining, offset, drives⟩ =
        ⟨0, last, after⟩ ∧ Elsewhere drives after drive ∧
      content after drive = overwriteBelow (byteCount drives drive) (content drives drive)
        offset.toNat remaining.toNat (slice src (bytes - remaining).toNat) := by
  have done : remaining.toNat = 0 → content drives drive =
      overwriteBelow (byteCount drives drive) (content drives drive) offset.toNat remaining.toNat
        (slice src (bytes - remaining).toNat) := by
    intro none
    rw [none, overwriteBelow_empty]
  induction rounds generalizing remaining offset drives with
  | zero =>
    have none : remaining.toNat = 0 := Nat.le_zero.mp enough
    have zero : remaining = 0 := BitVec.eq_of_toNat_eq none
    exact ⟨drives, offset, by rw [Ide.writeLoop, zero], Elsewhere.refl, done none⟩
  | succ rounds ih =>
    unfold Ide.writeLoop
    by_cases more : remaining > 0
    · rw [if_pos more]
      have some : 0 < remaining.toNat := BitVec.lt_def.mp more
      obtain ⟨count, middle, round, positive, below, first, stored⟩ :=
        ready.writeRound wide some bytes offset src (stales rounds)
      obtain ⟨rest, next, later⟩ := remaining_sub below part fits
      obtain ⟨after, last, looped, second, replaced⟩ := @ih middle (ready.elsewhere first)
        (remaining - count) (offset + count) (by omega) (by omega) (by omega) (fun none => by
          rw [none, overwriteBelow_empty])
      refine ⟨after, last, by rw [round, looped], first.trans second, ?_⟩
      have limit : byteCount middle drive = byteCount drives drive := by
        unfold byteCount
        rw [first.ideDev]
      rw [replaced, stored, later, next, rest, limit, ← slice_slice, overwriteBelow_append,
        Nat.add_sub_cancel' below]
    · rw [if_neg more]
      have none : remaining.toNat = 0 := Nat.eq_zero_of_not_pos fun some =>
        more (BitVec.lt_def.mpr some)
      have zero : remaining = 0 := BitVec.eq_of_toNat_eq none
      exact ⟨drives, offset, by rw [zero], Elsewhere.refl, done none⟩

end Drive

/-! ## Calls -/

/-- The end of the range of a call does not overflow. -/
def Fits {width : Nat} (offset size elements : BitVec width) : Prop :=
  offset.toNat + size.toNat * elements.toNat < 2 ^ width

/-- A call returns. It is made at the offset it names, wherever the last one ended. -/
def Served {width : Nat} (node : DriveNode width) : Call width → DriveNode width → Prop
  | .read offset size elements dest answer, next => Fits offset size elements ∧ ∃ stale value,
      ideReadFunction (some dest) size elements stale { node with fileOffset := offset } =
        .ok (value, answer) next
  | .write offset size elements src, next => Fits offset size elements ∧ ∃ stale value,
      ideWriteFunction (some src) size elements stale { node with fileOffset := offset } =
        .ok value next

/-- The drive of a node as an array of bytes. -/
def bytesOf {width : Nat} (node : DriveNode width) : ByteArrayFile where
  limit := byteCount node.drives node.drive
  bytes := content node.drives node.drive
  position := node.fileOffset.toNat

section Calls

variable {width : Nat} {node : DriveNode width} {size elements : BitVec width}
  {stale : Nat → Nat → BitVec 8}

/-- The number of bytes of a call, and the end of its range. -/
theorem Fits.toNat {offset : BitVec width} (fits : Fits offset size elements) :
    (size * elements).toNat = size.toNat * elements.toNat ∧
      (offset + size * elements).toNat = offset.toNat + size.toNat * elements.toNat := by
  unfold Fits at fits
  have product : (size * elements).toNat = size.toNat * elements.toNat := by
    rw [BitVec.toNat_mul, Nat.mod_eq_of_lt (by omega)]
  exact ⟨product, by rw [BitVec.toNat_add_of_lt (by omega), product]⟩

/-- A call without elements has no bytes and moves nothing. -/
theorem empty_bytes (empty : size = 0 ∨ elements = 0) :
    size.toNat * elements.toNat = 0 ∧ node.fileOffset + size * elements = node.fileOffset := by
  rcases empty with rfl | rfl
  · refine ⟨Nat.zero_mul _, ?_⟩
    rw [show 0 * elements = 0 from BitVec.zero_mul]
    exact BitVec.add_zero _
  · refine ⟨Nat.mul_zero _, ?_⟩
    rw [show size * 0 = 0 from BitVec.mul_zero]
    exact BitVec.add_zero _

/-- `IDEReadFunction` returns the bytes of its range. -/
theorem Ready.ideReadFunction (ready : Ready node.drives node.drive) (wide : 32 ≤ width)
    (fits : Fits node.fileOffset size elements) (dest : Nat → BitVec 8) :
    ∃ value package, ideReadFunction (some dest) size elements stale node =
      .ok (value, overwrite dest 0 (size.toNat * elements.toNat)
        (slice (content node.drives node.drive) node.fileOffset.toNat))
        { node with
          fileOffset := node.fileOffset + size * elements
          drives := { node.drives with package := package } } := by
  obtain ⟨count, _⟩ := fits.toNat
  unfold Ide.ideReadFunction
  by_cases empty : size = 0 ∨ elements = 0
  · obtain ⟨zero, stays⟩ := @empty_bytes width node size elements empty
    refine ⟨0, node.drives.package, ?_⟩
    rw [zero, overwrite_empty, stays]
    exact congrFun (if_pos empty) node
  · obtain ⟨package, last, looped⟩ := @Ready.readLoop width node.drives node.drive
      (size * elements) ready wide stale (size * elements).toNat (size * elements)
      node.fileOffset dest (Nat.le_refl _) (Nat.le_refl _) (by rw [count]; exact fits)
    have ata := ready.ata
    refine ⟨elements.setWidth 32, package, ?_⟩
    refine (congrFun (if_neg empty) node).trans (bind_ok.mpr ⟨node, node, rfl, ?_⟩)
    dsimp only
    rw [if_neg (not_not.mpr ready.present), if_neg ata, looped]
    refine bind_ok.mpr ⟨⟨⟩, _, rfl, pure_ok.mpr ⟨?_, rfl⟩⟩
    rw [BitVec.sub_self, count]
    rfl

/-- `IDEWriteFunction` replaces the bytes of its range below the end. -/
theorem Ready.ideWriteFunction (ready : Ready node.drives node.drive) (wide : 32 ≤ width)
    (fits : Fits node.fileOffset size elements) (src : Nat → BitVec 8) :
    ∃ value after, ideWriteFunction (some src) size elements stale node =
        .ok value { node with fileOffset := node.fileOffset + size * elements, drives := after } ∧
      Elsewhere node.drives after node.drive ∧
      content after node.drive = overwriteBelow (byteCount node.drives node.drive)
        (content node.drives node.drive) node.fileOffset.toNat (size.toNat * elements.toNat)
          src := by
  obtain ⟨count, _⟩ := fits.toNat
  unfold Ide.ideWriteFunction
  by_cases empty : size = 0 ∨ elements = 0
  · obtain ⟨zero, stays⟩ := @empty_bytes width node size elements empty
    refine ⟨0, node.drives, ?_, Elsewhere.refl, by rw [zero, overwriteBelow_empty]⟩
    rw [stays]
    exact congrFun (if_pos empty) node
  · obtain ⟨after, last, looped, frame, replaced⟩ := @Ready.writeLoop width node.drives node.drive
      (size * elements) src ready wide stale (size * elements).toNat (size * elements)
      node.fileOffset (Nat.le_refl _) (Nat.le_refl _) (by rw [count]; exact fits)
    have ata := ready.ata
    refine ⟨elements.setWidth 32, after, ?_, frame, ?_⟩
    · refine (congrFun (if_neg empty) node).trans (bind_ok.mpr ⟨node, node, rfl, ?_⟩)
      dsimp only
      rw [if_neg (not_not.mpr ready.present), if_neg ata, looped]
      exact bind_ok.mpr ⟨⟨⟩, _, rfl, rfl⟩
    · rw [replaced, count, BitVec.sub_self, BitVec.toNat_zero, slice_zero]

variable {next first last : DriveNode width} {call : Call width} {calls : List (Call width)}

/-- A call does to the drive what it does to the array, and changes nothing elsewhere. -/
theorem Ready.step (ready : Ready node.drives node.drive) (wide : 32 ≤ width)
    (served : Served node call next) :
    ByteStep (bytesOf node) call (bytesOf next) ∧ next.drive = node.drive ∧
      Elsewhere node.drives next.drives node.drive := by
  cases call with
  | read offset size elements dest answer =>
    obtain ⟨fits, stale, value, returned⟩ := served
    obtain ⟨result, package, ok⟩ := @Ready.ideReadFunction width { node with fileOffset := offset }
      size elements stale ready wide fits dest
    rw [ok] at returned
    cases returned
    refine ⟨?_, rfl, elsewhere_package⟩
    unfold bytesOf
    rw [fits.toNat.2]
    exact .read ⟨_, _, _⟩ offset size elements dest
  | write offset size elements src =>
    obtain ⟨fits, stale, value, returned⟩ := served
    obtain ⟨result, after, ok, frame, replaced⟩ := @Ready.ideWriteFunction width
      { node with fileOffset := offset } size elements stale ready wide fits src
    rw [ok] at returned
    cases returned
    refine ⟨?_, rfl, frame⟩
    unfold bytesOf byteCount
    dsimp only
    rw [fits.toNat.2, replaced, frame.ideDev]
    exact .write ⟨_, _, _⟩ offset size elements src

/-- **Drives.** Every run of calls to a present ATA drive is a run of the array of its bytes that
changes nothing elsewhere, and every call whose end does not overflow returns. -/
theorem refines_bytes (wide : 32 ≤ width) (ready : Ready first.drives first.drive)
    (run : Run Served first calls last) :
    Run ByteStep (bytesOf first) calls (bytesOf last) ∧
      Elsewhere first.drives last.drives first.drive ∧
      (∀ offset size elements : BitVec width, Fits offset size elements → ∀ buffer stale,
        (∃ answer next, ideReadFunction (some buffer) size elements stale
          { last with fileOffset := offset } = .ok answer next) ∧
        ∃ value next, ideWriteFunction (some buffer) size elements stale
          { last with fileOffset := offset } = .ok value next) := by
  obtain ⟨abstract, same, frame⟩ := run.refine bytesOf
    (fun node => node.drive = first.drive ∧ Elsewhere first.drives node.drives first.drive)
    (fun node call next kept served => by
      obtain ⟨same, frame⟩ := kept
      have here := ready.elsewhere frame
      rw [← same] at here
      obtain ⟨step, stays, change⟩ := here.step wide served
      rw [same] at change
      exact ⟨step, stays.trans same, frame.trans change⟩)
    ⟨rfl, Elsewhere.refl⟩
  have there := ready.elsewhere frame
  rw [← same] at there
  refine ⟨abstract, frame, fun offset size elements fits buffer stale => ⟨?_, ?_⟩⟩
  · obtain ⟨value, package, returned⟩ := @Ready.ideReadFunction width
      { last with fileOffset := offset } size elements stale there wide fits buffer
    exact ⟨_, _, returned⟩
  · obtain ⟨value, after, returned, _⟩ := @Ready.ideWriteFunction width
      { last with fileOffset := offset } size elements stale there wide fits buffer
    exact ⟨_, _, returned⟩

end Calls

/-- A node of a drive of one sector of zeros. -/
def oneSector : DriveNode 32 where
  drive := 0
  fileOffset := 0
  drives := ⟨fun _ => ⟨1, ideAta, 1⟩, fun _ => 0x40, fun _ _ _ => 0, 0⟩

/-- Four bytes are written at the position. -/
def writeFour : Kernel (DriveNode 32) (BitVec 32) :=
  ideWriteFunction (some fun index => .ofNat 8 (index + 1)) 1 4 fun _ _ => 0

/-- The node after they were written across the end. -/
def writtenSector : DriveNode 32 := stateAfter writeFour { oneSector with fileOffset := 510 }

/-- A write across the end is a write of the array. -/
theorem refines_bytes_sample : Run (@ByteStep 32) (bytesOf oneSector)
    [.write 510 1 4 fun index => .ofNat 8 (index + 1)] (bytesOf writtenSector) := by
  have returned : resultOf writeFour { oneSector with fileOffset := 510 } = some 4 := by
    decide +kernel
  have served : Served oneSector (.write 510 1 4 fun index => .ofNat 8 (index + 1))
      writtenSector := ⟨by unfold Fits; decide, _, 4, ok_of_resultOf returned⟩
  exact (refines_bytes (by decide) ⟨by decide, by decide, by decide⟩
    (.snoc (.nil oneSector) served)).1

end Unarddeg.Ide
