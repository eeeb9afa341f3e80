import Unarddeg.Kernel.Panic
import Unarddeg.Library.Bytes

/-!
# A FAT volume

The boot sector and the geometry of `modules/fat/main.c`. The drive node is a store of bytes that
reads and writes exactly what it is asked for. The boot sector is kept as the bytes that `FatMount`
read, and a field of the packed structures is a word of them.

The sector arithmetic is that of `DWORD`, also where the result is a `size_t`. A volume is
`Formatted` when its boot sector describes what lies on the drive; divisions by zero and sectors
without a whole entry do not occur there.
-/

namespace Unarddeg.Fat

open Library

/-- The contents of the drive. -/
abbrev Drive := Nat → BitVec 8

/-- `FATVolume`. -/
structure FATVolume where
  /-- `Boot`. -/
  boot : Nat → BitVec 8
  /-- `PartitionLBA`. -/
  partitionLBA : BitVec 32

namespace FATVolume

variable (vol : FATVolume)

/-- `Boot.bpb.BytesPerSector`. -/
def bytesPerSector : BitVec 16 := little 16 (slice vol.boot 11)
/-- `Boot.bpb.SectorsPerCluster`. -/
def sectorsPerCluster : BitVec 8 := vol.boot 13
/-- `Boot.bpb.ReservedSectors`. -/
def reservedSectors : BitVec 16 := little 16 (slice vol.boot 14)
/-- `Boot.bpb.FATCount`. -/
def fatCount : BitVec 8 := vol.boot 16
/-- `Boot.bpb.RootDirectoryEntries`. -/
def rootDirectoryEntries : BitVec 16 := little 16 (slice vol.boot 17)
/-- `Boot.bpb.TotalSectorsInVolume`. -/
def totalSectorsInVolume : BitVec 16 := little 16 (slice vol.boot 19)
/-- `Boot.bpb.SectorsPerFAT`. -/
def sectorsPerFAT : BitVec 16 := little 16 (slice vol.boot 22)
/-- `Boot.bpb.ExtendedSectorCount`. -/
def extendedSectorCount : BitVec 32 := little 32 (slice vol.boot 32)
/-- `Boot.as.fat16.Signature`. -/
def signature16 : BitVec 8 := vol.boot 38
/-- `Boot.as.fat32.SectorsPerFAT`. -/
def sectorsPerFAT32 : BitVec 32 := little 32 (slice vol.boot 36)
/-- `Boot.as.fat32.RootCluster`. -/
def rootCluster : BitVec 32 := little 32 (slice vol.boot 44)
/-- `Boot.as.fat32.Signature`. -/
def signature32 : BitVec 8 := vol.boot 66

/-- `BytesPerSector` as a `DWORD`. -/
def bytes : BitVec 32 := vol.bytesPerSector.setWidth 32
/-- `SectorsPerCluster` as a `DWORD`. -/
def perCluster : BitVec 32 := vol.sectorsPerCluster.setWidth 32

end FATVolume

/-- `FATType`. -/
inductive FATType
  | unknown
  | fat12
  | fat16
  | fat32
  deriving DecidableEq, Repr

/-- `FatSectorToOffset`. -/
def fatSectorToOffset (vol : FATVolume) (sector : BitVec 32) : Nat :=
  ((vol.partitionLBA + sector) * vol.bytes).toNat

/-- The type of a partition of the master boot record. -/
def partitionType (mbr : Nat → BitVec 8) (index : Nat) : BitVec 8 := mbr (446 + 16 * index + 4)

/-- `LBAStart` of a partition of the master boot record. -/
def partitionStart (mbr : Nat → BitVec 8) (index : Nat) : BitVec 32 :=
  little 32 (slice mbr (446 + 16 * index + 8))

/-- The types of the partitions that hold a FAT volume. -/
def fatPartitionTypes : List (BitVec 8) := [0x01, 0x04, 0x06, 0x0B, 0x0C, 0x0E]

/-- `FatParseMBR`. -/
def fatParseMBR (drive : Drive) : BitVec 32 :=
  let mbr := slice drive 0
  if little 16 (slice mbr 510) ≠ 0xAA55 then 0
  else
    match (List.range 4).find? fun index => partitionType mbr index ∈ fatPartitionTypes with
    | some index => partitionStart mbr index
    | none => 0

/-- The offset from which `FatMount` reads: the product is a `DWORD`. -/
def fatMountOffset (partitionLBA : BitVec 32) : Nat := (partitionLBA * 512).toNat

/-- `FatMount`. -/
def fatMount (drive : Drive) : FATVolume where
  boot := slice drive (fatMountOffset (fatParseMBR drive))
  partitionLBA := fatParseMBR drive

section Geometry

variable (vol : FATVolume)

/-- `FatTotalSectors`. -/
def fatTotalSectors : BitVec 32 :=
  if vol.totalSectorsInVolume ≠ 0 then vol.totalSectorsInVolume.setWidth 32
  else vol.extendedSectorCount

/-- `FatSize`. -/
def fatSize : BitVec 32 :=
  if vol.sectorsPerFAT ≠ 0 then vol.sectorsPerFAT.setWidth 32 else vol.sectorsPerFAT32

/-- `FatRootDirSize`. The sum is a `size_t`, which it does not exceed. -/
def fatRootDirSize : BitVec 32 :=
  .ofNat 32 ((vol.rootDirectoryEntries.toNat * 32 + (vol.bytes.toNat - 1)) / vol.bytes.toNat)

/-- `FatFirstData`. -/
def fatFirstData : BitVec 32 :=
  vol.reservedSectors.setWidth 32 + vol.fatCount.setWidth 32 * fatSize vol + fatRootDirSize vol

/-- `FatFirstFat`. -/
def fatFirstFat : BitVec 32 := vol.reservedSectors.setWidth 32

/-- `FatDataCount`. -/
def fatDataCount : BitVec 32 := fatTotalSectors vol - fatFirstData vol

/-- `FatClusterCount`. -/
def fatClusterCount : BitVec 32 := fatDataCount vol / vol.perCluster

/-- One of the signatures of an extended boot record. -/
def isSigned (signature : BitVec 8) : Bool := signature = 0x28 ∨ signature = 0x29

/-- `FatIdentify`. -/
def fatIdentify : FATType :=
  if fatClusterCount vol < 4085 ∧ isSigned vol.signature16 then .fat12
  else if fatClusterCount vol < 65525 ∧ isSigned vol.signature16 then .fat16
  else if isSigned vol.signature32 then .fat32
  else .unknown

/-- `FatRootCluster`. -/
def fatRootCluster : BitVec 32 := vol.rootCluster

/-- `FatFirstSectorForCluster`. -/
def fatFirstSectorForCluster (cluster : BitVec 32) : BitVec 32 :=
  (cluster - 2) * vol.perCluster + fatFirstData vol

end Geometry

/-! ## Offsets -/

/-- The offset of a sector of a volume on the drive. -/
def sectorStart (vol : FATVolume) (sector : Nat) : Nat :=
  (vol.partitionLBA.toNat + sector) * vol.bytes.toNat

/-- A product of a sum is exact in 32 bits exactly when it lies below 4 GiB. -/
theorem sum_mul_exact (left right factor : BitVec 32) :
    ((left + right) * factor).toNat = (left.toNat + right.toNat) * factor.toNat ↔
      (left.toNat + right.toNat) * factor.toNat < 2 ^ 32 := by
  have modular : ((left + right) * factor).toNat =
      (left.toNat + right.toNat) * factor.toNat % 2 ^ 32 := by
    rw [BitVec.toNat_mul, BitVec.toNat_add, Nat.mod_mul_mod]
  constructor
  · intro exact
    rw [← exact]
    exact ((left + right) * factor).isLt
  · intro small
    rw [modular, Nat.mod_eq_of_lt small]

/-- The offset of a sector is exact exactly below 4 GiB. -/
theorem fatSectorToOffset_eq_iff (vol : FATVolume) (sector : BitVec 32) :
    fatSectorToOffset vol sector = sectorStart vol sector.toNat ↔
      sectorStart vol sector.toNat < 2 ^ 32 :=
  sum_mul_exact vol.partitionLBA sector vol.bytes

/-- The sector size is that of the boot sector. -/
theorem FATVolume.bytes_toNat (vol : FATVolume) : vol.bytes.toNat = vol.bytesPerSector.toNat :=
  BitVec.toNat_setWidth_of_le (by decide)

/-- The sectors of a volume with exact offsets lie apart. -/
theorem sectors_apart {vol : FATVolume} {left right : BitVec 32} (different : left ≠ right)
    (leftExact : fatSectorToOffset vol left = sectorStart vol left.toNat)
    (rightExact : fatSectorToOffset vol right = sectorStart vol right.toNat) :
    fatSectorToOffset vol left + vol.bytes.toNat ≤ fatSectorToOffset vol right ∨
      fatSectorToOffset vol right + vol.bytes.toNat ≤ fatSectorToOffset vol left := by
  have apart : left.toNat ≠ right.toNat := fun same => different (BitVec.eq_of_toNat_eq same)
  rw [leftExact, rightExact, sectorStart, sectorStart, ← Nat.succ_mul, ← Nat.succ_mul]
  rcases Nat.lt_or_gt_of_ne apart with before | behind
  · exact .inl (Nat.mul_le_mul_right _ (by omega))
  · exact .inr (Nat.mul_le_mul_right _ (by omega))

/-- **Offsets.** The offset of a sector of a volume is exact exactly when it lies below 4 GiB, and
sectors whose offsets are exact lie apart on the drive. The boot sector is read from its offset
exactly when that lies below 4 GiB. -/
theorem offsets_exact (vol : FATVolume) (drive : Drive) :
    (∀ sector, sector < fatTotalSectors vol →
      (fatSectorToOffset vol sector =
          (vol.partitionLBA.toNat + sector.toNat) * vol.bytesPerSector.toNat ↔
        (vol.partitionLBA.toNat + sector.toNat) * vol.bytesPerSector.toNat < 2 ^ 32)) ∧
    (∀ left right, left < fatTotalSectors vol → right < fatTotalSectors vol → left ≠ right →
      (vol.partitionLBA.toNat + left.toNat) * vol.bytesPerSector.toNat < 2 ^ 32 →
      (vol.partitionLBA.toNat + right.toNat) * vol.bytesPerSector.toNat < 2 ^ 32 →
      fatSectorToOffset vol left + vol.bytesPerSector.toNat ≤ fatSectorToOffset vol right ∨
        fatSectorToOffset vol right + vol.bytesPerSector.toNat ≤ fatSectorToOffset vol left) ∧
    (fatMount drive).boot = slice drive (fatMountOffset (fatParseMBR drive)) ∧
    (fatMountOffset (fatParseMBR drive) = (fatParseMBR drive).toNat * 512 ↔
      (fatParseMBR drive).toNat * 512 < 2 ^ 32) := by
  have width := vol.bytes_toNat
  refine ⟨fun sector _ => ?_, fun left right _ _ different leftLow rightLow => ?_, rfl, ?_⟩
  · rw [← width]
    exact fatSectorToOffset_eq_iff vol sector
  · rw [← width] at leftLow rightLow ⊢
    exact sectors_apart different ((fatSectorToOffset_eq_iff vol left).mpr leftLow)
      ((fatSectorToOffset_eq_iff vol right).mpr rightLow)
  · have product := sum_mul_exact 0#32 (fatParseMBR drive) 512#32
    rwa [BitVec.zero_add, BitVec.toNat_zero, Nat.zero_add,
      show (512#32).toNat = 512 from rfl] at product

/-- A boot sector with 512 bytes a sector and a little more than 4 GiB. -/
def largeBoot : Nat → BitVec 8
  | 12 => 2
  | 32 => 1
  | 34 => 0x80
  | _ => 0

/-- The offset of the last sector of a volume of a little more than 4 GiB is that of its first
one. -/
theorem large_volume_wraps :
    ¬ ∀ (vol : FATVolume) (sector : BitVec 32), sector < fatTotalSectors vol →
      fatSectorToOffset vol sector =
        (vol.partitionLBA.toNat + sector.toNat) * vol.bytesPerSector.toNat := fun claim =>
  absurd (claim ⟨largeBoot, 0⟩ 0x800000 (by decide +kernel)) (by decide +kernel)

end Unarddeg.Fat
