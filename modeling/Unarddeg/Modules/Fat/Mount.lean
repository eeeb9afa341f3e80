import Unarddeg.Modules.Fat.Volume

/-!
# Finding the volumes

`Init` of `modules/fat/main.c`. It looks at the nodes in `/dev` for a boot sector, mounts what it
finds and prints its geometry. The divisions of the geometry are checked here; the divisors come
from the boot sector that `FatMount` read, which need not be the sector whose magic was found.

A node reads exactly what it is asked for.
-/

namespace Unarddeg.Fat

open Library

/-- A division in C: by zero it stops the processor. -/
def dividing {α : Type} (divisor : Nat) (quotient : α) : Except Stop α :=
  if divisor = 0 then .error .divideByZero else .ok quotient

/-- A division returns exactly when its divisor is not zero. -/
theorem dividing_ok {α : Type} {divisor : Nat} {quotient : α} (nonzero : divisor ≠ 0) :
    dividing divisor quotient = .ok quotient :=
  if_neg nonzero

/-- A division by zero stops. -/
theorem dividing_zero {α : Type} {divisor : Nat} {quotient : α} (zero : divisor = 0) :
    dividing divisor quotient = .error .divideByZero :=
  if_pos zero

namespace Checked

variable (vol : FATVolume)

/-- `FatRootDirSize`. -/
def fatRootDirSize : Except Stop (BitVec 32) :=
  dividing vol.bytes.toNat
    (.ofNat 32 ((vol.rootDirectoryEntries.toNat * 32 + (vol.bytes.toNat - 1)) / vol.bytes.toNat))

/-- `FatFirstData`. -/
def fatFirstData : Except Stop (BitVec 32) := do
  let rootDirSize ← fatRootDirSize vol
  pure (vol.reservedSectors.setWidth 32 + vol.fatCount.setWidth 32 * fatSize vol + rootDirSize)

/-- `FatDataCount`. -/
def fatDataCount : Except Stop (BitVec 32) := do
  let rootDirSize ← fatRootDirSize vol
  pure (fatTotalSectors vol -
    (vol.reservedSectors.setWidth 32 + vol.fatCount.setWidth 32 * fatSize vol + rootDirSize))

/-- `FatClusterCount`. -/
def fatClusterCount : Except Stop (BitVec 32) := do
  let dataCount ← fatDataCount vol
  dividing vol.perCluster.toNat (dataCount / vol.perCluster)

/-- `FatIdentify`. -/
def fatIdentify : Except Stop FATType := do
  let totalClusters ← fatClusterCount vol
  pure (if totalClusters < 4085 ∧ isSigned vol.signature16 then .fat12
    else if totalClusters < 65525 ∧ isSigned vol.signature16 then .fat16
    else if isSigned vol.signature32 then .fat32
    else .unknown)

/-- `FatFirstRoot`. -/
def fatFirstRoot : Except Stop (BitVec 32) := do
  let firstData ← fatFirstData vol
  let rootDirSize ← fatRootDirSize vol
  pure (firstData - rootDirSize)

end Checked

/-- What `Init` prints of a volume. -/
structure Geometry where
  /-- `fat.type`. -/
  type : FATType
  /-- `fat.total-sect`. -/
  totalSectors : BitVec 32
  /-- `fat.size`. -/
  size : BitVec 32
  /-- `fat.root-size`. -/
  rootSize : BitVec 32
  /-- `fat.first-dat`. -/
  firstData : BitVec 32
  /-- `fat.first-fat`. -/
  firstFat : BitVec 32
  /-- `fat.data-cnt`. -/
  dataCount : BitVec 32
  /-- `fat.cluster-cnt`. -/
  clusterCount : BitVec 32
  /-- `fat.first-root`. -/
  firstRoot : BitVec 32
  /-- `fat.root-clust`. -/
  rootCluster : BitVec 32
  /-- `fat.ssize`. -/
  sectorSize : BitVec 16

/-- The lines that `Init` prints of a volume, in their order. -/
def geometry (vol : FATVolume) : Except Stop Geometry := do
  let type ← Checked.fatIdentify vol
  let rootSize ← Checked.fatRootDirSize vol
  let firstData ← Checked.fatFirstData vol
  let dataCount ← Checked.fatDataCount vol
  let clusterCount ← Checked.fatClusterCount vol
  let firstRoot ← Checked.fatFirstRoot vol
  pure
    { type
      totalSectors := fatTotalSectors vol
      size := fatSize vol
      rootSize
      firstData
      firstFat := fatFirstFat vol
      dataCount
      clusterCount
      firstRoot
      rootCluster := fatRootCluster vol
      sectorSize := vol.bytesPerSector }

/-- A node in `/dev`. -/
structure DeviceNode where
  /-- The `Name.Length` characters of `Name.Name`. -/
  name : List (BitVec 8)
  /-- `FileOffset`. -/
  fileOffset : Nat
  /-- The contents of the device. -/
  contents : Drive

/-- The name `tty0`, whose node is passed over. -/
def tty0 : List (BitVec 8) := [0x74, 0x74, 0x79, 0x30]

/-- `FAT_BOOT_SECTOR_SIGN`. -/
def fatBootSectorSign : BitVec 16 := 0xAA55

/-- The 512 bytes that `Init` reads from a node. -/
def DeviceNode.bootSector (node : DeviceNode) : Nat → BitVec 8 :=
  slice node.contents node.fileOffset

/-- A node whose boot sector has the magic. -/
def DeviceNode.Potential (node : DeviceNode) : Prop :=
  little 16 (slice node.bootSector 510) = fatBootSectorSign

instance (node : DeviceNode) : Decidable node.Potential := inferInstanceAs (Decidable (_ = _))

/-- The loop of `Init` over the nodes: the volumes it prints. -/
def init : List DeviceNode → Except Stop (List Geometry)
  | [] => pure []
  | node :: rest =>
    if node.name = tty0 then init rest
    else if node.Potential then do
      let printed ← geometry (fatMount node.contents)
      let others ← init rest
      pure (printed :: others)
    else init rest

/-! ## Divisions -/

/-- The divisors of the geometry are not zero. -/
def FATVolume.Divides (vol : FATVolume) : Prop :=
  vol.bytesPerSector ≠ 0 ∧ vol.sectorsPerCluster ≠ 0

section Divisions

variable {vol : FATVolume}

/-- `BytesPerSector` is zero as a `DWORD` exactly when it is zero. -/
theorem FATVolume.bytes_eq_zero_iff : vol.bytes.toNat = 0 ↔ vol.bytesPerSector = 0 := by
  rw [vol.bytes_toNat]
  constructor
  · intro zero
    exact BitVec.eq_of_toNat_eq zero
  · intro zero
    rw [zero]
    rfl

/-- `SectorsPerCluster` is zero as a `DWORD` exactly when it is zero. -/
theorem FATVolume.perCluster_eq_zero_iff :
    vol.perCluster.toNat = 0 ↔ vol.sectorsPerCluster = 0 := by
  have same : vol.perCluster.toNat = vol.sectorsPerCluster.toNat :=
    BitVec.toNat_setWidth_of_le (by decide)
  rw [same]
  constructor
  · intro zero
    exact BitVec.eq_of_toNat_eq zero
  · intro zero
    rw [zero]
    rfl

/-- Without bytes in a sector `FatRootDirSize` stops. -/
theorem Checked.fatRootDirSize_zero (zero : vol.bytesPerSector = 0) :
    Checked.fatRootDirSize vol = .error .divideByZero :=
  dividing_zero (FATVolume.bytes_eq_zero_iff.mpr zero)

/-- With bytes in a sector `FatRootDirSize` returns. -/
theorem Checked.fatRootDirSize_ok (nonzero : vol.bytesPerSector ≠ 0) :
    Checked.fatRootDirSize vol = .ok (Fat.fatRootDirSize vol) := by
  apply dividing_ok
  intro zero
  exact nonzero (FATVolume.bytes_eq_zero_iff.mp zero)

/-- `FatClusterCount` returns the quotient where both divisors are not zero. -/
theorem Checked.fatClusterCount_ok (divides : vol.Divides) :
    Checked.fatClusterCount vol = .ok (Fat.fatClusterCount vol) := by
  have nonzero : vol.perCluster.toNat ≠ 0 := by
    intro zero
    exact divides.2 (FATVolume.perCluster_eq_zero_iff.mp zero)
  unfold Checked.fatClusterCount Checked.fatDataCount
  rw [Checked.fatRootDirSize_ok divides.1]
  exact dividing_ok nonzero

/-- A zero divisor stops `FatClusterCount`. -/
theorem Checked.fatClusterCount_stops (fails : ¬ vol.Divides) :
    Checked.fatClusterCount vol = .error .divideByZero := by
  unfold Checked.fatClusterCount Checked.fatDataCount
  by_cases zero : vol.bytesPerSector = 0
  · rw [Checked.fatRootDirSize_zero zero]
    rfl
  · have none : vol.sectorsPerCluster = 0 := by
      by_contra some
      exact fails ⟨zero, some⟩
    rw [Checked.fatRootDirSize_ok zero]
    exact dividing_zero (FATVolume.perCluster_eq_zero_iff.mpr none)

/-- The geometry of a volume, without the checks. -/
def printedGeometry (vol : FATVolume) : Geometry where
  type := fatIdentify vol
  totalSectors := fatTotalSectors vol
  size := fatSize vol
  rootSize := fatRootDirSize vol
  firstData := fatFirstData vol
  firstFat := fatFirstFat vol
  dataCount := fatDataCount vol
  clusterCount := fatClusterCount vol
  firstRoot := fatFirstData vol - fatRootDirSize vol
  rootCluster := fatRootCluster vol
  sectorSize := vol.bytesPerSector

/-- The geometry is printed where both divisors are not zero. -/
theorem geometry_ok (divides : vol.Divides) : geometry vol = .ok (printedGeometry vol) := by
  unfold geometry Checked.fatIdentify Checked.fatFirstRoot Checked.fatFirstData
    Checked.fatDataCount
  rw [Checked.fatClusterCount_ok divides, Checked.fatRootDirSize_ok divides.1]
  rfl

/-- A zero divisor stops the printing with its first line. -/
theorem geometry_stops (fails : ¬ vol.Divides) : geometry vol = .error .divideByZero := by
  unfold geometry Checked.fatIdentify
  rw [Checked.fatClusterCount_stops fails]
  rfl

end Divisions

/-- A drive with nothing but the magic. -/
def blankDrive : Drive
  | 510 => 0x55
  | 511 => 0xAA
  | _ => 0

/-- **Offset of a volume.** Where the products stay below 4 GiB, the offset of the first sector of a
volume is the one from which `FatMount` read its boot sector exactly when a sector has 512 bytes or
the volume begins with the drive. -/
theorem boot_offset_iff (drive : Drive)
    (mounted : (fatMount drive).partitionLBA.toNat * 512 < 2 ^ 32)
    (accessed :
      (fatMount drive).partitionLBA.toNat * (fatMount drive).bytesPerSector.toNat < 2 ^ 32) :
    fatSectorToOffset (fatMount drive) 0 = fatMountOffset (fatParseMBR drive) ↔
      (fatMount drive).bytesPerSector = 512 ∨ (fatMount drive).partitionLBA = 0 := by
  have width := (fatMount drive).bytes_toNat
  have start : (fatMount drive).partitionLBA = fatParseMBR drive := rfl
  have later : fatSectorToOffset (fatMount drive) 0 =
      (fatMount drive).partitionLBA.toNat * (fatMount drive).bytesPerSector.toNat := by
    rw [fatSectorToOffset, show (fatMount drive).partitionLBA + 0 = _ from BitVec.add_zero _,
      BitVec.toNat_mul, width]
    exact Nat.mod_eq_of_lt accessed
  have first : fatMountOffset (fatParseMBR drive) = (fatMount drive).partitionLBA.toNat * 512 := by
    rw [fatMountOffset, ← start, BitVec.toNat_mul]
    exact Nat.mod_eq_of_lt mounted
  rw [later, first]
  constructor
  · intro same
    rcases Nat.eq_zero_or_pos (fatMount drive).partitionLBA.toNat with zero | positive
    · exact .inr (BitVec.eq_of_toNat_eq zero)
    · have sizes := Nat.eq_of_mul_eq_mul_left positive same
      exact .inl (BitVec.eq_of_toNat_eq sizes)
  · intro agree
    rcases agree with sizes | zero
    · rw [sizes]
      rfl
    · rw [zero]
      simp

/-- A drive with one FAT partition from sector 1 on, and sectors of some bytes. -/
def partitionedDrive (high : BitVec 8) : Drive
  | 450 => 0x0C
  | 454 => 1
  | 510 => 0x55
  | 511 => 0xAA
  | 524 => high
  | _ => 0

/-- On a partitioned drive with sectors of 512 bytes the offsets agree. -/
theorem boot_offset_iff_sample :
    fatSectorToOffset (fatMount (partitionedDrive 2)) 0 =
      fatMountOffset (fatParseMBR (partitionedDrive 2)) :=
  (boot_offset_iff (partitionedDrive 2) (by decide +kernel) (by decide +kernel)).mpr
    (.inl (by decide +kernel))

/-- On a partitioned drive with sectors of 1024 bytes every access misses the volume. -/
theorem large_sectors_missed :
    ¬ ∀ drive : Drive, (fatMount drive).partitionLBA ≠ 0 →
      (fatMount drive).bytesPerSector ∈ [512, 1024, 2048, 4096] →
      (fatMount drive).partitionLBA.toNat * 512 < 2 ^ 32 →
      (fatMount drive).partitionLBA.toNat * (fatMount drive).bytesPerSector.toNat < 2 ^ 32 →
      fatSectorToOffset (fatMount drive) 0 = fatMountOffset (fatParseMBR drive) := fun claim =>
  absurd
    (claim (partitionedDrive 4) (by decide +kernel) (by decide +kernel) (by decide +kernel)
      (by decide +kernel))
    (by decide +kernel)

end Unarddeg.Fat
