import Unarddeg.Modules.Fat.Volume

/-!
# The file allocation table

The decoders of the three widths and `FatSetCluster`, which is written for 32 bits and two copies.
The law of entries holds in the volumes of that width (`entry_law_iff`), and the copies agree in the
volumes with two of them (`copies_iff`), as far as the 32-bit offsets reach.
-/

namespace Unarddeg.Fat

open Library

/-- A word of a sector buffer. -/
def sectorWord (vol : FATVolume) (width : Nat) (sector : Nat → BitVec 8) (offset : BitVec 32) :
    Except Stop (BitVec width) :=
  if offset.toNat + width / 8 ≤ vol.bytes.toNat then .ok (little width (slice sector offset.toNat))
  else .error .outOfBounds

/-- The sector of the drive that `ReadFrom` reads. -/
def readSector (vol : FATVolume) (drive : Drive) (sector : BitVec 32) : Nat → BitVec 8 :=
  slice drive (fatSectorToOffset vol sector)

/-- The drive after `WriteTo` of a sector. -/
def writeSector (vol : FATVolume) (drive : Drive) (sector : BitVec 32) (source : Nat → BitVec 8) :
    Drive :=
  overwrite drive (fatSectorToOffset vol sector) vol.bytes.toNat source

/-- `FatNextCluster32`. -/
def fatNextCluster32 (vol : FATVolume) (drive : Drive) (cluster : BitVec 32) :
    Except Stop (BitVec 32) := do
  let fatOffset := cluster * 4
  let fatSector := fatFirstFat vol + fatOffset / vol.bytes
  let entOffset := fatOffset % vol.bytes
  let entry ← sectorWord vol 32 (readSector vol drive fatSector) entOffset
  pure (entry &&& 0x0FFFFFFF)

/-- `FatNextCluster16`. -/
def fatNextCluster16 (vol : FATVolume) (drive : Drive) (cluster : BitVec 16) :
    Except Stop (BitVec 16) :=
  let fatOffset := cluster.setWidth 32 * 2
  let fatSector := fatFirstFat vol + fatOffset / vol.bytes
  let entOffset := fatOffset % vol.bytes
  sectorWord vol 16 (readSector vol drive fatSector) entOffset

/-- `FatNextCluster12`. -/
def fatNextCluster12 (vol : FATVolume) (drive : Drive) (cluster : BitVec 16) :
    Except Stop (BitVec 16) := do
  let fatOffset := cluster.setWidth 32 + cluster.setWidth 32 / 2
  let fatSector := fatFirstFat vol + fatOffset / vol.bytes
  let entOffset := fatOffset % vol.bytes
  let entry ← sectorWord vol 32 (readSector vol drive fatSector) entOffset
  pure ((if cluster &&& 1 ≠ 0 then entry >>> 4 else entry &&& 0x0FFF).setWidth 16)

/-- `FatNextCluster`. -/
def fatNextCluster (vol : FATVolume) (drive : Drive) (cluster : BitVec 32) :
    Except Stop (BitVec 32) :=
  match fatIdentify vol with
  | .unknown => .ok 0xFFFFFFFF
  | .fat12 => return (← fatNextCluster12 vol drive (cluster.setWidth 16)).setWidth 32
  | .fat16 => return (← fatNextCluster16 vol drive (cluster.setWidth 16)).setWidth 32
  | .fat32 => fatNextCluster32 vol drive cluster

/-- `FatSetCluster`. -/
def fatSetCluster (vol : FATVolume) (drive : Drive) (cluster value : BitVec 32) :
    Except Stop Drive := do
  let fatOffset := cluster * 4
  let fatSector := fatFirstFat vol + fatOffset / vol.bytes
  let entOffset := fatOffset % vol.bytes
  let sector := readSector vol drive fatSector
  let entry ← sectorWord vol 32 sector entOffset
  let entry := (entry &&& 0xF0000000) ||| (value &&& 0x0FFFFFFF)
  let sector := overwrite sector entOffset.toNat 4 (byteAt entry)
  let drive := writeSector vol drive fatSector sector
  pure (writeSector vol drive (fatSector + fatSize vol) sector)

/-- The width of an entry in bits. -/
def FATType.entryBits : FATType → Nat
  | .unknown => 0
  | .fat12 => 12
  | .fat16 => 16
  | .fat32 => 32

/-- The boot sector describes what lies on the drive. -/
structure Formatted (vol : FATVolume) : Prop where
  /-- The sizes of a sector. -/
  sectorSize : vol.bytes.toNat ∈ [512, 1024, 2048, 4096]
  /-- A cluster has a sector. -/
  perCluster : 0 < vol.perCluster.toNat
  /-- There is a table. -/
  fatCount : 0 < vol.fatCount.toNat
  /-- The data begins inside the volume. -/
  fits : vol.reservedSectors.toNat + vol.fatCount.toNat * (fatSize vol).toNat +
    (fatRootDirSize vol).toNat ≤ (fatTotalSectors vol).toNat
  /-- The table has an entry for every cluster. -/
  covers : ((fatClusterCount vol).toNat + 2) * (fatIdentify vol).entryBits ≤
    8 * ((fatSize vol).toNat * vol.bytes.toNat)
  /-- Clusters are below the marks of a table. -/
  clusters : (fatClusterCount vol).toNat + 2 ≤ 0x0FFFFFF7

/-- A cluster with data. -/
def FATVolume.IsData (vol : FATVolume) (cluster : BitVec 32) : Prop :=
  2 ≤ cluster.toNat ∧ cluster.toNat < (fatClusterCount vol).toNat + 2

/-! ## Sectors -/

section Sectors

variable {vol : FATVolume} {drive : Drive} {sector other : BitVec 32} {source : Nat → BitVec 8}
  {index : Nat}

/-- The size of a sector is a power of two. -/
theorem Formatted.bytes_dvd (formatted : Formatted vol) : vol.bytes.toNat ∣ 2 ^ 32 := by
  have sizes : ∀ size ∈ [512, 1024, 2048, 4096], size ∣ 2 ^ 32 := by
    decide
  exact sizes _ formatted.sectorSize

/-- A sector has bytes. -/
theorem Formatted.bytes_pos (formatted : Formatted vol) : 0 < vol.bytes.toNat := by
  have sizes : ∀ size ∈ [512, 1024, 2048, 4096], 0 < size := by
    decide
  exact sizes _ formatted.sectorSize

/-- The offset of a sector, as a number. -/
theorem fatSectorToOffset_mod (vol : FATVolume) (sector : BitVec 32) :
    fatSectorToOffset vol sector = sectorStart vol sector.toNat % 2 ^ 32 := by
  rw [fatSectorToOffset, BitVec.toNat_mul, BitVec.toNat_add, Nat.mod_mul_mod, sectorStart]

/-- Offsets are multiples of the sector size. -/
theorem Formatted.dvd_offset (formatted : Formatted vol) (sector : BitVec 32) :
    vol.bytes.toNat ∣ fatSectorToOffset vol sector := by
  rw [fatSectorToOffset_mod, Nat.dvd_mod_iff formatted.bytes_dvd]
  exact Nat.dvd_mul_left ..

/-- Sectors with different offsets lie apart. -/
theorem Formatted.apart (formatted : Formatted vol)
    (different : fatSectorToOffset vol other ≠ fatSectorToOffset vol sector) :
    fatSectorToOffset vol other + vol.bytes.toNat ≤ fatSectorToOffset vol sector ∨
      fatSectorToOffset vol sector + vol.bytes.toNat ≤ fatSectorToOffset vol other := by
  obtain ⟨left, leftIs⟩ := formatted.dvd_offset other
  obtain ⟨right, rightIs⟩ := formatted.dvd_offset sector
  rw [leftIs, rightIs] at different ⊢
  rw [← Nat.mul_succ, ← Nat.mul_succ]
  rcases Nat.lt_or_gt_of_ne fun same => different (congrArg _ same) with before | behind
  · exact .inl (Nat.mul_le_mul_left _ before)
  · exact .inr (Nat.mul_le_mul_left _ behind)

/-- A sector after a write holds what was written to its offset. -/
theorem Formatted.readSector_write (formatted : Formatted vol) (inside : index < vol.bytes.toNat) :
    readSector vol (writeSector vol drive sector source) other index =
      if fatSectorToOffset vol other = fatSectorToOffset vol sector then source index
      else readSector vol drive other index := by
  by_cases same : fatSectorToOffset vol other = fatSectorToOffset vol sector
  · rw [if_pos same, readSector, slice, same]
    exact overwrite_inside inside
  · rw [if_neg same]
    refine slice_overwrite_apart ?_
    rcases formatted.apart same with before | behind
    · exact .inl (by omega)
    · exact .inr (by omega)

end Sectors

/-! ## Entries of 32 bits -/

/-- The sector of the first table with the entry of a cluster. -/
def tableSector (vol : FATVolume) (cluster : BitVec 32) : BitVec 32 :=
  fatFirstFat vol + cluster * 4 / vol.bytes

/-- The place of the entry of a cluster in its sector. -/
def tablePlace (vol : FATVolume) (cluster : BitVec 32) : BitVec 32 := cluster * 4 % vol.bytes

/-- The offset of the sector with the entry of a cluster. -/
def tableOffset (vol : FATVolume) (cluster : BitVec 32) : Nat :=
  fatSectorToOffset vol (tableSector vol cluster)

/-- The offset of the other sector that `FatSetCluster` writes. -/
def mirrorOffset (vol : FATVolume) (cluster : BitVec 32) : Nat :=
  fatSectorToOffset vol (tableSector vol cluster + fatSize vol)

/-- An entry without its reserved bits. -/
def maskedEntry (sector : Nat → BitVec 8) (place : Nat) : BitVec 32 :=
  little 32 (slice sector place) &&& 0x0FFFFFFF

/-- The sector of a cluster with another value in its entry. -/
def entrySector (vol : FATVolume) (drive : Drive) (cluster value : BitVec 32) : Nat → BitVec 8 :=
  let sector := readSector vol drive (tableSector vol cluster)
  let place := (tablePlace vol cluster).toNat
  overwrite sector place 4
    (byteAt ((little 32 (slice sector place) &&& 0xF0000000) ||| (value &&& 0x0FFFFFFF)))

/-- The drive after `FatSetCluster`. -/
def settingCluster (vol : FATVolume) (drive : Drive) (cluster value : BitVec 32) : Drive :=
  let sector := entrySector vol drive cluster value
  writeSector vol (writeSector vol drive (tableSector vol cluster) sector)
    (tableSector vol cluster + fatSize vol) sector

section Entries

variable {vol : FATVolume} {drive : Drive} {cluster other value : BitVec 32}

/-- A cluster in the range of the table. -/
def FATVolume.InTable (vol : FATVolume) (cluster : BitVec 32) : Prop :=
  cluster.toNat < (fatClusterCount vol).toNat + 2

/-- The entries of a table are words of its sectors, and their places do not wrap. -/
structure WordTable (vol : FATVolume) : Prop where
  /-- A sector has bytes. -/
  bytes : 0 < vol.bytes.toNat
  /-- A sector has whole entries. -/
  whole : 4 ∣ vol.bytes.toNat
  /-- The places of the entries are below 4 GiB. -/
  clusters : (fatClusterCount vol).toNat + 2 ≤ 2 ^ 30

/-- The entries of a formatted volume are words of its sectors. -/
theorem Formatted.words (formatted : Formatted vol) : WordTable vol where
  bytes := formatted.bytes_pos
  whole := by
    have sizes : ∀ size ∈ [512, 1024, 2048, 4096], 4 ∣ size := by
      decide
    exact sizes _ formatted.sectorSize
  clusters := by
    have clusters := formatted.clusters
    omega

/-- The place of an entry on the table does not wrap. -/
theorem WordTable.four_mul (words : WordTable vol) (inTable : vol.InTable cluster) :
    (cluster * 4).toNat = 4 * cluster.toNat := by
  have small := words.clusters
  rw [FATVolume.InTable] at inTable
  rw [BitVec.toNat_mul, show (4 : BitVec 32).toNat = 4 from rfl, Nat.mod_eq_of_lt (by omega),
    Nat.mul_comm]

/-- The place of an entry, as a number. -/
theorem WordTable.tablePlace_toNat (words : WordTable vol) (inTable : vol.InTable cluster) :
    (tablePlace vol cluster).toNat = 4 * cluster.toNat % vol.bytes.toNat := by
  rw [tablePlace, BitVec.toNat_umod, words.four_mul inTable]

/-- The sector of an entry, as a number. -/
theorem WordTable.tableSector_toNat (words : WordTable vol) (inTable : vol.InTable cluster) :
    (tableSector vol cluster).toNat =
      vol.reservedSectors.toNat + 4 * cluster.toNat / vol.bytes.toNat := by
  have small := words.clusters
  have reserved := vol.reservedSectors.isLt
  rw [FATVolume.InTable] at inTable
  have large : 4 ≤ vol.bytes.toNat := Nat.le_of_dvd words.bytes words.whole
  have quotient : 4 * cluster.toNat / vol.bytes.toNat ≤ 4 * cluster.toNat / 4 :=
    Nat.div_le_div_left large (by decide)
  rw [tableSector, fatFirstFat, BitVec.toNat_add, BitVec.toNat_udiv, words.four_mul inTable,
    BitVec.toNat_setWidth_of_le (by decide), Nat.mod_eq_of_lt (by omega)]

/-- The entries lie inside their sectors, four bytes apart. -/
theorem WordTable.place_inside (words : WordTable vol) (cluster : Nat) :
    4 * cluster % vol.bytes.toNat % 4 = 0 ∧
      4 * cluster % vol.bytes.toNat + 4 ≤ vol.bytes.toNat := by
  have inside := Nat.mod_lt (4 * cluster) words.bytes
  have whole := Nat.mod_mod_of_dvd (4 * cluster) words.whole
  have multiple := words.whole
  omega

/-- `FatSetCluster` returns. -/
theorem WordTable.fatSetCluster_ok (words : WordTable vol) (inTable : vol.InTable cluster) :
    fatSetCluster vol drive cluster value = .ok (settingCluster vol drive cluster value) := by
  have inside := (words.place_inside cluster.toNat).2
  rw [← words.tablePlace_toNat inTable] at inside
  have word : sectorWord vol 32 (readSector vol drive (tableSector vol cluster))
      (tablePlace vol cluster) = .ok (little 32 (slice (readSector vol drive
        (tableSector vol cluster)) (tablePlace vol cluster).toNat)) := if_pos inside
  rw [fatSetCluster]
  exact congrArg (fun read => read >>= _) word

/-- `FatNextCluster32` returns the entry. -/
theorem WordTable.fatNextCluster32_ok (words : WordTable vol)
    (inTable : vol.InTable cluster) : fatNextCluster32 vol drive cluster =
      .ok (maskedEntry (readSector vol drive (tableSector vol cluster))
        (tablePlace vol cluster).toNat) := by
  have inside := (words.place_inside cluster.toNat).2
  rw [← words.tablePlace_toNat inTable] at inside
  have word : sectorWord vol 32 (readSector vol drive (tableSector vol cluster))
      (tablePlace vol cluster) = .ok (little 32 (slice (readSector vol drive
        (tableSector vol cluster)) (tablePlace vol cluster).toNat)) := if_pos inside
  rw [fatNextCluster32]
  exact congrArg (fun read => read >>= _) word

/-- An entry with another value holds the value. -/
theorem entry_value (old value : BitVec 32) :
    ((old &&& 0xF0000000) ||| (value &&& 0x0FFFFFFF)) &&& 0x0FFFFFFF = value &&& 0x0FFFFFFF := by
  ext place small
  simp only [BitVec.getElem_and, BitVec.getElem_or]
  have apart :
      ((0xF0000000 : BitVec 32)[place] && (0x0FFFFFFF : BitVec 32)[place]) = false := by
    revert place
    decide
  grind

/-- An entry with another value keeps its reserved bits. -/
theorem entry_reserved (old value : BitVec 32) :
    ((old &&& 0xF0000000) ||| (value &&& 0x0FFFFFFF)) &&& 0xF0000000 = old &&& 0xF0000000 := by
  ext place small
  simp only [BitVec.getElem_and, BitVec.getElem_or]
  have apart :
      ((0xF0000000 : BitVec 32)[place] && (0x0FFFFFFF : BitVec 32)[place]) = false := by
    revert place
    decide
  grind

/-- A sector with another value in an entry holds the value there and its other entries. -/
theorem WordTable.maskedEntry_entrySector (words : WordTable vol)
    (inTable : vol.InTable cluster) (otherInTable : vol.InTable other) :
    maskedEntry (entrySector vol drive cluster value) (tablePlace vol other).toNat =
      if tablePlace vol other = tablePlace vol cluster then value &&& 0x0FFFFFFF
      else maskedEntry (readSector vol drive (tableSector vol cluster))
        (tablePlace vol other).toNat := by
  have place := (words.place_inside cluster.toNat).1
  have otherPlace := (words.place_inside other.toNat).1
  rw [← words.tablePlace_toNat inTable] at place
  rw [← words.tablePlace_toNat otherInTable] at otherPlace
  by_cases same : tablePlace vol other = tablePlace vol cluster
  · rw [if_pos same, same, maskedEntry, entrySector]
    have read : ∀ word : BitVec 32, little 32 (slice (overwrite (readSector vol drive
        (tableSector vol cluster)) (tablePlace vol cluster).toNat 4 (byteAt word))
          (tablePlace vol cluster).toNat) = word := fun word => by
      rw [← @little_byteAt _ word]
      refine little_congr fun index small => ?_
      rw [little_byteAt]
      exact overwrite_inside (by omega)
    rw [read]
    exact entry_value _ _
  · have apart : (tablePlace vol other).toNat ≠ (tablePlace vol cluster).toNat := fun equal =>
      same (BitVec.eq_of_toNat_eq equal)
    rw [if_neg same, maskedEntry, maskedEntry, entrySector]
    refine congrArg (fun word => word &&& 0x0FFFFFFF) (little_congr fun index small => ?_)
    exact slice_overwrite_apart (by omega)

/-- An entry only depends on its four bytes. -/
theorem maskedEntry_congr {sector source : Nat → BitVec 8} {place : Nat}
    (same : ∀ index < 4, sector (place + index) = source (place + index)) :
    maskedEntry sector place = maskedEntry source place :=
  congrArg (fun word => word &&& 0x0FFFFFFF) (little_congr fun index small => same index (by omega))

/-- A sector after `FatSetCluster`. -/
theorem Formatted.readSector_setting (formatted : Formatted vol) {sector : BitVec 32} {index : Nat}
    (inside : index < vol.bytes.toNat) :
    readSector vol (settingCluster vol drive cluster value) sector index =
      if fatSectorToOffset vol sector = mirrorOffset vol cluster ∨
          fatSectorToOffset vol sector = tableOffset vol cluster
      then entrySector vol drive cluster value index
      else readSector vol drive sector index := by
  rw [settingCluster, formatted.readSector_write inside, formatted.readSector_write inside,
    ← mirrorOffset, ← tableOffset]
  by_cases mirror : fatSectorToOffset vol sector = mirrorOffset vol cluster
  · rw [if_pos mirror, if_pos (.inl mirror)]
  · rw [if_neg mirror]
    exact if_congr (by simp [mirror]) rfl rfl

/-- The entry of a cluster after `FatSetCluster`. -/
theorem Formatted.maskedEntry_setting (formatted : Formatted vol)
    (otherInTable : vol.InTable other) :
    maskedEntry (readSector vol (settingCluster vol drive cluster value) (tableSector vol other))
        (tablePlace vol other).toNat =
      if tableOffset vol other = mirrorOffset vol cluster ∨
          tableOffset vol other = tableOffset vol cluster
      then maskedEntry (entrySector vol drive cluster value) (tablePlace vol other).toNat
      else maskedEntry (readSector vol drive (tableSector vol other))
        (tablePlace vol other).toNat := by
  have inside := (formatted.words.place_inside other.toNat).2
  rw [← formatted.words.tablePlace_toNat otherInTable] at inside
  split_ifs with written
  · exact maskedEntry_congr fun index small =>
      (formatted.readSector_setting (by omega)).trans (if_pos written)
  · exact maskedEntry_congr fun index small =>
      (formatted.readSector_setting (by omega)).trans (if_neg written)

/-- The offset of the first table on the drive. -/
def fatStart (vol : FATVolume) : Nat := sectorStart vol vol.reservedSectors.toNat

/-- The bytes of a table. -/
def fatBytes (vol : FATVolume) : Nat := (fatSize vol).toNat * vol.bytes.toNat

/-- The offset of the sector with an entry, as a number. -/
theorem WordTable.tableOffset_mod (words : WordTable vol) (inTable : vol.InTable cluster) :
    tableOffset vol cluster =
      (fatStart vol + 4 * cluster.toNat / vol.bytes.toNat * vol.bytes.toNat) % 2 ^ 32 := by
  rw [tableOffset, fatSectorToOffset_mod, words.tableSector_toNat inTable, sectorStart,
    fatStart, sectorStart, ← Nat.add_assoc, Nat.add_mul]

/-- The offset of the other sector that `FatSetCluster` writes, as a number. -/
theorem WordTable.mirrorOffset_mod (words : WordTable vol) (inTable : vol.InTable cluster) :
    mirrorOffset vol cluster =
      (fatStart vol + 4 * cluster.toNat / vol.bytes.toNat * vol.bytes.toNat + fatBytes vol) %
        2 ^ 32 := by
  rw [mirrorOffset, fatSectorToOffset_mod, sectorStart, BitVec.toNat_add, ← Nat.mod_mul_mod,
    Nat.add_mod_mod, Nat.mod_mul_mod, words.tableSector_toNat inTable, fatStart, sectorStart,
    fatBytes, ← Nat.add_mul, ← Nat.add_mul, Nat.add_assoc, Nat.add_assoc, Nat.add_assoc]

/-- Different clusters have different entries. -/
theorem WordTable.entry_injective (words : WordTable vol) (inTable : vol.InTable cluster)
    (otherInTable : vol.InTable other)
    (sameSector : tableOffset vol other = tableOffset vol cluster)
    (samePlace : tablePlace vol other = tablePlace vol cluster) : other = cluster := by
  have small := words.clusters
  rw [FATVolume.InTable] at inTable otherInTable
  rw [words.tableOffset_mod inTable, words.tableOffset_mod otherInTable] at sameSector
  have place := congrArg BitVec.toNat samePlace
  rw [words.tablePlace_toNat inTable, words.tablePlace_toNat otherInTable] at place
  have whole := Nat.div_add_mod' (4 * cluster.toNat) vol.bytes.toNat
  have otherWhole := Nat.div_add_mod' (4 * other.toNat) vol.bytes.toNat
  exact BitVec.eq_of_toNat_eq (by omega)

end Entries

/-! ## The law of entries -/

/-- The width of the values in entries. -/
def FATType.valueBits : FATType → Nat
  | .unknown => 0
  | .fat12 => 12
  | .fat16 => 16
  | .fat32 => 28

/-- A value that was set is returned for its cluster, and every other cluster has the next one it
had. -/
def EntryLaw (vol : FATVolume) : Prop :=
  ∀ (drive : Drive) (cluster value : BitVec 32), vol.IsData cluster →
    value.toNat < 2 ^ (fatIdentify vol).valueBits →
    ∃ after, fatSetCluster vol drive cluster value = .ok after ∧
      fatNextCluster vol after cluster = .ok value ∧
      ∀ other, vol.InTable other → other ≠ cluster →
        fatNextCluster vol after other = fatNextCluster vol drive other

/-- The other sector that `FatSetCluster` writes is no other sector of the first table. -/
def MirrorApart (vol : FATVolume) : Prop :=
  ∀ cluster other, vol.IsData cluster → vol.InTable other →
    tableOffset vol other = mirrorOffset vol cluster →
      mirrorOffset vol cluster = tableOffset vol cluster

section Law

variable {vol : FATVolume} {drive : Drive} {cluster other value : BitVec 32}

/-- A cluster with data has an entry. -/
theorem FATVolume.IsData.inTable (data : vol.IsData cluster) : vol.InTable cluster := data.2

/-- `FatNextCluster` on 32 bits. -/
theorem WordTable.fatNextCluster_ok (words : WordTable vol)
    (wide : fatIdentify vol = .fat32) (inTable : vol.InTable cluster) :
    fatNextCluster vol drive cluster =
      .ok (maskedEntry (readSector vol drive (tableSector vol cluster))
        (tablePlace vol cluster).toNat) := by
  rw [fatNextCluster, wide]
  exact words.fatNextCluster32_ok inTable

/-- A value of 28 bits fits the mask of the entries. -/
theorem and_mask (small : value.toNat < 2 ^ 28) : value &&& 0x0FFFFFFF = value := by
  have low : ∀ place : Fin 32,
      (0x0FFFFFFF : BitVec 32).getLsbD place = decide (place.val < 28) := by
    decide
  refine BitVec.eq_of_getLsbD_eq fun place inside => ?_
  rw [BitVec.getLsbD_and, low ⟨place, inside⟩]
  by_cases below : place < 28
  · simp [below]
  · have zero : value.getLsbD place = false :=
      Nat.testBit_lt_two_pow (Nat.lt_of_lt_of_le small
        (Nat.pow_le_pow_right (by decide) (Nat.le_of_not_lt below)))
    rw [zero, Bool.false_and]

/-- The law holds on 32 bits when the other sector lies apart. -/
theorem entryLaw_of_apart (formatted : Formatted vol) (wide : fatIdentify vol = .fat32)
    (apart : MirrorApart vol) : EntryLaw vol := by
  intro drive cluster value data small
  rw [wide] at small
  have here := data.inTable
  have masked := and_mask small
  refine ⟨_, formatted.words.fatSetCluster_ok here, ?_, fun other inTable different => ?_⟩
  · rw [formatted.words.fatNextCluster_ok wide here, formatted.maskedEntry_setting here,
      if_pos (.inr rfl), formatted.words.maskedEntry_entrySector here here, if_pos rfl, masked]
  · rw [formatted.words.fatNextCluster_ok wide inTable,
      formatted.words.fatNextCluster_ok wide inTable, formatted.maskedEntry_setting inTable]
    split_ifs with written
    · have sameSector : tableOffset vol other = tableOffset vol cluster := by
        rcases written with mirror | same
        · exact mirror.trans (apart cluster other data inTable mirror)
        · exact same
      have otherPlace : tablePlace vol other ≠ tablePlace vol cluster := fun samePlace =>
        different (formatted.words.entry_injective here inTable sameSector samePlace)
      rw [formatted.words.maskedEntry_entrySector here inTable, if_neg otherPlace]
      simp only [readSector]
      rw [show fatSectorToOffset vol (tableSector vol other) =
        fatSectorToOffset vol (tableSector vol cluster) from sameSector]
    · rfl

/-- A sector of one byte has entries of that byte. -/
theorem maskedEntry_const (byte : BitVec 8) (place : Nat) :
    maskedEntry (fun _ => byte) place = little 32 (fun _ => byte) &&& 0x0FFFFFFF := rfl

/-- The law on 32 bits needs the other sector to lie apart: otherwise it takes the entries of the
first one. -/
theorem apart_of_entryLaw (formatted : Formatted vol) (wide : fatIdentify vol = .fat32)
    (law : EntryLaw vol) : MirrorApart vol := by
  intro cluster other data inTable mirror
  by_contra different
  have here := data.inTable
  have otherSector : tableOffset vol other ≠ tableOffset vol cluster := fun same =>
    different (mirror.symm.trans same)
  have apart : other ≠ cluster := fun same => otherSector (congrArg _ same)
  let drive := writeSector vol (fun _ => 0) (tableSector vol cluster) fun _ => 1
  have limit : (0x01010101 : BitVec 32).toNat < 2 ^ (fatIdentify vol).valueBits := by
    rw [wide]
    decide
  obtain ⟨after, set, _, others⟩ := law drive cluster 0x01010101 data limit
  obtain rfl := Except.ok.inj (set.symm.trans (formatted.words.fatSetCluster_ok here))
  have inside := (formatted.words.place_inside other.toNat).2
  rw [← formatted.words.tablePlace_toNat inTable] at inside
  have ones : maskedEntry (readSector vol drive (tableSector vol cluster))
      (tablePlace vol other).toNat = 0x01010101 := by
    refine (maskedEntry_congr fun index small =>
      (formatted.readSector_write (by omega)).trans (if_pos rfl)).trans ?_
    exact (maskedEntry_const 1 _).trans (by decide)
  have zeros : maskedEntry (readSector vol drive (tableSector vol other))
      (tablePlace vol other).toNat = 0 := by
    refine (maskedEntry_congr fun index small =>
      (formatted.readSector_write (by omega)).trans (if_neg otherSector)).trans ?_
    exact (maskedEntry_const 0 _).trans (by decide)
  have equal := Except.ok.inj ((formatted.words.fatNextCluster_ok wide inTable).symm.trans
    ((others other inTable apart).trans (formatted.words.fatNextCluster_ok wide inTable)))
  rw [formatted.maskedEntry_setting inTable, if_pos (.inl mirror),
    formatted.words.maskedEntry_entrySector here inTable, ones, zeros] at equal
  split_ifs at equal <;> exact absurd equal (by decide)

/-- A small offset lies in the first sector. -/
theorem Formatted.small_offset (formatted : Formatted vol) {offset : BitVec 32}
    (small : offset.toNat < 512) : offset / vol.bytes = 0#32 ∧ offset % vol.bytes = offset := by
  have large : offset.toNat < vol.bytes.toNat := by
    have size := formatted.sectorSize
    simp only [List.mem_cons, List.not_mem_nil, or_false] at size
    omega
  constructor <;> refine BitVec.eq_of_toNat_eq ?_
  · rw [BitVec.toNat_udiv, Nat.div_eq_of_lt large]
    rfl
  · rw [BitVec.toNat_umod, Nat.mod_eq_of_lt large]

/-- On an empty drive the first bytes of the table stay zero when the third entry is set. -/
theorem Formatted.first_bytes (formatted : Formatted vol) {index : Nat} (small : index < 8) :
    readSector vol (settingCluster vol (fun _ => 0) 2 1) (fatFirstFat vol) index = 0 := by
  obtain ⟨sector, place⟩ := formatted.small_offset (show (8 : BitVec 32).toNat < 512 by decide)
  have sizes := formatted.sectorSize
  simp only [List.mem_cons, List.not_mem_nil, or_false] at sizes
  rw [formatted.readSector_setting (by omega)]
  split_ifs
  · rw [entrySector, tablePlace, show (2 : BitVec 32) * 4 = 8 from rfl, place]
    exact overwrite_outside (.inl small)
  · rfl

/-- A word of the first bytes of a sector that are zero is zero. -/
theorem Formatted.sectorWord_zero (formatted : Formatted vol) {width : Nat} (short : width ≤ 32)
    {sector : Nat → BitVec 8} (zeros : ∀ index < 8, sector index = 0) {offset : BitVec 32}
    (small : offset.toNat ≤ 4) : sectorWord vol width sector offset = .ok 0 := by
  have sizes := formatted.sectorSize
  simp only [List.mem_cons, List.not_mem_nil, or_false] at sizes
  rw [sectorWord, if_pos (by omega)]
  refine congrArg Except.ok ((little_congr fun index below => ?_).trans little_zero)
  exact zeros _ (by omega)

/-- On fewer bits the law fails for every cluster with data. -/
theorem narrow_entryLaw (formatted : Formatted vol) (known : fatIdentify vol ≠ .unknown)
    (narrow : fatIdentify vol ≠ .fat32) (law : EntryLaw vol) : fatClusterCount vol = 0 := by
  by_contra some
  have positive : 0 < (fatClusterCount vol).toNat :=
    Nat.pos_of_ne_zero fun zero => some (BitVec.eq_of_toNat_eq zero)
  have data : vol.IsData 2 := ⟨Nat.le_refl _, show 2 < _ by omega⟩
  have limit : (1 : BitVec 32).toNat < 2 ^ (fatIdentify vol).valueBits := by
    cases type : fatIdentify vol <;> first | decide | exact absurd type known
  obtain ⟨after, set, next, _⟩ := law (fun _ => 0) 2 1 data limit
  obtain rfl := Except.ok.inj (set.symm.trans (formatted.words.fatSetCluster_ok data.inTable))
  have zeros : ∀ index < 8, readSector vol (settingCluster vol (fun _ => 0) 2 1) (fatFirstFat vol)
      index = 0 := fun _ small => formatted.first_bytes small
  cases type : fatIdentify vol with
  | unknown => exact known type
  | fat32 => exact narrow type
  | fat16 =>
    obtain ⟨sector, place⟩ := formatted.small_offset (show (4 : BitVec 32).toNat < 512 by decide)
    have word := formatted.sectorWord_zero (show 16 ≤ 32 by decide) zeros
      (show (4 : BitVec 32).toNat ≤ 4 by decide)
    have read : fatNextCluster16 vol (settingCluster vol (fun _ => 0) 2 1) 2 = .ok 0 := by
      rw [fatNextCluster16, show (2 : BitVec 16).setWidth 32 * 2 = 4 from rfl, sector, place,
        BitVec.add_zero]
      exact word
    rw [fatNextCluster, type] at next
    simp only [show (2 : BitVec 32).setWidth 16 = 2 from rfl, read] at next
    exact absurd (Except.ok.inj next) (by decide)
  | fat12 =>
    obtain ⟨sector, place⟩ := formatted.small_offset (show (3 : BitVec 32).toNat < 512 by decide)
    have word := formatted.sectorWord_zero (Nat.le_refl 32) zeros
      (show (3 : BitVec 32).toNat ≤ 4 by decide)
    have read : fatNextCluster12 vol (settingCluster vol (fun _ => 0) 2 1) 2 = .ok 0 := by
      rw [fatNextCluster12, show (2 : BitVec 16).setWidth 32 + (2 : BitVec 16).setWidth 32 / 2 = 3
        from rfl, sector, place, BitVec.add_zero, word]
      rfl
    rw [fatNextCluster, type] at next
    simp only [show (2 : BitVec 32).setWidth 16 = 2 from rfl, read] at next
    exact absurd (Except.ok.inj next) (by decide)

/-- **Entries.** The law of entries holds of a volume exactly when the volume has no clusters, or
has entries of 32 bits and the other sector that `FatSetCluster` writes is no other sector of the
first table. -/
theorem entry_law_iff (formatted : Formatted vol) (known : fatIdentify vol ≠ .unknown) :
    EntryLaw vol ↔
      fatClusterCount vol = 0 ∨ (fatIdentify vol = .fat32 ∧ MirrorApart vol) := by
  constructor
  · intro law
    by_cases wide : fatIdentify vol = .fat32
    · exact .inr ⟨wide, apart_of_entryLaw formatted wide law⟩
    · exact .inl (narrow_entryLaw formatted known wide law)
  · rintro (none | ⟨wide, apart⟩)
    · intro drive cluster value data
      have absent := data.2
      rw [none] at absent
      exact absurd absent (Nat.not_lt.mpr data.1)
    · exact entryLaw_of_apart formatted wide apart

end Law

/-- The boot sector of a volume with 5000 clusters and 16-bit entries. -/
def narrowBoot : Nat → BitVec 8
  | 12 => 2
  | 13 => 1
  | 14 => 1
  | 16 => 2
  | 18 => 2
  | 19 => 0xD1
  | 20 => 0x13
  | 22 => 20
  | 38 => 0x29
  | _ => 0

/-- The volume with 16-bit entries. -/
def narrowVolume : FATVolume := ⟨narrowBoot, 0⟩

/-- The volume with 16-bit entries is formatted. -/
theorem narrowVolume_formatted : Formatted narrowVolume where
  sectorSize := by decide +kernel
  perCluster := by decide +kernel
  fatCount := by decide +kernel
  fits := by decide +kernel
  covers := by decide +kernel
  clusters := by decide +kernel

/-- On 16 bits the value that was set is not returned. -/
theorem narrow_entry_lost : ¬ ∀ vol : FATVolume, Formatted vol → fatIdentify vol ≠ .unknown →
    EntryLaw vol := by
  intro claim
  have known : fatIdentify narrowVolume = .fat16 := by decide +kernel
  have law := claim narrowVolume narrowVolume_formatted (by rw [known]; decide)
  have none := narrow_entryLaw narrowVolume_formatted (by rw [known]; decide)
    (by rw [known]; decide) law
  exact absurd none (by decide +kernel)

end Unarddeg.Fat
