import Unarddeg.Modules.Fat.Read

/-!
# A volume below 4 GiB

Where the offsets of all sectors are exact the tables and the clusters lie apart on the drive, one
behind the other, whatever multiple of four the size of a sector is.
-/

namespace Unarddeg.Fat

open Library

/-- A volume with 32-bit entries and two tables that ends below 4 GiB. -/
structure LowVolume (vol : FATVolume) : Prop where
  /-- The boot sector describes it. -/
  formatted : Formatted vol
  /-- Its entries have 32 bits. -/
  wide : fatIdentify vol = .fat32
  /-- It has two tables. -/
  two : vol.fatCount = 2
  /-- It ends below 4 GiB. -/
  low : sectorStart vol (fatTotalSectors vol).toNat ≤ 2 ^ 32

/-- A volume with 32-bit entries, of sectors of any number of words, that ends below 4 GiB. -/
structure ExactVolume (vol : FATVolume) : Prop where
  /-- A sector has bytes. -/
  bytes : 0 < vol.bytes.toNat
  /-- A sector has whole entries. -/
  whole : 4 ∣ vol.bytes.toNat
  /-- A cluster has a sector. -/
  perCluster : 0 < vol.perCluster.toNat
  /-- There is a table. -/
  fatCount : 0 < vol.fatCount.toNat
  /-- Its entries have 32 bits. -/
  wide : fatIdentify vol = .fat32
  /-- The data begins inside the volume. -/
  fits : vol.reservedSectors.toNat + vol.fatCount.toNat * (fatSize vol).toNat +
    (fatRootDirSize vol).toNat ≤ (fatTotalSectors vol).toNat
  /-- The table has an entry for every cluster. -/
  covers : 4 * ((fatClusterCount vol).toNat + 2) ≤ fatBytes vol
  /-- It ends below 4 GiB. -/
  low : sectorStart vol (fatTotalSectors vol).toNat ≤ 2 ^ 32

/-- Such a volume with two tables. -/
structure PairedVolume (vol : FATVolume) : Prop where
  /-- Its offsets are exact. -/
  exact : ExactVolume vol
  /-- It has two tables. -/
  two : vol.fatCount = 2

/-- Each number of a cluster is a value of an entry, and no end mark. -/
def FATVolume.Linkable (vol : FATVolume) : Prop := (fatClusterCount vol).toNat + 2 ≤ 0x0FFFFFF8

/-- A formatted volume has sectors of words. -/
theorem LowVolume.paired {vol : FATVolume} (lowVolume : LowVolume vol) : PairedVolume vol where
  exact := {
    bytes := lowVolume.formatted.words.bytes
    whole := lowVolume.formatted.words.whole
    perCluster := lowVolume.formatted.perCluster
    fatCount := lowVolume.formatted.fatCount
    wide := lowVolume.wide
    fits := lowVolume.formatted.fits
    covers := by
      have covers := lowVolume.formatted.covers
      have bits : FATType.entryBits .fat32 = 32 := rfl
      rw [lowVolume.wide, bits, ← fatBytes] at covers
      omega
    low := lowVolume.low }
  two := lowVolume.two

/-- The clusters of a formatted volume can be linked. -/
theorem Formatted.linkable {vol : FATVolume} (formatted : Formatted vol) : vol.Linkable := by
  have clusters := formatted.clusters
  unfold FATVolume.Linkable
  omega

/-- The first sector with data. -/
def firstData (vol : FATVolume) : Nat :=
  vol.reservedSectors.toNat + vol.fatCount.toNat * (fatSize vol).toNat + (fatRootDirSize vol).toNat

/-- The offset of a cluster on the drive. -/
def clusterStart (vol : FATVolume) (cluster : BitVec 32) : Nat :=
  sectorStart vol (firstData vol + (cluster.toNat - 2) * vol.perCluster.toNat)

/-- The bytes of a cluster. -/
def clusterBytes (vol : FATVolume) : Nat := vol.perCluster.toNat * vol.bytes.toNat

/-- An entry of the first table with its reserved bits. -/
def rawEntry (vol : FATVolume) (drive : Drive) (index : Nat) : BitVec 32 :=
  little 32 (slice drive (fatStart vol + 4 * index))

/-! ## Where the sectors lie -/

section Sectors

variable {vol : FATVolume} {drive : Drive} {cluster other : BitVec 32} {index : Nat}

/-- The first sector with data does not wrap. -/
theorem ExactVolume.fatFirstData_toNat (volume : ExactVolume vol) :
    (fatFirstData vol).toNat = firstData vol := by
  have fits := volume.fits
  have total := (fatTotalSectors vol).isLt
  have product : (vol.fatCount.setWidth 32 * fatSize vol).toNat =
      vol.fatCount.toNat * (fatSize vol).toNat := by
    rw [BitVec.toNat_mul, BitVec.toNat_setWidth_of_le (by decide), Nat.mod_eq_of_lt (by omega)]
  rw [fatFirstData, BitVec.toNat_add, BitVec.toNat_add, product,
    BitVec.toNat_setWidth_of_le (by decide), Nat.mod_eq_of_lt (a := _ + _ * _) (by omega),
    Nat.mod_eq_of_lt (by omega), firstData]

/-- The clusters lie inside the volume. -/
theorem ExactVolume.clusters_inside (volume : ExactVolume vol) :
    firstData vol + (fatClusterCount vol).toNat * vol.perCluster.toNat ≤
      (fatTotalSectors vol).toNat := by
  have fits := volume.fits
  rw [← firstData] at fits
  have count : (fatDataCount vol).toNat = (fatTotalSectors vol).toNat - firstData vol := by
    rw [fatDataCount,
      BitVec.toNat_sub_of_le (by rw [BitVec.le_def, volume.fatFirstData_toNat]; exact fits),
      volume.fatFirstData_toNat]
  have whole : (fatClusterCount vol).toNat * vol.perCluster.toNat ≤ (fatDataCount vol).toNat := by
    rw [fatClusterCount, BitVec.toNat_udiv]
    exact Nat.div_mul_le_self ..
  omega

/-- The sectors of a cluster with data lie inside the volume, and do not wrap. -/
theorem ExactVolume.dataSector_toNat (volume : ExactVolume vol) (data : vol.IsData cluster)
    (inside : index < vol.perCluster.toNat) :
    (fatFirstSectorForCluster vol cluster + .ofNat 32 index).toNat =
        firstData vol + (cluster.toNat - 2) * vol.perCluster.toNat + index ∧
      firstData vol + (cluster.toNat - 2) * vol.perCluster.toNat + index <
        (fatTotalSectors vol).toNat := by
  have total := (fatTotalSectors vol).isLt
  have whole := volume.clusters_inside
  obtain ⟨low, high⟩ := data
  have last : (cluster.toNat - 2 + 1) * vol.perCluster.toNat ≤
      (fatClusterCount vol).toNat * vol.perCluster.toNat :=
    Nat.mul_le_mul_right _ (by omega)
  rw [Nat.succ_mul] at last
  have bound : firstData vol + (cluster.toNat - 2) * vol.perCluster.toNat + index <
      (fatTotalSectors vol).toNat := by
    omega
  refine ⟨?_, bound⟩
  have less : (cluster - 2).toNat = cluster.toNat - 2 :=
    BitVec.toNat_sub_of_le (BitVec.le_def.mpr low)
  rw [fatFirstSectorForCluster, BitVec.toNat_add, BitVec.toNat_add, BitVec.toNat_mul, less,
    volume.fatFirstData_toNat, BitVec.toNat_ofNat]
  simp only [Nat.mod_add_mod, Nat.add_mod_mod]
  rw [Nat.mod_eq_of_lt (by omega)]
  omega

/-- The offset of a sector of a cluster with data is exact. -/
theorem ExactVolume.dataOffset (volume : ExactVolume vol) (data : vol.IsData cluster)
    (inside : index < vol.perCluster.toNat) :
    fatSectorToOffset vol (fatFirstSectorForCluster vol cluster + .ofNat 32 index) =
      clusterStart vol cluster + index * vol.bytes.toNat := by
  obtain ⟨sector, bound⟩ := volume.dataSector_toNat data inside
  have low := volume.low
  have positive := volume.bytes
  have below :
      sectorStart vol (firstData vol + (cluster.toNat - 2) * vol.perCluster.toNat + index) <
      2 ^ 32 := by
    refine Nat.lt_of_lt_of_le ?_ low
    rw [sectorStart, sectorStart]
    exact Nat.mul_lt_mul_of_pos_right (by omega) positive
  rw [← sector] at below
  rw [(fatSectorToOffset_eq_iff vol _).mpr below, sector, clusterStart, sectorStart, sectorStart,
    ← Nat.add_mul]
  exact congrArg (fun sum => sum * vol.bytes.toNat) (by omega)

/-- The clusters with data lie behind the tables. -/
theorem tables_before (vol : FATVolume) (cluster : BitVec 32) :
    fatStart vol + vol.fatCount.toNat * fatBytes vol ≤ clusterStart vol cluster := by
  rw [fatStart, fatBytes, clusterStart, firstData, sectorStart, sectorStart,
    ← Nat.mul_assoc, ← Nat.add_mul]
  exact Nat.mul_le_mul_right _ (by omega)

/-- Different clusters lie apart. -/
theorem clusters_apart (data : vol.IsData cluster) (otherData : vol.IsData other)
    (different : other ≠ cluster) :
    clusterStart vol other + clusterBytes vol ≤ clusterStart vol cluster ∨
      clusterStart vol cluster + clusterBytes vol ≤ clusterStart vol other := by
  have apart : other.toNat ≠ cluster.toNat := fun same => different (BitVec.eq_of_toNat_eq same)
  obtain ⟨low, _⟩ := data
  obtain ⟨otherLow, _⟩ := otherData
  simp only [clusterStart, sectorStart, clusterBytes]
  rw [← Nat.add_mul, ← Nat.add_mul]
  rcases Nat.lt_or_gt_of_ne apart with before | behind
  · have step : (other.toNat - 2 + 1) * vol.perCluster.toNat ≤
        (cluster.toNat - 2) * vol.perCluster.toNat := Nat.mul_le_mul_right _ (by omega)
    rw [Nat.succ_mul] at step
    exact .inl (Nat.mul_le_mul_right _ (by omega))
  · have step : (cluster.toNat - 2 + 1) * vol.perCluster.toNat ≤
        (other.toNat - 2) * vol.perCluster.toNat := Nat.mul_le_mul_right _ (by omega)
    rw [Nat.succ_mul] at step
    exact .inr (Nat.mul_le_mul_right _ (by omega))

/-- The tables lie below 4 GiB. -/
theorem ExactVolume.tables_low (volume : ExactVolume vol) :
    fatStart vol + vol.fatCount.toNat * fatBytes vol ≤ 2 ^ 32 := by
  have fits := volume.fits
  apply Nat.le_trans _ volume.low
  rw [fatStart, fatBytes, sectorStart, sectorStart, ← Nat.mul_assoc, ← Nat.add_mul]
  exact Nat.mul_le_mul_right _ (by omega)

/-- The first table lies below 4 GiB. -/
theorem ExactVolume.table_low (volume : ExactVolume vol) :
    fatStart vol + fatBytes vol ≤ 2 ^ 32 := by
  have low := volume.tables_low
  have first : fatBytes vol ≤ vol.fatCount.toNat * fatBytes vol :=
    Nat.le_mul_of_pos_left _ volume.fatCount
  omega

/-- Its entries are words of its sectors. -/
theorem ExactVolume.words (volume : ExactVolume vol) : WordTable vol where
  bytes := volume.bytes
  whole := volume.whole
  clusters := by
    have low := volume.table_low
    have covers := volume.covers
    omega

/-- The entry of a cluster lies in the table. -/
theorem ExactVolume.entry_inside (volume : ExactVolume vol) (inTable : vol.InTable cluster) :
    4 * cluster.toNat + 4 ≤ fatBytes vol := by
  have covers := volume.covers
  unfold FATVolume.InTable at inTable
  omega

/-- The sector of an entry lies in the table. -/
theorem ExactVolume.base_inside (volume : ExactVolume vol) (inTable : vol.InTable cluster) :
    tableBase vol cluster + vol.bytes.toNat ≤ fatBytes vol := by
  have inside := volume.entry_inside inTable
  exact tableBase_whole (by omega)

/-- The offset of the sector with an entry is exact. -/
theorem ExactVolume.tableOffset_eq (volume : ExactVolume vol) (inTable : vol.InTable cluster) :
    tableOffset vol cluster = fatStart vol + tableBase vol cluster := by
  have low := volume.table_low
  have inside := volume.base_inside inTable
  have positive := volume.bytes
  rw [volume.words.tableOffset_mod inTable, ← tableBase, Nat.mod_eq_of_lt (by omega)]

/-- Every entry is read where it is. -/
theorem ExactVolume.fatNextCluster32_eq (volume : ExactVolume vol)
    (inTable : vol.InTable cluster) :
    fatNextCluster32 vol drive cluster = .ok (fatEntry vol drive cluster.toNat) := by
  have low := volume.table_low
  have inside := volume.base_inside inTable
  have positive := volume.bytes
  rw [← volume.words.wrappedEntry_eq volume.wide inTable (by omega)]
  exact volume.words.fatNextCluster32_ok inTable

/-- `FatNextCluster` returns the entry. -/
theorem ExactVolume.fatNextCluster_eq (volume : ExactVolume vol) (inTable : vol.InTable cluster) :
    fatNextCluster vol drive cluster = .ok (fatEntry vol drive cluster.toNat) := by
  rw [fatNextCluster, volume.wide]
  exact volume.fatNextCluster32_eq inTable

/-- An entry is what its word holds without the reserved bits. -/
theorem ExactVolume.fatEntry_eq (volume : ExactVolume vol) (index : Nat) :
    fatEntry vol drive index = rawEntry vol drive index &&& 0x0FFFFFFF := by
  rw [fatEntry, volume.wide]
  rfl

/-- The number of a cluster with data fits an entry. -/
theorem FATVolume.Linkable.and_mask (linkable : vol.Linkable) (data : vol.IsData cluster) :
    cluster &&& 0x0FFFFFFF = cluster := by
  have below := data.2
  unfold FATVolume.Linkable at linkable
  exact Fat.and_mask (by omega)

end Sectors

/-! ## Setting an entry -/

section Setting

variable {vol : FATVolume} {drive : Drive} {cluster other value : BitVec 32} {position index : Nat}

/-- The offset of the sector in the second table is exact. -/
theorem PairedVolume.mirrorOffset_eq (volume : PairedVolume vol) (inTable : vol.InTable cluster) :
    mirrorOffset vol cluster = fatStart vol + tableBase vol cluster + fatBytes vol := by
  have low := volume.exact.tables_low
  have inside := volume.exact.base_inside inTable
  have positive := volume.exact.bytes
  have count : vol.fatCount.toNat = 2 := congrArg BitVec.toNat volume.two
  rw [count] at low
  rw [volume.exact.words.mirrorOffset_mod inTable, ← tableBase, Nat.mod_eq_of_lt (by omega)]

/-- The clusters with data lie behind the two tables. -/
theorem PairedVolume.tables_before (volume : PairedVolume vol) (cluster : BitVec 32) :
    fatStart vol + 2 * fatBytes vol ≤ clusterStart vol cluster := by
  have count : vol.fatCount.toNat = 2 := congrArg BitVec.toNat volume.two
  have before := Fat.tables_before vol cluster
  rwa [count] at before

/-- In the first table `FatSetCluster` changes the four bytes of the entry, and keeps its reserved
bits. -/
theorem PairedVolume.setting_apply (volume : PairedVolume vol) (inTable : vol.InTable cluster)
    (first : position < fatStart vol + fatBytes vol) :
    settingCluster vol drive cluster value position =
      if fatStart vol + 4 * cluster.toNat ≤ position ∧
          position < fatStart vol + 4 * cluster.toNat + 4
      then byteAt ((rawEntry vol drive cluster.toNat &&& 0xF0000000) ||| (value &&& 0x0FFFFFFF))
        (position - (fatStart vol + 4 * cluster.toNat))
      else drive position := by
  have table := volume.exact.tableOffset_eq inTable
  have place := volume.exact.words.tableBase_add inTable
  have inside := (volume.exact.words.place_inside cluster.toNat).2
  rw [← volume.exact.words.tablePlace_toNat inTable] at inside
  have word : little 32 (slice (readSector vol drive (tableSector vol cluster))
      (tablePlace vol cluster).toNat) = rawEntry vol drive cluster.toNat := by
    rw [readSector, ← tableOffset, table, slice_slice, Nat.add_assoc, place]
    rfl
  rw [settingCluster_apply, volume.mirrorOffset_eq inTable, table, if_neg (by omega)]
  by_cases sector : fatStart vol + tableBase vol cluster ≤ position ∧
      position < fatStart vol + tableBase vol cluster + vol.bytes.toNat
  · rw [if_pos sector, entrySector, word, overwrite]
    by_cases here : fatStart vol + 4 * cluster.toNat ≤ position ∧
        position < fatStart vol + 4 * cluster.toNat + 4
    · rw [if_pos here, if_pos (by omega)]
      congr 1
      omega
    · rw [if_neg here, if_neg (by omega), readSector, ← tableOffset, table, slice]
      congr 1
      omega
  · rw [if_neg sector, if_neg (by omega)]

/-- Behind the tables `FatSetCluster` changes nothing. -/
theorem PairedVolume.setting_behind (volume : PairedVolume vol) (inTable : vol.InTable cluster)
    (behind : fatStart vol + 2 * fatBytes vol ≤ position) :
    settingCluster vol drive cluster value position = drive position := by
  have inside := volume.exact.base_inside inTable
  rw [settingCluster_apply, volume.mirrorOffset_eq inTable, volume.exact.tableOffset_eq inTable,
    if_neg (by omega), if_neg (by omega)]

/-- The words of the table after `FatSetCluster`. -/
theorem PairedVolume.rawEntry_setting (volume : PairedVolume vol) (inTable : vol.InTable cluster)
    (inside : 4 * index + 4 ≤ fatBytes vol) :
    rawEntry vol (settingCluster vol drive cluster value) index =
      if index = cluster.toNat
      then (rawEntry vol drive cluster.toNat &&& 0xF0000000) ||| (value &&& 0x0FFFFFFF)
      else rawEntry vol drive index := by
  by_cases same : index = cluster.toNat
  · rw [if_pos same, same]
    rw [same] at inside
    conv_rhs => rw [← @little_byteAt 32 (_ ||| _)]
    apply little_congr
    intro place small
    rw [slice, volume.setting_apply inTable (by omega), if_pos (by omega), Nat.add_sub_cancel_left]
  · rw [if_neg same]
    apply little_congr
    intro place small
    rw [slice, volume.setting_apply inTable (by omega), if_neg (by omega), slice]

/-- The entries after `FatSetCluster`. -/
theorem PairedVolume.fatEntry_setting (volume : PairedVolume vol) (inTable : vol.InTable cluster)
    (otherInTable : vol.InTable other) :
    fatEntry vol (settingCluster vol drive cluster value) other.toNat =
      if other = cluster then value &&& 0x0FFFFFFF else fatEntry vol drive other.toNat := by
  have inside := volume.exact.entry_inside otherInTable
  rw [volume.exact.fatEntry_eq, volume.rawEntry_setting inTable inside]
  by_cases same : other = cluster
  · rw [if_pos same, if_pos (congrArg _ same), entry_value]
  · have apart : other.toNat ≠ cluster.toNat := fun equal => same (BitVec.eq_of_toNat_eq equal)
    rw [if_neg same, if_neg apart, volume.exact.fatEntry_eq]

/-- Words of the table only depend on the first table. -/
theorem rawEntry_congr {after : Drive} (inside : 4 * index + 4 ≤ fatBytes vol)
    (same : ∀ position, fatStart vol ≤ position → position < fatStart vol + fatBytes vol →
      after position = drive position) :
    rawEntry vol after index = rawEntry vol drive index := by
  apply little_congr
  intro place small
  exact same _ (by omega) (by omega)

/-- Entries only depend on the first table. -/
theorem ExactVolume.fatEntry_congr (volume : ExactVolume vol) {after : Drive}
    (inTable : vol.InTable cluster)
    (same : ∀ position, fatStart vol ≤ position → position < fatStart vol + fatBytes vol →
      after position = drive position) :
    fatEntry vol after cluster.toNat = fatEntry vol drive cluster.toNat := by
  rw [volume.fatEntry_eq, volume.fatEntry_eq, rawEntry_congr (volume.entry_inside inTable) same]

/-- `FatSetCluster` keeps the tables equal. -/
theorem PairedVolume.setting_copies (volume : PairedVolume vol) (inTable : vol.InTable cluster)
    (agree : CopiesAgree vol drive) : CopiesAgree vol (settingCluster vol drive cluster value) :=
  setting_agree volume.two (volume.exact.tableOffset_eq inTable) (volume.mirrorOffset_eq inTable)
    (volume.exact.base_inside inTable) agree

/-- What leaves the two tables as they are keeps them equal. -/
theorem PairedVolume.copies_congr (volume : PairedVolume vol) {after : Drive}
    (same : ∀ position, position < fatStart vol + 2 * fatBytes vol →
      after position = drive position)
    (agree : CopiesAgree vol drive) : CopiesAgree vol after := by
  intro copy copies index inside
  have count : vol.fatCount.toNat = 2 := congrArg BitVec.toNat volume.two
  have last : (copy + 1) * fatBytes vol ≤ 2 * fatBytes vol :=
    Nat.mul_le_mul_right _ (by omega)
  rw [Nat.succ_mul] at last
  rw [same _ (by omega), same _ (by omega)]
  exact agree copy copies index inside

end Setting

/-! ## The bytes of a chain -/

/-- A byte of the sectors of some clusters, one behind the other. -/
def chainByte (vol : FATVolume) (drive : Drive) (clusters : List (BitVec 32)) (index : Nat) :
    BitVec 8 :=
  let cluster := clusters.getD (index / clusterBytes vol) 0
  let place := index % clusterBytes vol
  readSector vol drive
    (fatFirstSectorForCluster vol cluster + .ofNat 32 (place / vol.bytes.toNat))
    (place % vol.bytes.toNat)

section Bytes

variable {vol : FATVolume} {drive : Drive} {cluster : BitVec 32} {clusters : List (BitVec 32)}
  {index : Nat}

/-- A cluster has bytes. -/
theorem ExactVolume.clusterBytes_pos (volume : ExactVolume vol) : 0 < clusterBytes vol :=
  Nat.mul_pos volume.perCluster volume.bytes

/-- A byte of a sector of a cluster with data. -/
theorem ExactVolume.readSector_data (volume : ExactVolume vol) (data : vol.IsData cluster)
    {sector : Nat} (inside : sector < vol.perCluster.toNat) :
    readSector vol drive (fatFirstSectorForCluster vol cluster + .ofNat 32 sector) index =
      drive (clusterStart vol cluster + sector * vol.bytes.toNat + index) := by
  rw [readSector, slice, volume.dataOffset data inside]

/-- A byte of a chain lies in one of its clusters. -/
theorem ExactVolume.chainByte_eq (volume : ExactVolume vol)
    (data : vol.IsData (clusters.getD (index / clusterBytes vol) 0)) :
    chainByte vol drive clusters index =
      drive (clusterStart vol (clusters.getD (index / clusterBytes vol) 0) +
        index % clusterBytes vol) := by
  have place := Nat.mod_lt index volume.clusterBytes_pos
  have sector : index % clusterBytes vol / vol.bytes.toNat < vol.perCluster.toNat :=
    (Nat.div_lt_iff_lt_mul volume.bytes).mpr place
  rw [chainByte, volume.readSector_data data sector, Nat.add_assoc, Nat.div_add_mod']

/-- A byte of the first cluster. -/
theorem ExactVolume.chainByte_head (volume : ExactVolume vol) (data : vol.IsData cluster)
    (inside : index < clusterBytes vol) :
    chainByte vol drive (cluster :: clusters) index = drive (clusterStart vol cluster + index) := by
  have first : (cluster :: clusters).getD (index / clusterBytes vol) 0 = cluster := by
    rw [Nat.div_eq_of_lt inside, List.getD_cons_zero]
  rw [volume.chainByte_eq (by rwa [first]), first, Nat.mod_eq_of_lt inside]

/-- A byte behind the first cluster. -/
theorem ExactVolume.chainByte_tail (volume : ExactVolume vol) :
    chainByte vol drive (cluster :: clusters) (clusterBytes vol + index) =
      chainByte vol drive clusters index := by
  simp only [chainByte, Nat.add_div_left _ volume.clusterBytes_pos, Nat.add_mod_left,
    List.getD_cons_succ]

end Bytes

end Unarddeg.Fat
