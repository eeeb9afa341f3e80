import Unarddeg.Modules.Fat.Table

/-!
# The copies of the table

`FatSetCluster` writes the sector of an entry and the one a table further. With two tables below
4 GiB these are the sectors of the entry in the two copies.
-/

namespace Unarddeg.Fat

open Library

/-- All copies of the table agree with the first one. -/
def CopiesAgree (vol : FATVolume) (drive : Drive) : Prop :=
  ∀ copy < vol.fatCount.toNat, ∀ index < fatBytes vol,
    drive (fatStart vol + copy * fatBytes vol + index) = drive (fatStart vol + index)

/-- A position outside the tables. -/
def OutsideTables (vol : FATVolume) (position : Nat) : Prop :=
  position < fatStart vol ∨ fatStart vol + vol.fatCount.toNat * fatBytes vol ≤ position

/-- `FatSetCluster` keeps the copies equal and everything outside the tables as it is. -/
def CopiesLaw (vol : FATVolume) : Prop :=
  ∀ drive, CopiesAgree vol drive → ∀ cluster value, vol.InTable cluster →
    ∃ after, fatSetCluster vol drive cluster value = .ok after ∧ CopiesAgree vol after ∧
      ∀ position, OutsideTables vol position → after position = drive position

/-- The place of the sector with an entry in a table. -/
def tableBase (vol : FATVolume) (cluster : BitVec 32) : Nat :=
  4 * cluster.toNat / vol.bytes.toNat * vol.bytes.toNat

/-- There are two tables, and the sectors that `FatSetCluster` writes in them lie below 4 GiB. -/
def TwoLowTables (vol : FATVolume) : Prop :=
  vol.fatCount = 2 ∧ ∀ cluster, vol.InTable cluster →
    fatStart vol + fatBytes vol + tableBase vol cluster < 2 ^ 32

/-- There is one table, so large that the offset of the other sector wraps around into it. -/
def OneHugeTable (vol : FATVolume) : Prop :=
  vol.fatCount = 1 ∧ ∀ cluster, vol.InTable cluster →
    fatStart vol + tableBase vol cluster < 2 ^ 32 ∧ fatStart vol ≤ mirrorOffset vol cluster ∧
      mirrorOffset vol cluster + vol.bytes.toNat ≤ fatStart vol + fatBytes vol

section Copies

variable {vol : FATVolume} {drive : Drive} {cluster value : BitVec 32} {position : Nat}

/-- The whole sector of an entry in the table lies in the table. -/
theorem tableBase_whole (low : 4 * cluster.toNat < fatBytes vol) :
    tableBase vol cluster + vol.bytes.toNat ≤ fatBytes vol := by
  unfold tableBase fatBytes
  rw [← Nat.succ_mul]
  apply Nat.mul_le_mul_right
  exact Nat.div_lt_of_lt_mul (Nat.lt_of_lt_of_eq low (Nat.mul_comm ..))

/-- The whole sector of an entry lies in the table. -/
theorem Formatted.tableBase_inside (formatted : Formatted vol)
    (wide : fatIdentify vol = .fat32) (inTable : vol.InTable cluster) :
    4 * cluster.toNat < fatBytes vol ∧ tableBase vol cluster + vol.bytes.toNat ≤ fatBytes vol := by
  have covers : ((fatClusterCount vol).toNat + 2) * 32 ≤ 8 * fatBytes vol := by
    have covers := formatted.covers
    rwa [wide] at covers
  rw [FATVolume.InTable] at inTable
  have low : 4 * cluster.toNat < fatBytes vol := by omega
  exact ⟨low, tableBase_whole low⟩

/-- An entry lies behind the beginning of its sector. -/
theorem WordTable.tableBase_add (words : WordTable vol) (inTable : vol.InTable cluster) :
    tableBase vol cluster + (tablePlace vol cluster).toNat = 4 * cluster.toNat := by
  rw [tableBase, words.tablePlace_toNat inTable]
  exact Nat.div_add_mod' ..

/-- A byte after `FatSetCluster`. -/
theorem settingCluster_apply : settingCluster vol drive cluster value position =
    if mirrorOffset vol cluster ≤ position ∧
        position < mirrorOffset vol cluster + vol.bytes.toNat
    then entrySector vol drive cluster value (position - mirrorOffset vol cluster)
    else if tableOffset vol cluster ≤ position ∧
        position < tableOffset vol cluster + vol.bytes.toNat
    then entrySector vol drive cluster value (position - tableOffset vol cluster)
    else drive position := rfl

/-- Two tables stay equal when both sectors of an entry are written where they are. -/
theorem setting_agree (two : vol.fatCount = 2)
    (table : tableOffset vol cluster = fatStart vol + tableBase vol cluster)
    (mirror : mirrorOffset vol cluster = fatStart vol + tableBase vol cluster + fatBytes vol)
    (whole : tableBase vol cluster + vol.bytes.toNat ≤ fatBytes vol)
    (agree : CopiesAgree vol drive) : CopiesAgree vol (settingCluster vol drive cluster value) := by
  intro copy copies index inside
  have count : vol.fatCount.toNat = 2 := congrArg BitVec.toNat two
  have second := agree copy copies index inside
  rw [count] at copies
  rw [settingCluster_apply, settingCluster_apply, table, mirror]
  rcases Nat.le_one_iff_eq_zero_or_eq_one.mp (Nat.le_of_lt_succ copies) with rfl | rfl
  · rw [Nat.zero_mul, Nat.add_zero]
  · rw [Nat.one_mul] at second ⊢
    by_cases here : tableBase vol cluster ≤ index ∧
        index < tableBase vol cluster + vol.bytes.toNat
    · rw [if_pos (by omega), if_neg (by omega), if_pos (by omega)]
      congr 1
      omega
    · rw [if_neg (by omega), if_neg (by omega), if_neg (by omega), if_neg (by omega), second]

/-- With two tables below 4 GiB the copies stay equal. -/
theorem copiesLaw_of_two (formatted : Formatted vol) (wide : fatIdentify vol = .fat32)
    (two : TwoLowTables vol) : CopiesLaw vol := by
  intro drive agree cluster value inTable
  obtain ⟨_, whole⟩ := formatted.tableBase_inside wide inTable
  have low := two.2 cluster inTable
  have count : vol.fatCount.toNat = 2 := congrArg BitVec.toNat two.1
  have table : tableOffset vol cluster = fatStart vol + tableBase vol cluster :=
    (formatted.words.tableOffset_mod inTable).trans (Nat.mod_eq_of_lt (by rw [← tableBase]; omega))
  have mirror : mirrorOffset vol cluster =
      fatStart vol + tableBase vol cluster + fatBytes vol :=
    (formatted.words.mirrorOffset_mod inTable).trans (Nat.mod_eq_of_lt (by rw [← tableBase]; omega))
  refine ⟨_, formatted.words.fatSetCluster_ok inTable,
    setting_agree two.1 table mirror whole agree, fun position outside => ?_⟩
  rw [OutsideTables, count] at outside
  rw [settingCluster_apply, table, mirror, if_neg (by omega), if_neg (by omega)]

/-- With one table into which both offsets lead nothing outside changes. -/
theorem copiesLaw_of_one (formatted : Formatted vol) (wide : fatIdentify vol = .fat32)
    (one : OneHugeTable vol) : CopiesLaw vol := by
  intro drive agree cluster value inTable
  obtain ⟨_, whole⟩ := formatted.tableBase_inside wide inTable
  obtain ⟨low, behind, before⟩ := one.2 cluster inTable
  have count : vol.fatCount.toNat = 1 := congrArg BitVec.toNat one.1
  have table : tableOffset vol cluster = fatStart vol + tableBase vol cluster :=
    (formatted.words.tableOffset_mod inTable).trans (Nat.mod_eq_of_lt low)
  refine ⟨_, formatted.words.fatSetCluster_ok inTable, fun copy copies index inside => ?_,
    fun position outside => ?_⟩
  · rw [count] at copies
    obtain rfl := Nat.lt_one_iff.mp copies
    rw [Nat.zero_mul, Nat.add_zero]
  · rw [OutsideTables, count] at outside
    rw [settingCluster_apply, table, if_neg (by omega), if_neg (by omega)]

/-- On an empty drive the value 1 changes the first byte of the two places. -/
theorem Formatted.setting_one (formatted : Formatted vol) (inTable : vol.InTable cluster) :
    settingCluster vol (fun _ => 0) cluster 1 position ≠ 0 ↔
      position = tableOffset vol cluster + (tablePlace vol cluster).toNat ∨
        position = mirrorOffset vol cluster + (tablePlace vol cluster).toNat := by
  have inside := (formatted.words.place_inside cluster.toNat).2
  rw [← formatted.words.tablePlace_toNat inTable] at inside
  have content : ∀ index, entrySector vol (fun _ => 0) cluster 1 index ≠ 0 ↔
      index = (tablePlace vol cluster).toNat := by
    intro index
    have bytes : ∀ place < 4, byteAt ((0 &&& 0xF0000000) ||| (1 &&& 0x0FFFFFFF) : BitVec 32) place ≠
        0 ↔ place = 0 := by
      decide
    have old : little 32 (slice (readSector vol (fun _ => 0) (tableSector vol cluster))
        (tablePlace vol cluster).toNat) = 0 := little_zero
    rw [entrySector, old, overwrite]
    split_ifs with here
    · rw [bytes _ (by omega)]
      omega
    · simp only [readSector, slice, ne_eq, not_true_eq_false, false_iff]
      omega
  rw [settingCluster_apply]
  split_ifs with mirror table
  · rw [content]
    by_cases apart : mirrorOffset vol cluster = tableOffset vol cluster
    · omega
    · have lie : mirrorOffset vol cluster + vol.bytes.toNat ≤ tableOffset vol cluster ∨
          tableOffset vol cluster + vol.bytes.toNat ≤ mirrorOffset vol cluster :=
        formatted.apart apart
      omega
  · rw [content]
    omega
  · simp only [ne_eq, not_true_eq_false, false_iff]
    omega

/-- What the law says of the value 1 on an empty drive: both changed bytes lie in the tables, and
where one lies, one lies in every copy. -/
theorem CopiesLaw.changed (law : CopiesLaw vol) (formatted : Formatted vol)
    (inTable : vol.InTable cluster)
    (changed : settingCluster vol (fun _ => 0) cluster 1 position ≠ 0) :
    ∃ index < fatBytes vol, (∃ copy < vol.fatCount.toNat,
        position = fatStart vol + copy * fatBytes vol + index) ∧
      ∀ copy < vol.fatCount.toNat,
        settingCluster vol (fun _ => 0) cluster 1 (fatStart vol + copy * fatBytes vol + index) ≠
          0 := by
  obtain ⟨after, set, agree, frame⟩ := law (fun _ => 0) (fun _ _ _ _ => rfl) cluster 1 inTable
  obtain rfl := Except.ok.inj (set.symm.trans (formatted.words.fatSetCluster_ok inTable))
  have inside : ¬ OutsideTables vol position := fun outside => changed (frame position outside)
  rw [OutsideTables, not_or, Nat.not_lt, Nat.not_le] at inside
  have positive : 0 < fatBytes vol := by
    refine Nat.pos_of_ne_zero fun zero => ?_
    rw [zero] at inside
    omega
  obtain ⟨distance, rfl⟩ := Nat.exists_eq_add_of_le inside.1
  have copies : distance / fatBytes vol < vol.fatCount.toNat :=
    Nat.div_lt_of_lt_mul (by rw [Nat.mul_comm]; omega)
  have whole := Nat.div_add_mod' distance (fatBytes vol)
  have small := Nat.mod_lt distance positive
  have place : fatStart vol + distance =
      fatStart vol + distance / fatBytes vol * fatBytes vol + distance % fatBytes vol := by
    omega
  refine ⟨distance % fatBytes vol, small, ⟨_, copies, place⟩, fun copy below => ?_⟩
  rw [agree copy below _ small, ← agree _ copies _ small, ← place]
  exact changed

/-- Under the law the offset of the entry is exact. -/
theorem CopiesLaw.table_exact (law : CopiesLaw vol) (formatted : Formatted vol)
    (inTable : vol.InTable cluster) :
    tableOffset vol cluster = fatStart vol + tableBase vol cluster := by
  have small := formatted.clusters
  have here := (formatted.setting_one inTable).mpr (.inl rfl)
  obtain ⟨index, _, ⟨copy, _, position⟩, _⟩ := law.changed formatted inTable here
  have add := formatted.words.tableBase_add inTable
  have modular : tableOffset vol cluster = (fatStart vol + tableBase vol cluster) % 2 ^ 32 :=
    formatted.words.tableOffset_mod inTable
  rw [FATVolume.InTable] at inTable
  have behind : fatStart vol ≤ tableOffset vol cluster + (tablePlace vol cluster).toNat := by
    rw [position, Nat.add_assoc]
    exact Nat.le_add_right ..
  omega

/-- Under the law there are at most two tables. -/
theorem CopiesLaw.count_le (law : CopiesLaw vol) (formatted : Formatted vol) :
    vol.fatCount.toNat ≤ 2 := by
  by_contra many
  have inTable : vol.InTable 0 := Nat.lt_of_lt_of_le (by decide : (0 : BitVec 32).toNat < 2)
    (Nat.le_add_left 2 _)
  have here := (formatted.setting_one inTable).mpr (.inl rfl)
  obtain ⟨index, small, _, every⟩ := law.changed formatted inTable here
  have first := (formatted.setting_one inTable).mp (every 0 (by omega))
  have second := (formatted.setting_one inTable).mp (every 1 (by omega))
  have third := (formatted.setting_one inTable).mp (every 2 (by omega))
  omega

/-- Under the law two tables lie below 4 GiB as far as they are written. -/
theorem CopiesLaw.two (law : CopiesLaw vol) (formatted : Formatted vol)
    (wide : fatIdentify vol = .fat32) (count : vol.fatCount.toNat = 2) : TwoLowTables vol := by
  refine ⟨BitVec.eq_of_toNat_eq count, fun cluster inTable => ?_⟩
  obtain ⟨inside, _⟩ := formatted.tableBase_inside wide inTable
  have here := (formatted.setting_one inTable).mpr (.inl rfl)
  obtain ⟨index, small, ⟨copy, copies, position⟩, every⟩ := law.changed formatted inTable here
  have exact := law.table_exact formatted inTable
  have add := formatted.words.tableBase_add inTable
  have first := (formatted.setting_one inTable).mp (every 0 (by omega))
  have second := (formatted.setting_one inTable).mp (every 1 (by omega))
  have mirror : mirrorOffset vol cluster < 2 ^ 32 := by
    rw [formatted.words.mirrorOffset_mod inTable]
    exact Nat.mod_lt _ (by decide)
  omega

/-- Under the law a single table takes both writes. -/
theorem CopiesLaw.one (law : CopiesLaw vol) (formatted : Formatted vol)
    (count : vol.fatCount.toNat = 1) : OneHugeTable vol := by
  refine ⟨BitVec.eq_of_toNat_eq count, fun cluster inTable => ?_⟩
  have exact := law.table_exact formatted inTable
  have there := (formatted.setting_one inTable).mpr (.inr rfl)
  obtain ⟨index, small, ⟨copy, copies, position⟩, _⟩ := law.changed formatted inTable there
  have place := (formatted.words.place_inside cluster.toNat).2
  rw [← formatted.words.tablePlace_toNat inTable] at place
  have low : tableOffset vol cluster < 2 ^ 32 := by
    rw [formatted.words.tableOffset_mod inTable]
    exact Nat.mod_lt _ (by decide)
  rw [count] at copies
  obtain rfl := Nat.lt_one_iff.mp copies
  refine ⟨exact ▸ low, ?_⟩
  -- Both offsets are multiples of the sector size, so the whole sector lies where its byte does.
  obtain ⟨mirror, mirrorIs⟩ := formatted.dvd_offset (tableSector vol cluster + fatSize vol)
  have mirrorIs : mirrorOffset vol cluster = vol.bytes.toNat * mirror := mirrorIs
  have startIs : fatStart vol =
      vol.bytes.toNat * (vol.partitionLBA.toNat + vol.reservedSectors.toNat) := Nat.mul_comm ..
  have sizeIs : fatBytes vol = vol.bytes.toNat * (fatSize vol).toNat := Nat.mul_comm ..
  have sectors : vol.partitionLBA.toNat + vol.reservedSectors.toNat ≤ mirror ∧
      mirror < vol.partitionLBA.toNat + vol.reservedSectors.toNat + (fatSize vol).toNat := by
    constructor
    · refine Nat.le_of_lt_succ (Nat.lt_of_mul_lt_mul_left (a := vol.bytes.toNat) ?_)
      rw [Nat.mul_succ]
      omega
    · refine Nat.lt_of_mul_lt_mul_left (a := vol.bytes.toNat) ?_
      rw [Nat.mul_add]
      omega
  rw [mirrorIs, startIs, sizeIs, ← Nat.mul_add, ← Nat.mul_succ]
  exact ⟨Nat.mul_le_mul_left _ sectors.1, Nat.mul_le_mul_left _ sectors.2⟩

/-- **Copies.** `FatSetCluster` keeps the copies equal and the rest of the drive as it is exactly
when there are two tables below 4 GiB, or one that is large enough for both writes. -/
theorem copies_iff (formatted : Formatted vol) (wide : fatIdentify vol = .fat32) :
    CopiesLaw vol ↔ TwoLowTables vol ∨ OneHugeTable vol := by
  constructor
  · intro law
    have positive := formatted.fatCount
    have count := law.count_le formatted
    rcases (by omega : vol.fatCount.toNat = 2 ∨ vol.fatCount.toNat = 1) with two | one
    · exact .inl (law.two formatted wide two)
    · exact .inr (law.one formatted one)
  · rintro (two | one)
    · exact copiesLaw_of_two formatted wide two
    · exact copiesLaw_of_one formatted wide one

/-- Two tables below 4 GiB lie apart. -/
theorem TwoLowTables.mirrorApart (two : TwoLowTables vol) (formatted : Formatted vol)
    (wide : fatIdentify vol = .fat32) : MirrorApart vol := by
  intro cluster other data inTable mirror
  have here := data.inTable
  have low := two.2 cluster here
  have otherLow := two.2 other inTable
  obtain ⟨_, whole⟩ := formatted.tableBase_inside wide inTable
  rw [formatted.words.tableOffset_mod inTable, formatted.words.mirrorOffset_mod here,
    ← tableBase, ← tableBase, Nat.mod_eq_of_lt (by omega), Nat.mod_eq_of_lt (by omega)] at mirror
  have positive := formatted.bytes_pos
  omega

end Copies

/-- The boot sector of a small volume with 32-bit entries and a sector for each table. -/
def sampleBoot (fatCount : BitVec 8) : Nat → BitVec 8
  | 12 => 2
  | 13 => 1
  | 14 => 1
  | 16 => fatCount
  | 19 => 103
  | 36 => 1
  | 44 => 2
  | 66 => 0x29
  | _ => 0

/-- The small volume with two tables. -/
def sampleVolume : FATVolume := ⟨sampleBoot 2, 0⟩

/-- The small volume is formatted. -/
theorem sampleVolume_formatted : Formatted sampleVolume where
  sectorSize := by decide +kernel
  perCluster := by decide +kernel
  fatCount := by decide +kernel
  fits := by decide +kernel
  covers := by decide +kernel
  clusters := by decide +kernel

/-- The tables of the small volume lie below 4 GiB. -/
theorem sampleVolume_low : TwoLowTables sampleVolume := by
  refine ⟨by decide +kernel, fun cluster inTable => ?_⟩
  have small : cluster.toNat < 102 := inTable
  have base : tableBase sampleVolume cluster ≤ 4 * cluster.toNat := Nat.div_mul_le_self ..
  have start : fatStart sampleVolume = 512 := by decide +kernel
  have bytes : fatBytes sampleVolume = 512 := by decide +kernel
  omega

/-- The copies of the small volume stay equal. -/
theorem copies_iff_sample : CopiesLaw sampleVolume :=
  (copies_iff sampleVolume_formatted (by decide +kernel)).mpr (.inl sampleVolume_low)

/-- With one table the first sector of the data is overwritten. -/
theorem single_table_overrun : ¬ ∀ vol : FATVolume, Formatted vol → fatIdentify vol = .fat32 →
    CopiesLaw vol := by
  intro claim
  have formatted : Formatted ⟨sampleBoot 1, 0⟩ := {
    sectorSize := by decide +kernel
    perCluster := by decide +kernel
    fatCount := by decide +kernel
    fits := by decide +kernel
    covers := by decide +kernel
    clusters := by decide +kernel }
  have law := claim ⟨sampleBoot 1, 0⟩ formatted (by decide +kernel)
  have inTable : FATVolume.InTable ⟨sampleBoot 1, 0⟩ 0 :=
    (by decide +kernel : (0 : BitVec 32).toNat < (fatClusterCount ⟨sampleBoot 1, 0⟩).toNat + 2)
  have inside := ((law.one formatted (by decide +kernel)).2 0 inTable).2.2
  exact absurd inside (by decide +kernel)

/-- The small volume keeps the law of entries. -/
theorem entry_law_iff_sample : EntryLaw sampleVolume :=
  (entry_law_iff sampleVolume_formatted (by decide +kernel)).mpr (.inr ⟨by decide +kernel,
    sampleVolume_low.mirrorApart sampleVolume_formatted (by decide +kernel)⟩)

end Unarddeg.Fat
