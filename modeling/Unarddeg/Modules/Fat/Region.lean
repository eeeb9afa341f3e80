import Unarddeg.Modules.Fat.Write

/-!
# The data region

`FatAllocateCluster` of `modules/fat/main.c` against the geometry of any boot sector. The number of
clusters, the first sector with data and the sector of a cluster are separate 32-bit formulas. They
agree as long as the data begins inside the volume; otherwise `FatDataCount` wraps, and the clusters
that are handed out lie anywhere.
-/

namespace Unarddeg.Fat

open Library

/-- The sectors of a cluster lie in the data region of the volume. -/
def InRegion (vol : FATVolume) (cluster : BitVec 32) : Prop :=
  fatFirstData vol ≤ fatFirstSectorForCluster vol cluster ∧
    (fatFirstSectorForCluster vol cluster).toNat + vol.perCluster.toNat ≤
      (fatTotalSectors vol).toNat

/-- `FatFindFreeCluster` looks at an entry: the number of clusters is neither zero nor so large
that the bound of its loop wraps, and the entry of cluster 2 lies in a sector. -/
structure FATVolume.Searched (vol : FATVolume) : Prop where
  /-- There is a cluster. -/
  some : 0 < (fatClusterCount vol).toNat
  /-- The bound of the loop does not wrap. -/
  exact : (fatClusterCount vol).toNat + 2 < 2 ^ 32
  /-- The entry of the first cluster lies in a sector. -/
  readable : (tablePlace vol 2).toNat + 4 ≤ vol.bytes.toNat

section Region

variable {vol : FATVolume} {drive after : Drive} {cluster result : BitVec 32}

/-- The loop of `FatFindFreeCluster` returns 0 or one of the clusters it goes through. -/
theorem freeClusterFrom_range {rounds : Nat} {i : BitVec 32} (room : i.toNat + rounds < 2 ^ 32)
    (returned : freeClusterFrom vol drive rounds i = .ok result) :
    result = 0 ∨ i.toNat ≤ result.toNat ∧ result.toNat < i.toNat + rounds := by
  induction rounds generalizing i with
  | zero => exact .inl (Except.ok.inj returned).symm
  | succ rounds ih =>
    obtain ⟨entry, _, rest⟩ := except_bind_ok.mp returned
    by_cases free : entry = 0
    · rw [if_pos free] at rest
      obtain rfl := Except.ok.inj rest
      exact .inr ⟨le_rfl, by omega⟩
    · rw [if_neg free] at rest
      have next : (i + 1).toNat = i.toNat + 1 := by
        rw [BitVec.toNat_add, show (1 : BitVec 32).toNat = 1 from rfl, Nat.mod_eq_of_lt (by omega)]
      rcases ih (by omega) rest with none | found
      · exact .inl none
      · exact .inr (by omega)

/-- The loop goes through all clusters, or through none when its bound wraps. -/
theorem search_rounds (vol : FATVolume) :
    (fatClusterCount vol + 2).toNat - 2 =
      if (fatClusterCount vol).toNat + 2 < 2 ^ 32 then (fatClusterCount vol).toNat else 0 := by
  have bound := (fatClusterCount vol).isLt
  rw [BitVec.toNat_add, show (2 : BitVec 32).toNat = 2 from rfl]
  split_ifs with exact
  · rw [Nat.mod_eq_of_lt exact]
    omega
  · have wrapped : ((fatClusterCount vol).toNat + 2) % 2 ^ 32 =
        (fatClusterCount vol).toNat + 2 - 2 ^ 32 := by
      rw [Nat.mod_eq_sub_mod (by omega), Nat.mod_eq_of_lt (by omega)]
    omega

/-- A cluster that `FatFindFreeCluster` returns has data. -/
theorem fatFindFreeCluster_isData (returned : fatFindFreeCluster vol drive = .ok cluster)
    (found : cluster ≠ 0) : vol.IsData cluster := by
  rw [fatFindFreeCluster, search_rounds] at returned
  have two : (2 : BitVec 32).toNat = 2 := rfl
  have range := freeClusterFrom_range (by split_ifs <;> omega) returned
  rw [two] at range
  have inside := range.resolve_left found
  split_ifs at inside
  · constructor
    · omega
    · omega
  · omega

/-- A cluster that `FatAllocateCluster` returns was found by `FatFindFreeCluster`. -/
theorem fatAllocateCluster_found (returned : fatAllocateCluster vol drive = .ok cluster after) :
    fatFindFreeCluster vol drive = .ok cluster := by
  simp only [fatAllocateCluster, reading, bind_ok, get_ok, ofExcept_ok] at returned
  obtain ⟨free, _, ⟨_, _, ⟨rfl, rfl⟩, find, rfl⟩, rest⟩ := returned
  rcases ite_ok.mp rest with ⟨zero, none⟩ | ⟨_, rest⟩
  · rw [find, zero, (pure_ok.mp none).1]
  · obtain ⟨_, _, _, rest⟩ := bind_ok.mp rest
    rw [find, (pure_ok.mp rest).1]

/-- Where the data begins inside the volume, the sectors of every cluster with data lie in the data
region. -/
theorem FATVolume.IsData.inRegion (isData : vol.IsData cluster)
    (ordered : fatFirstData vol ≤ fatTotalSectors vol) : InRegion vol cluster := by
  have start := BitVec.le_def.mp ordered
  have total := (fatTotalSectors vol).isLt
  have count : (fatDataCount vol).toNat =
      (fatTotalSectors vol).toNat - (fatFirstData vol).toNat :=
    BitVec.toNat_sub_of_le ordered
  have whole : (fatClusterCount vol).toNat * vol.perCluster.toNat ≤ (fatDataCount vol).toNat := by
    rw [fatClusterCount, BitVec.toNat_udiv]
    exact Nat.div_mul_le_self ..
  obtain ⟨low, high⟩ := isData
  have last : (cluster.toNat - 2 + 1) * vol.perCluster.toNat ≤
      (fatClusterCount vol).toNat * vol.perCluster.toNat :=
    Nat.mul_le_mul_right _ (by omega)
  rw [Nat.succ_mul] at last
  have less : (cluster - 2).toNat = cluster.toNat - 2 :=
    BitVec.toNat_sub_of_le (BitVec.le_def.mpr low)
  have sector : (fatFirstSectorForCluster vol cluster).toNat =
      (cluster.toNat - 2) * vol.perCluster.toNat + (fatFirstData vol).toNat := by
    rw [fatFirstSectorForCluster, BitVec.toNat_add, BitVec.toNat_mul, less, Nat.mod_add_mod]
    exact Nat.mod_eq_of_lt (by omega)
  unfold InRegion
  rw [BitVec.le_def, sector]
  constructor
  · omega
  · omega

/-- On a drive of zeros the first cluster that is looked at is free. -/
theorem fatFindFreeCluster_zero (searched : vol.Searched) :
    fatFindFreeCluster vol (fun _ => 0) = .ok 2 := by
  have read : fatNextCluster32 vol (fun _ => 0) 2 = .ok 0 := by
    have word : sectorWord vol 32 (readSector vol (fun _ => 0) (tableSector vol 2))
        (tablePlace vol 2) = .ok 0 := by
      rw [sectorWord, if_pos searched.readable]
      exact congrArg Except.ok little_zero
    exact except_bind_ok.mpr ⟨0, word, rfl⟩
  obtain ⟨rounds, counted⟩ := Nat.exists_eq_succ_of_ne_zero searched.some.ne'
  rw [fatFindFreeCluster, search_rounds, if_pos searched.exact, counted, freeClusterFrom, read]
  rfl

/-- On a drive of zeros `FatAllocateCluster` returns the first cluster that is looked at. -/
theorem fatAllocateCluster_zero (searched : vol.Searched) :
    ∃ after, fatAllocateCluster vol (fun _ => 0) = .ok 2 after := by
  have find : reading (fatFindFreeCluster vol) (fun _ => 0) = .ok 2 fun _ => 0 :=
    bind_ok.mpr ⟨_, _, get_ok.mpr ⟨rfl, rfl⟩, ofExcept_ok.mpr ⟨fatFindFreeCluster_zero searched,
      rfl⟩⟩
  have word : ∀ sector, sectorWord vol 32 sector (tablePlace vol 2) =
      .ok (little 32 (slice sector (tablePlace vol 2).toNat)) :=
    fun _ => if_pos searched.readable
  have stored : ∃ stored, fatSetCluster vol (fun _ => 0) 2 0x0FFFFFF8 = .ok stored :=
    ⟨_, except_bind_ok.mpr ⟨_, word _, rfl⟩⟩
  obtain ⟨stored, marked⟩ := stored
  have set : setCluster vol 2 0x0FFFFFF8 (fun _ => 0) = .ok () stored := by
    simp only [setCluster, bind_ok, get_ok, ofExcept_ok, set_ok]
    exact ⟨_, _, ⟨rfl, rfl⟩, _, _, ⟨marked, rfl⟩, rfl⟩
  refine ⟨stored, ?_⟩
  rw [fatAllocateCluster, bind_of_ok find, if_neg (by decide), bind_of_ok set]
  rfl

/-- A volume that is not searched hands out no cluster. -/
theorem fatFindFreeCluster_unsearched (skipped : ¬ vol.Searched)
    (returned : fatFindFreeCluster vol drive = .ok cluster) : cluster = 0 := by
  by_contra found
  have isData := fatFindFreeCluster_isData returned found
  rw [fatFindFreeCluster, search_rounds] at returned
  split_ifs at returned with exact
  · apply skipped
    have some : 0 < (fatClusterCount vol).toNat := by
      have := isData.1
      have := isData.2
      omega
    refine ⟨some, exact, ?_⟩
    obtain ⟨rounds, counted⟩ := Nat.exists_eq_succ_of_ne_zero some.ne'
    rw [counted] at returned
    obtain ⟨entry, read, _⟩ := except_bind_ok.mp returned
    obtain ⟨word, inside, _⟩ := except_bind_ok.mp read
    by_contra outside
    have stops : sectorWord vol 32 (readSector vol drive (tableSector vol 2)) (tablePlace vol 2) =
        .error .outOfBounds := if_neg outside
    cases stops.symm.trans inside
  · exact found (Except.ok.inj returned).symm

end Region

/-- **Data region.** Whatever the boot sector says, the clusters that `FatAllocateCluster` hands out
lie in the data region, for every contents of the drive, exactly when the data begins inside the
volume or no entry of the table is looked at. -/
theorem allocated_in_region_iff (vol : FATVolume) :
    (∀ drive after cluster, fatAllocateCluster vol drive = .ok cluster after → cluster ≠ 0 →
        InRegion vol cluster) ↔
      fatFirstData vol ≤ fatTotalSectors vol ∨ ¬ vol.Searched := by
  constructor
  · intro inside
    by_cases searched : vol.Searched
    · left
      obtain ⟨after, returned⟩ := fatAllocateCluster_zero searched
      obtain ⟨start, stop⟩ := inside _ _ _ returned (by decide)
      rw [BitVec.le_def] at start ⊢
      omega
    · exact .inr searched
  · intro condition drive after cluster returned found
    have find := fatAllocateCluster_found returned
    rcases condition with ordered | skipped
    · exact (fatFindFreeCluster_isData find found).inRegion ordered
    · exact absurd (fatFindFreeCluster_unsearched skipped find) found

/-- A boot sector whose volume ends before its data begins. -/
def shortBoot : Nat → BitVec 8
  | 12 => 2
  | 13 => 2
  | 14 => 1
  | _ => 0

/-- In a volume without sectors a cluster is handed out. -/
theorem cluster_outside :
    ¬ ∀ (vol : FATVolume) (drive after : Drive) (cluster : BitVec 32), vol.bytesPerSector ≠ 0 →
      vol.sectorsPerCluster ≠ 0 → fatAllocateCluster vol drive = .ok cluster after → cluster ≠ 0 →
      InRegion vol cluster := by
  intro claim
  have searched : FATVolume.Searched ⟨shortBoot, 0⟩ :=
    ⟨by decide +kernel, by decide +kernel, by decide +kernel⟩
  obtain ⟨after, returned⟩ := fatAllocateCluster_zero searched
  have inside := claim ⟨shortBoot, 0⟩ _ after 2 (by decide +kernel) (by decide +kernel) returned
    (by decide)
  exact absurd inside.2 (by decide +kernel)

end Unarddeg.Fat
