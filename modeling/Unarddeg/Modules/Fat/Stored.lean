import Unarddeg.Modules.Fat.Written

/-!
# The file that a write stores

`FatWriteData` returns the first cluster of a chain that was free and holds the data. An entry has
room for 28 bits of a number, so this is so in the volumes all of whose clusters have such numbers
(`data_stored`): in a larger volume the link to a cluster is cut (`vast_link_lost`).
-/

namespace Unarddeg.Fat

open Library

/-- The clusters from one on are a chain that holds the data and was free before. Nothing else has
changed. -/
structure Stored (vol : FATVolume) (before after : Drive) (data : Nat → BitVec 8) (size : Nat)
    (cluster : BitVec 32) (clusters : List (BitVec 32)) : Prop where
  /-- The entries lead from cluster to cluster, at last to an end mark. -/
  chain : ClusterChain vol after cluster clusters
  /-- There are as many clusters as the data need. -/
  length : clusters.length = (size + clusterBytes vol - 1) / clusterBytes vol
  /-- No cluster comes twice. -/
  nodup : clusters.Nodup
  /-- The clusters were free. -/
  fresh : ∀ other ∈ clusters, fatEntry vol before other.toNat = 0
  /-- The sectors begin with the data. -/
  contents : ∀ index < size, chainByte vol after clusters index = data index
  /-- The words of the other entries are as they were. -/
  others : ∀ index, 4 * index + 4 ≤ fatBytes vol → (∀ other ∈ clusters, other.toNat ≠ index) →
    rawEntry vol after index = rawEntry vol before index
  /-- The reserved bits of all entries are as they were. -/
  reserved : ∀ index, 4 * index + 4 ≤ fatBytes vol →
    rawEntry vol after index &&& 0xF0000000 = rawEntry vol before index &&& 0xF0000000
  /-- Tables that were equal are equal. -/
  copies : CopiesAgree vol before → CopiesAgree vol after
  /-- The sectors of the other clusters are as they were. -/
  frame : ∀ other, vol.IsData other → other ∉ clusters → ∀ sector < vol.perCluster.toNat,
    ∀ index < vol.bytes.toNat,
      readSector vol after (fatFirstSectorForCluster vol other + .ofNat 32 sector) index =
        readSector vol before (fatFirstSectorForCluster vol other + .ofNat 32 sector) index

section Stored

variable {vol : FATVolume} {drive after : Drive} {data : Nat → BitVec 8}
  {clusters : List (BitVec 32)} {cluster other : BitVec 32} {count index : Nat} {size : BitVec 32}

/-- Linked clusters with data are a chain. -/
theorem Linked.chain (volume : ExactVolume vol) {rest : List (BitVec 32)}
    (linked : Linked (fatEntry vol drive) (cluster :: rest))
    (inside : ∀ other ∈ cluster :: rest, vol.IsData other) :
    ClusterChain vol drive cluster (cluster :: rest) := by
  induction rest generalizing cluster with
  | nil =>
    have mark : fatEntry vol drive cluster.toNat = 0x0FFFFFF8 := linked
    have ends : (fatIdentify vol).endMark ≤ fatEntry vol drive cluster.toNat := by
      rw [mark, volume.wide]
      decide
    exact ⟨rfl, inside cluster (by simp), ends⟩
  | cons next rest ih =>
    have later := ih linked.2 fun other member => inside other (List.mem_cons_of_mem _ member)
    rw [← linked.1] at later
    exact ⟨rfl, inside cluster (by simp), linked.1 ▸ later⟩

/-- The clusters begin with the data. -/
theorem Written.chainByte (volume : ExactVolume vol)
    (written : Written vol drive after data clusters count) (small : index < count) :
    Fat.chainByte vol after clusters index = data index := by
  have fit := written.fit
  have inside : index / clusterBytes vol < clusters.length :=
    (Nat.div_lt_iff_lt_mul volume.clusterBytes_pos).mpr (by omega)
  have here : clusters.getD (index / clusterBytes vol) 0 = clusters[index / clusterBytes vol] :=
    List.getD_eq_getElem _ _ inside
  have isData := (written.fresh _ (List.getElem_mem inside)).1
  rw [← here] at isData
  have split : clusters = clusters.take (index / clusterBytes vol) ++
      clusters[index / clusterBytes vol] :: clusters.drop (index / clusterBytes vol + 1) := by
    rw [← List.drop_eq_getElem_cons, List.take_append_drop]
  have place := Nat.mod_lt index volume.clusterBytes_pos
  have whole := Nat.div_add_mod' index (clusterBytes vol)
  have contents := written.contents _ _ _ split _ place
  rw [List.length_take_of_le inside.le, whole] at contents
  rw [volume.chainByte_eq isData, here]
  exact contents small

/-- The sectors of the clusters that were not taken are as they were. -/
theorem Written.other_sector (volume : PairedVolume vol)
    (written : Written vol drive after data clusters count) (isData : vol.IsData other)
    (outside : other ∉ clusters) {sector : Nat} (small : sector < vol.perCluster.toNat)
    (inside : index < vol.bytes.toNat) :
    readSector vol after (fatFirstSectorForCluster vol other + .ofNat 32 sector) index =
      readSector vol drive (fatFirstSectorForCluster vol other + .ofNat 32 sector) index := by
  rw [volume.exact.readSector_data isData small, volume.exact.readSector_data isData small]
  have tables := volume.tables_before other
  have last : (sector + 1) * vol.bytes.toNat ≤ clusterBytes vol := Nat.mul_le_mul_right _ small
  rw [Nat.succ_mul] at last
  apply written.frame _ (by omega)
  intro taken member
  have different : other ≠ taken := fun same => outside (same ▸ member)
  have apart := clusters_apart (written.fresh taken member).1 isData different
  omega

/-- **Stored data.** Where all clusters have numbers below the end marks, `FatWriteData` that does
not return 0 returns the first cluster of a chain that holds the data. -/
theorem data_stored (volume : PairedVolume vol) (linkable : vol.Linkable) {fuel : Nat}
    (some : size ≠ 0) (returned : fatWriteData vol fuel data size drive = .ok cluster after)
    (taken : cluster ≠ 0) :
    ∃ clusters, Stored vol drive after data size.toNat cluster clusters := by
  obtain ⟨clusters, count, written, kept, outcome, _, few⟩ :=
    fatWriteData_ok volume linkable returned
  obtain ⟨first, all⟩ := outcome.resolve_right taken
  subst all
  have inside := fun other member => (written.fresh other member).1
  cases clusters with
  | nil => exact absurd first taken
  | cons head rest =>
    obtain rfl : cluster = head := first
    have few := few (by simp)
    have fit := written.fit
    refine ⟨cluster :: rest, {
      chain := written.linked.chain volume.exact inside
      length := ?_
      nodup := written.nodup
      fresh := fun other member => (written.fresh other member).2
      contents := fun index small => written.chainByte volume.exact small
      others := kept.others
      reserved := kept.reserved
      copies := kept.copies
      frame := fun other isData outside sector small index inside =>
        written.other_sector volume isData outside small inside }⟩
    have more : size.toNat ≠ 0 := fun zero => some (BitVec.eq_of_toNat_eq zero)
    refine (Nat.div_eq_of_lt_le ?_ ?_).symm
    · omega
    · rw [Nat.succ_mul]
      omega

/-- Storing a byte on the small volume. -/
theorem data_stored_sample : ∃ clusters, Stored sampleVolume sampleDrive
    (stateAfter (fatWriteData sampleVolume 2 (fun _ => 7) 1) sampleDrive) (fun _ => 7) 1 4
      clusters := by
  have volume : LowVolume sampleVolume :=
    ⟨sampleVolume_formatted, by decide +kernel, by decide +kernel, by decide +kernel⟩
  have wrote : resultOf (fatWriteData sampleVolume 2 (fun _ => 7) 1) sampleDrive = some 4 := by
    decide +kernel
  exact data_stored volume.paired sampleVolume_formatted.linkable (by decide)
    (ok_of_resultOf wrote) (by decide)

/-! ## Two clusters -/

/-- The drive after a round of the outer loop of `FatWriteData`. -/
def roundDrive (vol : FATVolume) (data : Nat → BitVec 8) (drive : Drive) (cluster : BitVec 32)
    (ptr remaining : Nat) : Drive :=
  ((List.range vol.perCluster.toNat).foldl (writeSectorOf vol data cluster)
    ⟨drive, ptr, remaining, min remaining (clusterBytes vol)⟩).drive

/-- A round keeps the entries. -/
theorem fatEntry_round (volume : PairedVolume vol) (isData : vol.IsData cluster)
    (inTable : vol.InTable other) {ptr remaining : Nat} :
    fatEntry vol (roundDrive vol data drive cluster ptr remaining) other.toNat =
      fatEntry vol drive other.toNat := by
  obtain ⟨_, _, _, _, frame⟩ :=
    writeSectors_ok volume.exact isData (min remaining (clusterBytes vol)) (Nat.le_refl _) rfl
  have tables := volume.tables_before cluster
  apply volume.exact.fatEntry_congr inTable
  intro position _ below
  exact frame position (.inl (by omega))

/-- A round of the outer loop of `FatWriteData` takes the first free cluster. -/
theorem writeClusters_round (volume : ExactVolume vol) {fuel ptr remaining : Nat}
    {firstCluster : BitVec 32} (more : remaining ≠ 0) (isData : vol.IsData cluster)
    (free : fatEntry vol drive cluster.toNat = 0)
    (taken : ∀ other, vol.IsData other → other.toNat < cluster.toNat →
      fatEntry vol drive other.toNat ≠ 0)
    (inside : ∀ cluster ∈ clusters, vol.IsData cluster) :
    writeClusters vol data (fuel + 1) firstCluster (clusters.getLast?.getD 0) ptr remaining drive =
      writeClusters vol data fuel (if firstCluster = 0 then cluster else firstCluster) cluster
        (ptr + min remaining (clusterBytes vol)) (remaining - min remaining (clusterBytes vol))
        (roundDrive vol data (linking vol drive clusters cluster) cluster ptr remaining) := by
  have link : onlyIf (clusters.getLast?.getD 0 ≠ 0)
      (setCluster vol (clusters.getLast?.getD 0) cluster)
      (settingCluster vol drive cluster 0x0FFFFFF8) =
        .ok () (linking vol drive clusters cluster) := by
    cases ends : clusters.getLast? with
    | none =>
      rw [linking, ends]
      rfl
    | some last =>
      have lastData := inside last (List.mem_of_getLast? ends)
      rw [linking, ends]
      exact onlyIf_ok.mpr (.inl ⟨lastData.ne_zero,
        setCluster_of_words volume.words lastData.inTable⟩)
  obtain ⟨ptrIs, remainingIs, _⟩ := @writeSectors_ok vol (linking vol drive clusters cluster) data
    cluster ptr remaining volume isData (min remaining (clusterBytes vol)) _ (Nat.le_refl _) _ rfl
  rw [← clusterBytes, Nat.min_eq_left (Nat.min_le_right ..)] at ptrIs remainingIs
  rw [writeClusters, if_neg more, bind_of_ok (fatAllocateCluster_first volume isData free taken),
    if_neg isData.ne_zero, bind_of_ok link, ← ptrIs, ← remainingIs]
  rfl

/-- A write of two clusters takes the first two free ones, and gives the first one as much of the
number of the second one as an entry holds. -/
theorem fatWriteData_two (volume : PairedVolume vol) {next : BitVec 32}
    (isData : vol.IsData cluster) (nextData : vol.IsData next)
    (before : cluster.toNat < next.toNat) (free : fatEntry vol drive cluster.toNat = 0)
    (nextFree : fatEntry vol drive next.toNat = 0)
    (taken : ∀ other, vol.IsData other → other.toNat < next.toNat → other ≠ cluster →
      fatEntry vol drive other.toNat ≠ 0)
    (more : clusterBytes vol < size.toNat) (few : size.toNat ≤ 2 * clusterBytes vol) :
    ∃ after, fatWriteData vol 3 data size drive = .ok cluster after ∧
      fatEntry vol after cluster.toNat = next &&& 0x0FFFFFFF := by
  have different : next ≠ cluster := by
    rintro rfl
    omega
  -- The first round takes the first free cluster, the second one the next and links it.
  let first := roundDrive vol data (linking vol drive [] cluster) cluster 0 size.toNat
  let second := roundDrive vol data (linking vol first [cluster] next) next (clusterBytes vol)
    (size.toNat - clusterBytes vol)
  have firstEntry : ∀ other, vol.InTable other → fatEntry vol first other.toNat =
      if other = cluster then 0x0FFFFFF8 &&& 0x0FFFFFFF else fatEntry vol drive other.toNat :=
    fun other inTable => (fatEntry_round volume isData inTable).trans
      (volume.fatEntry_setting isData.inTable inTable)
  have firstRound : fatWriteData vol 3 data size drive =
      writeClusters vol data 2 cluster cluster (clusterBytes vol)
        (size.toNat - clusterBytes vol) first := by
    have lower : ∀ other, vol.IsData other → other.toNat < cluster.toNat →
        fatEntry vol drive other.toNat ≠ 0 := by
      intro other otherData below
      apply taken other otherData (by omega)
      rintro rfl
      omega
    have round := @writeClusters_round vol drive data [] cluster volume.exact 2 0 size.toNat 0
      (by omega) isData free lower (by simp)
    rwa [Nat.min_eq_right more.le, Nat.zero_add] at round
  have secondRound : writeClusters vol data 2 cluster cluster (clusterBytes vol)
      (size.toNat - clusterBytes vol) first =
        writeClusters vol data 1 cluster next size.toNat 0 second := by
    have nextIs : fatEntry vol first next.toNat = 0 := by
      rw [firstEntry next nextData.inTable, if_neg different, nextFree]
    have lower : ∀ other, vol.IsData other → other.toNat < next.toNat →
        fatEntry vol first other.toNat ≠ 0 := by
      intro other otherData below
      rw [firstEntry other otherData.inTable]
      split_ifs with same
      · decide
      · exact taken other otherData below same
    have round := @writeClusters_round vol first data [cluster] next volume.exact 1
      (clusterBytes vol) (size.toNat - clusterBytes vol) cluster (by omega) nextData nextIs lower
      (by simpa using isData)
    rwa [Nat.min_eq_left (by omega), Nat.sub_self, if_neg isData.ne_zero,
      Nat.add_sub_of_le more.le] at round
  refine ⟨second, firstRound.trans secondRound, ?_⟩
  have linked : fatEntry vol (linking vol first [cluster] next) cluster.toNat =
      next &&& 0x0FFFFFFF :=
    (volume.fatEntry_setting isData.inTable isData.inTable).trans (if_pos rfl)
  exact (fatEntry_round volume nextData isData.inTable).trans linked

end Stored

/-! ## A large volume -/

/-- The boot sector of a volume with 2^28 + 2 clusters of one sector of four bytes. -/
def vastBoot : Nat → BitVec 8
  | 11 => 4
  | 13 => 1
  | 14 => 17
  | 16 => 2
  | 32 => 0x1B
  | 35 => 0x30
  | 36 => 4
  | 39 => 0x10
  | 66 => 0x29
  | _ => 0

/-- The large volume. -/
def vastVolume : FATVolume := ⟨vastBoot, 0⟩

/-- The tables of the large volume have an entry for every cluster. -/
theorem vastVolume_paired : PairedVolume vastVolume where
  exact := {
    bytes := by decide +kernel
    whole := by decide +kernel
    perCluster := by decide +kernel
    fatCount := by decide +kernel
    wide := by decide +kernel
    fits := by decide +kernel
    covers := by decide +kernel
    low := by decide +kernel }
  two := by decide +kernel

/-- On the large volume the last two clusters are free. -/
def vastDrive : Drive := fun position =>
  if 68 + 4 * 0x10000002 ≤ position ∧ position < 68 + 4 * 0x10000004 then 0 else 1

/-- The last two entries of the large volume are 0. -/
theorem vastEntry_free {index : Nat} (low : 0x10000002 ≤ index) (high : index < 0x10000004) :
    fatEntry vastVolume vastDrive index = 0 := by
  have start : fatStart vastVolume = 68 := by decide +kernel
  have zero : rawEntry vastVolume vastDrive index = 0 := by
    refine (little_congr fun place small => ?_).trans little_zero
    rw [slice, start, vastDrive, if_pos (by omega)]
  rw [vastVolume_paired.exact.fatEntry_eq, zero]
  rfl

/-- The entries before them are not. -/
theorem vastEntry_taken {index : Nat} (low : index < 0x10000002) :
    fatEntry vastVolume vastDrive index ≠ 0 := by
  have start : fatStart vastVolume = 68 := by decide +kernel
  have ones : rawEntry vastVolume vastDrive index = little 32 fun _ => 1 := by
    refine little_congr fun place small => ?_
    rw [slice, start, vastDrive, if_neg (by omega)]
  rw [vastVolume_paired.exact.fatEntry_eq, ones]
  decide

/-- In the large volume the link to the last cluster loses its highest bit, and leads to a cluster
that was not free. -/
theorem vast_link_lost : ¬ ∀ (vol : FATVolume) (drive after : Drive) (data : Nat → BitVec 8)
    (size cluster : BitVec 32) (fuel : Nat), PairedVolume vol → size ≠ 0 →
    fatWriteData vol fuel data size drive = .ok cluster after → cluster ≠ 0 →
    ∃ clusters, Stored vol drive after data size.toNat cluster clusters := by
  intro claim
  have count : (fatClusterCount vastVolume).toNat + 2 = 0x10000004 := by decide +kernel
  have bytes : clusterBytes vastVolume = 4 := by decide +kernel
  have isData : vastVolume.IsData 0x10000002 := ⟨by decide, by rw [count]; decide⟩
  have nextData : vastVolume.IsData 0x10000003 := ⟨by decide, by rw [count]; decide⟩
  have taken : ∀ other, vastVolume.IsData other →
      other.toNat < (0x10000003 : BitVec 32).toNat → other ≠ 0x10000002 →
      fatEntry vastVolume vastDrive other.toNat ≠ 0 := by
    intro other _ below different
    have apart : other.toNat ≠ 0x10000002 := fun same => different (BitVec.eq_of_toNat_eq same)
    have bound : other.toNat < 0x10000003 := below
    exact vastEntry_taken (by omega)
  obtain ⟨after, wrote, link⟩ := @fatWriteData_two vastVolume vastDrive (fun _ => 0) 0x10000002 5
    vastVolume_paired 0x10000003 isData nextData (by decide)
    (vastEntry_free (by decide) (by decide)) (vastEntry_free (by decide) (by decide)) taken
    (by rw [bytes]; decide) (by rw [bytes]; decide)
  obtain ⟨clusters, stored⟩ := claim vastVolume vastDrive after (fun _ => 0) 5 0x10000002 3
    vastVolume_paired (by decide) wrote (by decide)
  have length := stored.length
  rw [bytes] at length
  obtain ⟨first, second, rfl⟩ := List.length_eq_two.mp length
  obtain ⟨rfl, _, here, _⟩ := stored.chain
  have third : second = 3 := here.symm.trans link
  have free := stored.fresh second (by simp)
  rw [third] at free
  exact vastEntry_taken (by decide) free

end Unarddeg.Fat
