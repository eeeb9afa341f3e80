import Unarddeg.Modules.Fat.Region
import Unarddeg.Modules.Fat.Stored

/-!
# What a write reads of its data

`FatWriteData` of `modules/fat/main.c` hands whole sectors to `WriteTo`, also when less than a
sector of the data is left. The places in the data from which a run reads are kept beside it. They
lie inside the data exactly when the data end with a sector or the volume has no room for them
(`reads_inside_iff`).
-/

namespace Unarddeg.Fat

open Library

/-- The first half of a round of the outer loop of `FatWriteData`: a cluster is taken and linked. -/
def takeCluster (vol : FATVolume) (prevCluster : BitVec 32) : Kernel Drive (BitVec 32) := do
  let cluster ← fatAllocateCluster vol
  if cluster = 0 then pure 0
  else do
    onlyIf (prevCluster ≠ 0) do
      setCluster vol prevCluster cluster
    pure cluster

/-- The state in which the inner loop of `FatWriteData` begins. -/
def beginCluster (vol : FATVolume) (drive : Drive) (ptr remaining : Nat) : WriteState :=
  ⟨drive, ptr, remaining, min remaining (vol.perCluster.toNat * vol.bytes.toNat)⟩

/-- The places in the data from which the inner loop writes a sector. -/
def clusterReads (vol : FATVolume) (data : Nat → BitVec 8) (cluster : BitVec 32)
    (start : WriteState) : List Nat :=
  (List.range vol.perCluster.toNat).filterMap fun i =>
    let state := sectorsWritten vol data cluster start i
    if state.writeSize > 0 then some state.ptr else none

/-- The places in the data from which `FatWriteData` writes a sector, over the rounds of its outer
loop. -/
def dataReads (vol : FATVolume) (data : Nat → BitVec 8) :
    (fuel : Nat) → (prevCluster : BitVec 32) → (ptr remaining : Nat) → Drive → List Nat
  | 0, _, _, _, _ => []
  | fuel + 1, prevCluster, ptr, remaining, drive =>
    if remaining = 0 then []
    else
      match takeCluster vol prevCluster drive with
      | .error _ _ => []
      | .ok cluster taken =>
        if cluster = 0 then []
        else
          let start := beginCluster vol taken ptr remaining
          let last := sectorsWritten vol data cluster start vol.perCluster.toNat
          clusterReads vol data cluster start ++
            dataReads vol data fuel cluster last.ptr last.remaining last.drive

/-- A byte of the data is read by `FatWriteData`: it lies in a sector that is handed to
`WriteTo`. -/
def ReadAt (vol : FATVolume) (data : Nat → BitVec 8) (size : BitVec 32) (drive : Drive)
    (k : Nat) : Prop :=
  ∃ fuel, ∃ start ∈ dataReads vol data fuel 0 0 size.toNat drive,
    start ≤ k ∧ k < start + vol.bytes.toNat

/-- A write that returns a cluster. -/
def Succeeds (vol : FATVolume) (data : Nat → BitVec 8) (size : BitVec 32) (drive : Drive) : Prop :=
  ∃ fuel first after, fatWriteData vol fuel data size drive = .ok first after ∧ first ≠ 0

/-- The free clusters of a volume with 32-bit entries. -/
def freeClusters (vol : FATVolume) (drive : Drive) : Finset Nat :=
  (Finset.Ico 2 ((fatClusterCount vol).toNat + 2)).filter fun cluster =>
    fatEntry vol drive cluster = 0

/-! ## Rounds -/

section Rounds

variable {vol : FATVolume} {drive taken after : Drive} {data : Nat → BitVec 8}
  {cluster prevCluster firstCluster result : BitVec 32} {ptr remaining fuel place : Nat}
  {start : WriteState}

/-- A whole cluster moves the pointer by its bytes, or to the end of the data. -/
theorem sectorsWritten_cluster :
    (sectorsWritten vol data cluster (beginCluster vol drive ptr remaining)
        vol.perCluster.toNat).ptr = ptr + min remaining (clusterBytes vol) ∧
      (sectorsWritten vol data cluster (beginCluster vol drive ptr remaining)
        vol.perCluster.toNat).remaining = remaining - min remaining (clusterBytes vol) := by
  have sizes := @sectorsWritten_sizes vol data cluster (beginCluster vol drive ptr remaining)
    vol.perCluster.toNat
  simp only [beginCluster, Nat.min_assoc, Nat.min_self] at sizes
  exact ⟨sizes.1, sizes.2.1⟩

/-- The inner loop writes from the beginnings of the sectors that begin inside the data. -/
theorem mem_clusterReads : place ∈ clusterReads vol data cluster start ↔
    ∃ i < vol.perCluster.toNat, i * vol.bytes.toNat < start.writeSize ∧
      place = start.ptr + i * vol.bytes.toNat := by
  simp only [clusterReads, List.mem_filterMap, List.mem_range, Option.ite_none_right_eq_some,
    Option.some.injEq]
  constructor
  · intro ⟨i, small, more, same⟩
    obtain ⟨ptrIs, _, sizeIs⟩ := @sectorsWritten_sizes vol data cluster start i
    exact ⟨i, small, by omega, by omega⟩
  · intro ⟨i, small, more, same⟩
    obtain ⟨ptrIs, _, sizeIs⟩ := @sectorsWritten_sizes vol data cluster start i
    exact ⟨i, small, by omega, by omega⟩

/-- The sectors of a cluster are written from inside the data exactly when the data fill it or end
with one of them. -/
theorem clusterReads_inside_iff (positive : 0 < vol.bytes.toNat) :
    (∀ place ∈ clusterReads vol data cluster (beginCluster vol drive ptr remaining),
        place + vol.bytes.toNat ≤ ptr + remaining) ↔
      vol.bytes.toNat ∣ remaining ∨ clusterBytes vol ≤ remaining := by
  constructor
  · intro inside
    by_cases full : clusterBytes vol ≤ remaining
    · exact .inr full
    left
    rcases Nat.eq_zero_or_pos remaining with zero | some
    · rw [zero]
      exact Nat.dvd_zero _
    -- The last sector that begins inside the data ends with them.
    have begins : (remaining - 1) / vol.bytes.toNat * vol.bytes.toNat ≤ remaining - 1 :=
      Nat.div_mul_le_self ..
    have behind : remaining - 1 < ((remaining - 1) / vol.bytes.toNat + 1) * vol.bytes.toNat :=
      Nat.lt_mul_of_div_lt (Nat.lt_succ_self _) positive
    have small : (remaining - 1) / vol.bytes.toNat < vol.perCluster.toNat := by
      apply Nat.lt_of_mul_lt_mul_right (a := vol.bytes.toNat)
      unfold clusterBytes at full
      omega
    have ends := inside _ (mem_clusterReads.mpr ⟨_, small, by
      unfold beginCluster
      dsimp only
      unfold clusterBytes at full
      omega, rfl⟩)
    rw [Nat.succ_mul] at behind
    unfold beginCluster at ends
    dsimp only at ends
    exact ⟨(remaining - 1) / vol.bytes.toNat + 1, by
      rw [Nat.mul_comm, Nat.succ_mul]
      omega⟩
  · intro fits place member
    obtain ⟨i, small, begins, rfl⟩ := mem_clusterReads.mp member
    unfold beginCluster at begins ⊢
    dsimp only at begins ⊢
    have step : (i + 1) * vol.bytes.toNat = i * vol.bytes.toNat + vol.bytes.toNat :=
      Nat.succ_mul ..
    have ends : (i + 1) * vol.bytes.toNat ≤ remaining := by
      rcases fits with ⟨sectors, whole⟩ | full
      · have less : i < sectors := by
          apply Nat.lt_of_mul_lt_mul_right (a := vol.bytes.toNat)
          rw [Nat.mul_comm] at whole
          omega
        rw [whole, Nat.mul_comm vol.bytes.toNat]
        exact Nat.mul_le_mul_right _ less
      · exact Nat.le_trans (Nat.mul_le_mul_right _ small) full
    omega

/-- A cluster that was taken lies in a volume whose sectors hold an entry. -/
theorem takeCluster_bytes (took : takeCluster vol prevCluster drive = .ok cluster taken)
    (some : cluster ≠ 0) : 0 < vol.bytes.toNat := by
  obtain ⟨allocated, middle, allocates, rest⟩ := bind_ok.mp took
  have nonzero : allocated ≠ 0 := by
    intro zero
    rw [if_pos zero] at rest
    exact some (pure_ok.mp rest).1.symm
  have find := fatAllocateCluster_found allocates
  have searched : vol.Searched := by
    by_contra skipped
    exact nonzero (fatFindFreeCluster_unsearched skipped find)
  have readable := searched.readable
  omega

/-- A round of the outer loop goes on with the rest of the data. -/
theorem writeClusters_taken (more : remaining ≠ 0)
    (took : takeCluster vol prevCluster drive = .ok cluster taken) (some : cluster ≠ 0) :
    writeClusters vol data (fuel + 1) firstCluster prevCluster ptr remaining drive =
      writeClusters vol data fuel (if firstCluster = 0 then cluster else firstCluster) cluster
        (ptr + min remaining (clusterBytes vol)) (remaining - min remaining (clusterBytes vol))
        (sectorsWritten vol data cluster (beginCluster vol taken ptr remaining)
          vol.perCluster.toNat).drive := by
  obtain ⟨allocated, middle, allocates, rest⟩ := bind_ok.mp took
  by_cases zero : allocated = 0
  · rw [if_pos zero] at rest
    exact absurd (pure_ok.mp rest).1.symm some
  rw [if_neg zero] at rest
  obtain ⟨done, linked, links, same⟩ := bind_ok.mp rest
  obtain ⟨rfl, rfl⟩ := pure_ok.mp same
  obtain ⟨ptrIs, remainingIs⟩ := @sectorsWritten_cluster vol linked data allocated ptr remaining
  rw [writeClusters, if_neg more, bind_of_ok allocates, if_neg zero, bind_of_ok links, ← ptrIs,
    ← remainingIs]
  rfl

/-- A round whose cluster was taken reads the sectors of the cluster and then the rest. -/
theorem dataReads_taken (more : remaining ≠ 0)
    (took : takeCluster vol prevCluster drive = .ok cluster taken) (some : cluster ≠ 0) :
    dataReads vol data (fuel + 1) prevCluster ptr remaining drive =
      clusterReads vol data cluster (beginCluster vol taken ptr remaining) ++
        dataReads vol data fuel cluster (ptr + min remaining (clusterBytes vol))
          (remaining - min remaining (clusterBytes vol))
          (sectorsWritten vol data cluster (beginCluster vol taken ptr remaining)
            vol.perCluster.toNat).drive := by
  obtain ⟨ptrIs, remainingIs⟩ := @sectorsWritten_cluster vol taken data cluster ptr remaining
  rw [dataReads, if_neg more, took, ← ptrIs, ← remainingIs]
  exact if_neg some

/-- A write of data that returns a cluster has taken one. -/
theorem writeClusters_takes (more : remaining ≠ 0)
    (returned : writeClusters vol data (fuel + 1) firstCluster prevCluster ptr remaining drive =
      .ok result after) (found : result ≠ 0) :
    ∃ cluster taken, takeCluster vol prevCluster drive = .ok cluster taken ∧ cluster ≠ 0 := by
  rw [writeClusters, if_neg more] at returned
  obtain ⟨cluster, middle, allocates, rest⟩ := bind_ok.mp returned
  rcases ite_ok.mp rest with ⟨_, failed⟩ | ⟨some, rest⟩
  · exact absurd (pure_ok.mp failed).1.symm found
  obtain ⟨done, linked, links, _⟩ := bind_ok.mp rest
  refine ⟨cluster, linked, ?_, some⟩
  rw [takeCluster, bind_of_ok allocates, if_neg some, bind_of_ok links]
  rfl

/-- When nothing is left the first cluster is returned. -/
theorem writeClusters_done :
    writeClusters vol data (fuel + 1) firstCluster prevCluster ptr 0 drive =
      .ok firstCluster drive := by
  rw [writeClusters, if_pos rfl]
  rfl

/-- Reads of a round show that a cluster was taken. -/
theorem dataReads_takes
    (member : place ∈ dataReads vol data (fuel + 1) prevCluster ptr remaining drive) :
    remaining ≠ 0 ∧
      ∃ cluster taken, takeCluster vol prevCluster drive = .ok cluster taken ∧ cluster ≠ 0 := by
  rw [dataReads] at member
  by_cases more : remaining = 0
  · rw [if_pos more] at member
    cases member
  rw [if_neg more] at member
  cases took : takeCluster vol prevCluster drive with
  | error reason stopped =>
    rw [took] at member
    cases member
  | ok cluster taken =>
    refine ⟨more, cluster, taken, rfl, ?_⟩
    intro zero
    rw [took] at member
    dsimp only at member
    rw [if_pos zero] at member
    cases member

/-- The data that are left after a cluster end with a sector exactly when those before it did. -/
theorem dvd_rest (full : clusterBytes vol ≤ remaining) :
    vol.bytes.toNat ∣ remaining - min remaining (clusterBytes vol) ↔
      vol.bytes.toNat ∣ remaining := by
  rw [Nat.min_eq_right full]
  exact Nat.dvd_sub_iff_left full (Nat.dvd_mul_left ..)

/-- A write that returns a cluster without ending with a sector reads behind the data. -/
theorem dataReads_behind (returned : writeClusters vol data fuel firstCluster prevCluster ptr
      remaining drive = .ok result after) (found : result ≠ 0)
    (part : ¬ vol.bytes.toNat ∣ remaining) :
    ∃ place ∈ dataReads vol data fuel prevCluster ptr remaining drive,
      ptr + remaining < place + vol.bytes.toNat := by
  induction fuel generalizing firstCluster prevCluster ptr remaining drive with
  | zero => exact absurd returned (by simp [writeClusters, throw_ok])
  | succ fuel ih =>
    have more : remaining ≠ 0 := by
      intro zero
      exact part (zero ▸ Nat.dvd_zero _)
    obtain ⟨cluster, taken, took, some⟩ := writeClusters_takes more returned found
    rw [writeClusters_taken more took some] at returned
    rw [dataReads_taken more took some]
    by_cases full : clusterBytes vol ≤ remaining
    · obtain ⟨place, member, behind⟩ := ih returned fun ends => part ((dvd_rest full).mp ends)
      exact ⟨place, List.mem_append_right _ member, by omega⟩
    · by_contra none
      have inside := (clusterReads_inside_iff (takeCluster_bytes took some)).mp
        fun place (member : place ∈ clusterReads vol data cluster
            (beginCluster vol taken ptr remaining)) => by
          by_contra behind
          exact none ⟨place, List.mem_append_left _ member, by omega⟩
      rcases inside with ends | filled
      · exact part ends
      · exact full filled

/-- A write that reads behind the data does not end with a sector, and returns a cluster. -/
theorem behind_succeeds (member : place ∈ dataReads vol data fuel prevCluster ptr remaining drive)
    (behind : ptr + remaining < place + vol.bytes.toNat) :
    ¬ vol.bytes.toNat ∣ remaining ∧ ∃ result after,
      writeClusters vol data (fuel + 1) firstCluster prevCluster ptr remaining drive =
        .ok result after ∧ result ≠ 0 := by
  induction fuel generalizing firstCluster prevCluster ptr remaining drive with
  | zero => cases member
  | succ fuel ih =>
    obtain ⟨more, cluster, taken, took, some⟩ := dataReads_takes member
    have positive := takeCluster_bytes took some
    have next : (if firstCluster = 0 then cluster else firstCluster) ≠ 0 := by
      split_ifs with zero
      · exact some
      · exact zero
    rw [dataReads_taken more took some] at member
    rw [writeClusters_taken more took some]
    by_cases full : clusterBytes vol ≤ remaining
    · rcases List.mem_append.mp member with here | later
      · have inside := (clusterReads_inside_iff positive).mpr (.inr full) place here
        omega
      · rw [← dvd_rest full]
        exact ih later (by omega)
    · have rest : remaining - min remaining (clusterBytes vol) = 0 := by omega
      rw [rest] at member ⊢
      have here := (List.mem_append.mp member).resolve_right fun later => by
        cases fuel with
        | zero => cases later
        | succ fuel => cases later
      refine ⟨fun ends => ?_, _, _, writeClusters_done, next⟩
      have inside := (clusterReads_inside_iff positive).mpr (.inl ends) place here
      omega

/-- Where something is read a sector has bytes. -/
theorem dataReads_bytes (member : place ∈ dataReads vol data fuel prevCluster ptr remaining drive) :
    0 < vol.bytes.toNat := by
  cases fuel with
  | zero => cases member
  | succ fuel =>
    obtain ⟨_, cluster, taken, took, some⟩ := dataReads_takes member
    exact takeCluster_bytes took some

/-! ## What is stored -/

/-- The inner loop stores the same for data that agree where it reads. -/
theorem sectorsWritten_congr {other : Nat → BitVec 8} {rounds : Nat}
    (few : rounds ≤ vol.perCluster.toNat)
    (same : ∀ place ∈ clusterReads vol data cluster start, ∀ index < vol.bytes.toNat,
      other (place + index) = data (place + index)) :
    sectorsWritten vol other cluster start rounds =
      sectorsWritten vol data cluster start rounds := by
  induction rounds with
  | zero => rfl
  | succ rounds ih =>
    have next : ∀ bytes, sectorsWritten vol bytes cluster start (rounds + 1) =
        writeSectorOf vol bytes cluster (sectorsWritten vol bytes cluster start rounds) rounds := by
      intro bytes
      rw [sectorsWritten, List.range_succ, List.foldl_concat]
      rfl
    rw [next, next, ih (by omega)]
    obtain ⟨ptrIs, _, sizeIs⟩ := @sectorsWritten_sizes vol data cluster start rounds
    by_cases more : (sectorsWritten vol data cluster start rounds).writeSize > 0
    · have begins : rounds * vol.bytes.toNat < start.writeSize := by omega
      have member : start.ptr + rounds * vol.bytes.toNat ∈ clusterReads vol data cluster start :=
        mem_clusterReads.mpr ⟨rounds, few, begins, rfl⟩
      have place : (sectorsWritten vol data cluster start rounds).ptr =
          start.ptr + rounds * vol.bytes.toNat := by omega
      have stored : ∀ drive sector,
          writeSector vol drive sector (slice other (start.ptr + rounds * vol.bytes.toNat)) =
            writeSector vol drive sector (slice data (start.ptr + rounds * vol.bytes.toNat)) :=
        fun _ _ => overwrite_congr (same _ member)
      rw [writeSectorOf, writeSectorOf, if_pos more, if_pos more, place, stored]
    · rw [writeSectorOf, writeSectorOf, if_neg more, if_neg more]

/-- A write stores the same for data that agree where it reads. -/
theorem writeClusters_congr {other : Nat → BitVec 8}
    (same : ∀ place ∈ dataReads vol data fuel prevCluster ptr remaining drive,
      ∀ index < vol.bytes.toNat, other (place + index) = data (place + index)) :
    writeClusters vol other fuel firstCluster prevCluster ptr remaining drive =
      writeClusters vol data fuel firstCluster prevCluster ptr remaining drive := by
  induction fuel generalizing firstCluster prevCluster ptr remaining drive with
  | zero => rfl
  | succ fuel ih =>
    by_cases more : remaining = 0
    · rw [more, writeClusters_done, writeClusters_done]
    by_cases takes : ∃ cluster taken, takeCluster vol prevCluster drive = .ok cluster taken ∧
        cluster ≠ 0
    · obtain ⟨cluster, taken, took, some⟩ := takes
      rw [dataReads_taken more took some] at same
      rw [writeClusters_taken more took some, writeClusters_taken more took some,
        sectorsWritten_congr le_rfl fun place member =>
          same place (List.mem_append_left _ member)]
      exact ih fun place member => same place (List.mem_append_right _ member)
    -- Without a cluster the data are not used.
    rw [writeClusters, writeClusters, if_neg more, if_neg more]
    cases allocates : fatAllocateCluster vol drive with
    | error reason stopped => rw [bind_of_error allocates, bind_of_error allocates]
    | ok cluster middle =>
      rw [bind_of_ok allocates, bind_of_ok allocates]
      by_cases zero : cluster = 0
      · rw [if_pos zero, if_pos zero]
      rw [if_neg zero, if_neg zero]
      cases links : onlyIf (prevCluster ≠ 0) (setCluster vol prevCluster cluster) middle with
      | error reason stopped => rw [bind_of_error links, bind_of_error links]
      | ok done linked =>
        apply absurd _ takes
        refine ⟨cluster, linked, ?_, zero⟩
        rw [takeCluster, bind_of_ok allocates, if_neg zero, bind_of_ok links]
        rfl

/-- What a write stores depends only on the bytes of the data that it reads. -/
theorem fatWriteData_congr {other : Nat → BitVec 8} {size : BitVec 32}
    (same : ∀ k, ReadAt vol data size drive k → other k = data k) :
    fatWriteData vol fuel other size drive = fatWriteData vol fuel data size drive := by
  apply writeClusters_congr
  intro place member index small
  exact same _ ⟨fuel, place, member, by omega, by omega⟩

end Rounds

/-! ## Room -/

section Room

variable {vol : FATVolume} {before drive after : Drive} {data : Nat → BitVec 8}
  {clusters : List (BitVec 32)} {firstCluster : BitVec 32} {ptr remaining count : Nat}

/-- A free cluster is an index of a free entry. -/
theorem mem_freeClusters {cluster : BitVec 32} : cluster.toNat ∈ freeClusters vol drive ↔
    vol.IsData cluster ∧ fatEntry vol drive cluster.toNat = 0 := by
  rw [freeClusters, Finset.mem_filter, Finset.mem_Ico]
  rfl

/-- The clusters that were taken were free. -/
theorem Written.length_le (written : Written vol before drive data clusters count) :
    clusters.length ≤ (freeClusters vol before).card := by
  have nodup : (clusters.map BitVec.toNat).Nodup :=
    written.nodup.map fun _ _ => BitVec.eq_of_toNat_eq
  have inside : (clusters.map BitVec.toNat).toFinset ⊆ freeClusters vol before := by
    intro index member
    obtain ⟨cluster, taken, rfl⟩ := List.mem_map.mp (List.mem_toFinset.mp member)
    exact mem_freeClusters.mpr (written.fresh cluster taken)
  calc clusters.length = (clusters.map BitVec.toNat).toFinset.card := by
        rw [List.toFinset_card_of_nodup nodup, List.length_map]
    _ ≤ (freeClusters vol before).card := Finset.card_le_card inside

/-- As long as not all free clusters are taken there is a first one. -/
theorem Written.next_free (written : Written vol before drive data clusters count)
    (linkable : vol.Linkable) (room : clusters.length < (freeClusters vol before).card) :
    ∃ cluster, vol.IsData cluster ∧ fatEntry vol drive cluster.toNat = 0 ∧
      ∀ other, vol.IsData other → other.toNat < cluster.toNat →
        fatEntry vol drive other.toNat ≠ 0 := by
  have some : ∃ index, ∃ cluster : BitVec 32, cluster.toNat = index ∧ vol.IsData cluster ∧
      fatEntry vol drive cluster.toNat = 0 := by
    have small : (clusters.map BitVec.toNat).toFinset.card < (freeClusters vol before).card := by
      apply Nat.lt_of_le_of_lt (List.toFinset_card_le _)
      rwa [List.length_map]
    obtain ⟨index, free, fresh⟩ := Finset.exists_mem_notMem_of_card_lt_card small
    have below : index < 2 ^ 32 := by
      unfold FATVolume.Linkable at linkable
      unfold freeClusters at free
      have := (Finset.mem_Ico.mp (Finset.mem_filter.mp free).1).2
      omega
    have value : (BitVec.ofNat 32 index).toNat = index := Nat.mod_eq_of_lt below
    obtain ⟨isData, entry⟩ := mem_freeClusters.mp (show (BitVec.ofNat 32 index).toNat ∈ _ by
      rwa [value])
    refine ⟨index, .ofNat 32 index, value, isData, ?_⟩
    rw [written.others _ isData.inTable, entry]
    intro taken
    exact fresh (List.mem_toFinset.mpr (List.mem_map.mpr ⟨_, taken, value⟩))
  classical
  obtain ⟨cluster, index, isData, free⟩ := Nat.find_spec some
  refine ⟨cluster, isData, free, fun other otherData below entry => ?_⟩
  exact Nat.find_min some (index ▸ below) ⟨other, rfl, otherData, entry⟩

/-- As long as there are free clusters for the rest of the data the write returns. -/
theorem writeClusters_returns (volume : PairedVolume vol) (linkable : vol.Linkable) (rounds : Nat)
    (written : Written vol before drive data clusters ptr)
    (full : remaining ≠ 0 → ptr = clusters.length * clusterBytes vol)
    (few : remaining ≤ rounds * clusterBytes vol)
    (room : clusters.length + rounds ≤ (freeClusters vol before).card)
    (first : remaining ≠ 0 ∨ firstCluster ≠ 0) :
    ∃ fuel result after, writeClusters vol data fuel firstCluster (clusters.getLast?.getD 0) ptr
      remaining drive = .ok result after ∧ result ≠ 0 := by
  induction rounds generalizing clusters drive firstCluster ptr remaining with
  | zero =>
    have done : remaining = 0 := by omega
    subst done
    exact ⟨1, firstCluster, drive, writeClusters_done, first.resolve_left (absurd rfl)⟩
  | succ rounds ih =>
    by_cases done : remaining = 0
    · subst done
      exact ⟨1, firstCluster, drive, writeClusters_done, first.resolve_left (absurd rfl)⟩
    obtain ⟨cluster, isData, free, lower⟩ := written.next_free linkable (by omega)
    have inside := fun cluster member => (written.fresh cluster member).1
    obtain ⟨round, ptrIs, remainingIs⟩ :=
      written.round volume linkable (full done) isData free
        (rfl : (List.range vol.perCluster.toNat).foldl (writeSectorOf vol data cluster)
          ⟨linking vol drive clusters cluster, ptr, remaining,
            min remaining (clusterBytes vol)⟩ = _)
    rw [ptrIs] at round
    rw [Nat.succ_mul] at few
    have next : (if firstCluster = 0 then cluster else firstCluster) ≠ 0 := by
      split_ifs with zero
      · exact isData.ne_zero
      · exact zero
    have full' : remaining - min remaining (clusterBytes vol) ≠ 0 →
        ptr + min remaining (clusterBytes vol) =
          (clusters ++ [cluster]).length * clusterBytes vol := by
      intro more
      rw [List.length_append, List.length_singleton, Nat.succ_mul, full done]
      omega
    obtain ⟨fuel, result, after, returned, found⟩ := ih round full' (by omega) (by
      rw [List.length_append, List.length_singleton]
      omega) (.inr next)
    rw [List.getLast?_concat, Option.getD_some] at returned
    refine ⟨fuel + 1, result, after, ?_, found⟩
    rw [writeClusters_round volume.exact done isData free lower inside]
    exact returned

/-- On a volume with two tables a write of some data returns a cluster exactly when the free
clusters hold them. -/
theorem succeeds_iff (volume : PairedVolume vol) (linkable : vol.Linkable) {size : BitVec 32} :
    Succeeds vol data size drive ↔
      size ≠ 0 ∧ size.toNat ≤ (freeClusters vol drive).card * clusterBytes vol := by
  constructor
  · intro ⟨fuel, result, after, returned, found⟩
    obtain ⟨clusters, count, written, _, outcome, _, _⟩ := fatWriteData_ok volume linkable returned
    obtain ⟨_, all⟩ := outcome.resolve_right found
    constructor
    · intro zero
      exact found (fatWriteData_unchanged (.inl zero) returned).1
    · calc size.toNat ≤ clusters.length * clusterBytes vol := all ▸ written.fit
        _ ≤ (freeClusters vol drive).card * clusterBytes vol :=
          Nat.mul_le_mul_right _ written.length_le
  · intro ⟨nonzero, room⟩
    have more : size.toNat ≠ 0 := fun zero => nonzero (BitVec.eq_of_toNat_eq zero)
    exact writeClusters_returns volume linkable _ (Written.nil vol drive data) (by simp) room
      (by simp) (.inl more)

/-- A write that returns a cluster without ending with a sector reads a byte behind the data. -/
theorem Succeeds.reads_behind {size : BitVec 32} (succeeds : Succeeds vol data size drive)
    (part : ¬ vol.bytes.toNat ∣ size.toNat) :
    ∃ k, ReadAt vol data size drive k ∧ size.toNat ≤ k := by
  obtain ⟨fuel, first, after, returned, found⟩ := succeeds
  obtain ⟨place, member, behind⟩ := dataReads_behind returned found part
  have positive := dataReads_bytes member
  exact ⟨place + vol.bytes.toNat - 1, ⟨fuel, place, member, by omega, by omega⟩, by omega⟩

end Room

/-- **Reads of a write.** A write reads only its data exactly when they end with a sector or the
write finds no cluster for them; and on a volume with two tables it finds none exactly when the free
clusters do not hold the data. -/
theorem reads_inside_iff (vol : FATVolume) (data : Nat → BitVec 8) (size : BitVec 32)
    (drive : Drive) :
    ((∀ k, ReadAt vol data size drive k → k < size.toNat) ↔
        vol.bytes.toNat ∣ size.toNat ∨ ¬ Succeeds vol data size drive) ∧
      (PairedVolume vol → vol.Linkable →
        ((∀ k, ReadAt vol data size drive k → k < size.toNat) ↔
          vol.bytes.toNat ∣ size.toNat ∨
            (freeClusters vol drive).card * clusterBytes vol < size.toNat)) := by
  have general : (∀ k, ReadAt vol data size drive k → k < size.toNat) ↔
      vol.bytes.toNat ∣ size.toNat ∨ ¬ Succeeds vol data size drive := by
    constructor
    · intro inside
      by_contra both
      push Not at both
      obtain ⟨k, read, behind⟩ := both.2.reads_behind both.1
      have last := inside k read
      omega
    · intro condition k ⟨fuel, place, member, begins, ends⟩
      by_contra outside
      obtain ⟨part, result, after, returned, found⟩ :=
        @behind_succeeds vol drive data 0 0 0 size.toNat fuel place member (by omega)
      rcases condition with whole | fails
      · exact part whole
      · exact fails ⟨_, _, _, returned, found⟩
  refine ⟨general, fun volume linkable => ?_⟩
  rw [general, succeeds_iff volume linkable]
  constructor
  · intro condition
    by_cases whole : vol.bytes.toNat ∣ size.toNat
    · exact .inl whole
    · right
      have some : size ≠ 0 := by
        rintro rfl
        exact whole (Nat.dvd_zero _)
      have fails := condition.resolve_left whole
      by_contra fits
      exact fails ⟨some, by omega⟩
  · intro condition
    rcases condition with whole | few
    · exact .inl whole
    · exact .inr fun fits => by omega

/-- A write of one byte reads a whole sector. -/
theorem sector_read_behind :
    ¬ ∀ (vol : FATVolume) (data : Nat → BitVec 8) (size : BitVec 32) (drive : Drive) (k : Nat),
      ReadAt vol data size drive k → k < size.toNat := by
  intro claim
  have free : (2 : BitVec 32).toNat ∈ freeClusters sampleVolume fun _ => 0 := by
    apply mem_freeClusters.mpr
    exact ⟨⟨by decide +kernel, by decide +kernel⟩, by decide +kernel⟩
  have room : 0 < (freeClusters sampleVolume fun _ => 0).card := Finset.card_pos.mpr ⟨_, free⟩
  have bytes : 0 < clusterBytes sampleVolume := by decide +kernel
  have one : (1 : BitVec 32).toNat = 1 := rfl
  have volume : LowVolume sampleVolume :=
    ⟨sampleVolume_formatted, by decide +kernel, by decide +kernel, by decide +kernel⟩
  have succeeds : Succeeds sampleVolume (fun _ => 0) 1 fun _ => 0 := by
    apply (succeeds_iff volume.paired sampleVolume_formatted.linkable).mpr
    refine ⟨by decide, ?_⟩
    rw [one]
    exact Nat.mul_pos room bytes
  obtain ⟨k, read, behind⟩ := succeeds.reads_behind (by decide +kernel)
  have inside := claim sampleVolume (fun _ => 0) 1 (fun _ => 0) k read
  omega

end Unarddeg.Fat
