import Unarddeg.Modules.Fat.Write

/-!
# What a write leaves on the drive

The invariant of `FatWriteData`: the clusters it has taken are free ones, linked in order, and hold
the data; all other entries and clusters are as they were. A write that fails leaves the clusters
taken, so it restores the table only if it took none.
-/

namespace Unarddeg.Fat

open Library

/-- Each cluster leads to the next one, and the last one has the end mark. -/
def Linked (entry : Nat → BitVec 32) : List (BitVec 32) → Prop
  | [] => True
  | [last] => entry last.toNat = 0x0FFFFFF8
  | cluster :: next :: rest => entry cluster.toNat = next ∧ Linked entry (next :: rest)

/-- What a write has done: it has taken clusters and filled them with the first bytes of the
data. -/
structure Written (vol : FATVolume) (before after : Drive) (data : Nat → BitVec 8)
    (clusters : List (BitVec 32)) (count : Nat) : Prop where
  /-- No cluster was taken twice. -/
  nodup : clusters.Nodup
  /-- The clusters were free. -/
  fresh : ∀ cluster ∈ clusters, vol.IsData cluster ∧ fatEntry vol before cluster.toNat = 0
  /-- The other entries are as they were. -/
  others : ∀ cluster, vol.InTable cluster → cluster ∉ clusters →
    fatEntry vol after cluster.toNat = fatEntry vol before cluster.toNat
  /-- The clusters are linked. -/
  linked : Linked (fatEntry vol after) clusters
  /-- The data fit the clusters. -/
  fit : count ≤ clusters.length * clusterBytes vol
  /-- The clusters hold the data. -/
  contents : ∀ front cluster behind, clusters = front ++ cluster :: behind →
    ∀ index < clusterBytes vol, front.length * clusterBytes vol + index < count →
      after (clusterStart vol cluster + index) = data (front.length * clusterBytes vol + index)
  /-- Behind the tables everything else is as it was. -/
  frame : ∀ position, fatStart vol + 2 * fatBytes vol ≤ position →
    (∀ cluster ∈ clusters, position < clusterStart vol cluster ∨
      clusterStart vol cluster + clusterBytes vol ≤ position) →
    after position = before position

section Linked

variable {entry other : Nat → BitVec 32} {front : List (BitVec 32)} {last next : BitVec 32}

/-- Every linked cluster leads to a linked one or to the end mark. -/
theorem Linked.cases {clusters : List (BitVec 32)} (linked : Linked entry clusters)
    {cluster : BitVec 32} (member : cluster ∈ clusters) :
    entry cluster.toNat = 0x0FFFFFF8 ∨ entry cluster.toNat ∈ clusters := by
  induction clusters with
  | nil => cases member
  | cons first rest ih =>
    cases rest with
    | nil =>
      obtain rfl := List.mem_singleton.mp member
      exact .inl linked
    | cons second rest =>
      rcases List.mem_cons.mp member with rfl | later
      · exact .inr (linked.1 ▸ by simp)
      · rcases ih linked.2 later with mark | inside
        · exact .inl mark
        · exact .inr (List.mem_cons_of_mem _ inside)

/-- A cluster is linked behind the last one. -/
theorem Linked.snoc (linked : Linked entry (front ++ [last]))
    (same : ∀ cluster ∈ front, other cluster.toNat = entry cluster.toNat)
    (leads : other last.toNat = next) (mark : other next.toNat = 0x0FFFFFF8) :
    Linked other (front ++ [last] ++ [next]) := by
  induction front with
  | nil => exact ⟨leads, mark⟩
  | cons first front ih =>
    have rest := fun tail => ih tail fun cluster member =>
        same cluster (List.mem_cons_of_mem _ member)
    have head := same first List.mem_cons_self
    cases front with
    | nil => exact ⟨head.trans linked.1, rest linked.2⟩
    | cons second front => exact ⟨head.trans linked.1, rest linked.2⟩

/-- Links only depend on the entries of the clusters. -/
theorem Linked.congr {clusters : List (BitVec 32)} (linked : Linked entry clusters)
    (same : ∀ cluster ∈ clusters, other cluster.toNat = entry cluster.toNat) :
    Linked other clusters := by
  induction clusters with
  | nil => trivial
  | cons first rest ih =>
    have tail := fun linked => ih linked fun cluster member =>
      same cluster (List.mem_cons_of_mem _ member)
    have head := same first List.mem_cons_self
    cases rest with
    | nil => exact head.trans linked
    | cons second rest => exact ⟨head.trans linked.1, tail linked.2⟩

end Linked

/-- All words of the table keep their reserved bits, those of other entries keep all, and tables
that were equal stay equal. -/
structure EntriesKept (vol : FATVolume) (before after : Drive) (clusters : List (BitVec 32)) :
    Prop where
  /-- The reserved bits are as they were. -/
  reserved : ∀ index, 4 * index + 4 ≤ fatBytes vol →
    rawEntry vol after index &&& 0xF0000000 = rawEntry vol before index &&& 0xF0000000
  /-- The other words are as they were. -/
  others : ∀ index, 4 * index + 4 ≤ fatBytes vol → (∀ cluster ∈ clusters, cluster.toNat ≠ index) →
    rawEntry vol after index = rawEntry vol before index
  /-- The tables stay equal. -/
  copies : CopiesAgree vol before → CopiesAgree vol after

namespace EntriesKept

variable {vol : FATVolume} {before drive after : Drive} {clusters more : List (BitVec 32)}
  {cluster value : BitVec 32}

/-- At first all words are kept. -/
theorem refl (vol : FATVolume) (drive : Drive) (clusters : List (BitVec 32)) :
    EntriesKept vol drive drive clusters where
  reserved _ _ := rfl
  others _ _ _ := rfl
  copies agree := agree

/-- Fewer words may be said to be kept. -/
theorem mono (kept : EntriesKept vol before drive clusters)
    (subset : ∀ cluster ∈ clusters, cluster ∈ more) : EntriesKept vol before drive more where
  reserved := kept.reserved
  others index inside apart :=
    kept.others index inside fun cluster member => apart cluster (subset cluster member)
  copies := kept.copies

/-- Setting the entry of one of the clusters keeps the words. -/
theorem setting (kept : EntriesKept vol before drive clusters) (volume : PairedVolume vol)
    (inTable : vol.InTable cluster) (member : cluster ∈ clusters) :
    EntriesKept vol before (settingCluster vol drive cluster value) clusters where
  reserved index inside := by
    rw [volume.rawEntry_setting inTable inside]
    split_ifs with same
    · rw [entry_reserved, ← same]
      exact kept.reserved index inside
    · exact kept.reserved index inside
  others index inside apart := by
    rw [volume.rawEntry_setting inTable inside, if_neg (apart cluster member).symm]
    exact kept.others index inside apart
  copies agree := volume.setting_copies inTable (kept.copies agree)

/-- What leaves the tables as they are keeps the words. -/
theorem same (kept : EntriesKept vol before drive clusters) (volume : PairedVolume vol)
    (tables : ∀ position, position < fatStart vol + 2 * fatBytes vol →
      after position = drive position) : EntriesKept vol before after clusters where
  reserved index inside := by
    rw [rawEntry_congr inside fun position _ below => tables position (by omega)]
    exact kept.reserved index inside
  others index inside apart := by
    rw [rawEntry_congr inside fun position _ below => tables position (by omega)]
    exact kept.others index inside apart
  copies agree := volume.copies_congr tables (kept.copies agree)

end EntriesKept

/-- The state after some rounds of the inner loop. -/
def sectorsWritten (vol : FATVolume) (data : Nat → BitVec 8) (cluster : BitVec 32)
    (start : WriteState) (rounds : Nat) : WriteState :=
  (List.range rounds).foldl (writeSectorOf vol data cluster) start

section Rounds

variable {vol : FATVolume} {before drive after : Drive} {data : Nat → BitVec 8}
  {clusters : List (BitVec 32)} {cluster : BitVec 32} {ptr remaining count : Nat}

/-- The variables after some rounds of the inner loop. -/
theorem sectorsWritten_sizes {start : WriteState} (rounds : Nat) :
    (sectorsWritten vol data cluster start rounds).ptr =
        start.ptr + min start.writeSize (rounds * vol.bytes.toNat) ∧
      (sectorsWritten vol data cluster start rounds).remaining =
        start.remaining - min start.writeSize (rounds * vol.bytes.toNat) ∧
      (sectorsWritten vol data cluster start rounds).writeSize =
        start.writeSize - min start.writeSize (rounds * vol.bytes.toNat) := by
  induction rounds with
  | zero => simp [sectorsWritten]
  | succ rounds ih =>
    have step : (rounds + 1) * vol.bytes.toNat = rounds * vol.bytes.toNat + vol.bytes.toNat :=
      Nat.succ_mul ..
    have next : sectorsWritten vol data cluster start (rounds + 1) =
        writeSectorOf vol data cluster (sectorsWritten vol data cluster start rounds) rounds := by
      rw [sectorsWritten, List.range_succ, List.foldl_concat]
      rfl
    rw [next]
    generalize sectorsWritten vol data cluster start rounds = state at ih
    by_cases more : state.writeSize > 0
    · rw [writeSectorOf, if_pos more]
      dsimp only
      omega
    · rw [writeSectorOf, if_neg more]
      omega

/-- What the first rounds of the inner loop of `FatWriteData` do. -/
theorem writeSectors_ok (volume : ExactVolume vol) (isData : vol.IsData cluster) (size : Nat)
    {rounds : Nat} (few : rounds ≤ vol.perCluster.toNat) {last : WriteState}
    (ended : last = (List.range rounds).foldl (writeSectorOf vol data cluster)
      ⟨drive, ptr, remaining, size⟩) :
    last.ptr = ptr + min size (rounds * vol.bytes.toNat) ∧
      last.remaining = remaining - min size (rounds * vol.bytes.toNat) ∧
      last.writeSize = size - min size (rounds * vol.bytes.toNat) ∧
      (∀ index < min size (rounds * vol.bytes.toNat),
        last.drive (clusterStart vol cluster + index) = data (ptr + index)) ∧
      ∀ position, position < clusterStart vol cluster ∨
          clusterStart vol cluster + clusterBytes vol ≤ position →
        last.drive position = drive position := by
  subst ended
  have sizes := @sectorsWritten_sizes vol data cluster ⟨drive, ptr, remaining, size⟩
  unfold sectorsWritten at sizes
  dsimp only at sizes
  obtain ⟨ptrLast, remainingLast, sizeLast⟩ := sizes rounds
  refine ⟨ptrLast, remainingLast, sizeLast, ?_⟩
  clear ptrLast remainingLast sizeLast
  induction rounds with
  | zero => simp
  | succ rounds ih =>
    obtain ⟨contents, frame⟩ := ih (by omega)
    obtain ⟨ptrIs, _, sizeIs⟩ := sizes rounds
    rw [List.range_succ, List.foldl_concat]
    generalize (List.range rounds).foldl (writeSectorOf vol data cluster) _ = state at *
    have step : (rounds + 1) * vol.bytes.toNat = rounds * vol.bytes.toNat + vol.bytes.toNat :=
      Nat.succ_mul ..
    have offset := volume.dataOffset isData (show rounds < vol.perCluster.toNat by omega)
    have inside : rounds * vol.bytes.toNat + vol.bytes.toNat ≤ clusterBytes vol := by
      rw [← step]
      exact Nat.mul_le_mul_right _ few
    by_cases more : state.writeSize > 0
    · rw [writeSectorOf, if_pos more]
      refine ⟨fun index small => ?_, fun position outside => ?_⟩
      · dsimp only
        rw [writeSector, offset]
        by_cases old : index < rounds * vol.bytes.toNat
        · rw [overwrite_outside (.inl (by omega)), contents index (by omega)]
        · obtain ⟨later, rfl⟩ := Nat.exists_eq_add_of_le (Nat.le_of_not_lt old)
          rw [← Nat.add_assoc, overwrite_inside (by omega), slice]
          congr 1
          omega
      · dsimp only
        rw [writeSector, offset, overwrite_outside (by omega), frame position outside]
    · rw [writeSectorOf, if_neg more]
      exact ⟨fun index small => contents index (by omega), frame⟩

/-- A taken cluster is not free. -/
theorem Written.taken (written : Written vol before drive data clusters count)
    (member : cluster ∈ clusters) : fatEntry vol drive cluster.toNat ≠ 0 := by
  rcases written.linked.cases member with mark | inside
  · rw [mark]
    decide
  · exact (written.fresh _ inside).1.ne_zero

/-- Nothing has been taken yet. -/
theorem Written.nil (vol : FATVolume) (before : Drive) (data : Nat → BitVec 8) :
    Written vol before before data [] 0 where
  nodup := List.nodup_nil
  fresh := fun _ none => absurd none List.not_mem_nil
  others := fun _ _ _ => rfl
  linked := trivial
  fit := Nat.zero_le _
  contents := fun front cluster behind same => by simp at same
  frame := fun _ _ _ => rfl

/-- The drive after a cluster was taken and linked behind the others. -/
def linking (vol : FATVolume) (drive : Drive) (clusters : List (BitVec 32))
    (cluster : BitVec 32) : Drive :=
  let taken := settingCluster vol drive cluster 0x0FFFFFF8
  match clusters.getLast? with
  | none => taken
  | some last => settingCluster vol taken last cluster

/-- The entries after a cluster was taken and linked. -/
theorem fatEntry_linking (volume : PairedVolume vol) (linkable : vol.Linkable)
    (isData : vol.IsData cluster)
    (inside : ∀ cluster ∈ clusters, vol.IsData cluster) {other : BitVec 32}
    (inTable : vol.InTable other) :
    fatEntry vol (linking vol drive clusters cluster) other.toNat =
      if clusters.getLast? = some other then cluster
      else if other = cluster then 0x0FFFFFF8 else fatEntry vol drive other.toNat := by
  have mark : (0x0FFFFFF8 : BitVec 32) &&& 0x0FFFFFFF = 0x0FFFFFF8 := by decide
  cases ends : clusters.getLast? with
  | none =>
    rw [linking, ends, if_neg (by simp)]
    dsimp only
    rw [volume.fatEntry_setting isData.inTable inTable, mark]
  | some last =>
    have lastData := inside last (List.mem_of_getLast? ends)
    rw [linking, ends]
    dsimp only
    rw [volume.fatEntry_setting lastData.inTable inTable,
      volume.fatEntry_setting isData.inTable inTable, mark,
      linkable.and_mask isData]
    exact if_congr (by simp [eq_comm]) rfl rfl

/-- Behind the tables linking changes nothing. -/
theorem linking_behind (volume : PairedVolume vol) (isData : vol.IsData cluster)
    (inside : ∀ cluster ∈ clusters, vol.IsData cluster) {position : Nat}
    (behind : fatStart vol + 2 * fatBytes vol ≤ position) :
    linking vol drive clusters cluster position = drive position := by
  cases ends : clusters.getLast? with
  | none =>
    rw [linking, ends]
    exact volume.setting_behind isData.inTable behind
  | some last =>
    have lastData := inside last (List.mem_of_getLast? ends)
    rw [linking, ends]
    exact (volume.setting_behind lastData.inTable behind).trans
      (volume.setting_behind isData.inTable behind)

/-- The clusters are linked after a further one was. -/
theorem Written.linked_linking (volume : PairedVolume vol) (linkable : vol.Linkable)
    (written : Written vol before drive data clusters ptr) (isData : vol.IsData cluster)
    (absent : cluster ∉ clusters) :
    Linked (fatEntry vol (linking vol drive clusters cluster)) (clusters ++ [cluster]) := by
  have inside := fun cluster member => (written.fresh cluster member).1
  have entries := fun other inTable =>
    @fatEntry_linking vol drive clusters cluster volume linkable isData inside other inTable
  have mark : fatEntry vol (linking vol drive clusters cluster) cluster.toNat = 0x0FFFFFF8 := by
    rw [entries cluster isData.inTable, if_neg fun ends => absent (List.mem_of_getLast? ends),
      if_pos rfl]
  rcases List.eq_nil_or_concat' clusters with rfl | ⟨front, final, rfl⟩
  · exact mark
  · refine written.linked.snoc (fun other member => ?_) ?_ mark
    · have old : other ∈ front ++ [final] := List.mem_append_left _ member
      have notLast : other ≠ final := by
        rintro rfl
        exact (List.nodup_append.mp written.nodup).2.2 other member other
          List.mem_cons_self rfl
      rw [entries other (inside other old).inTable, if_neg (by simpa using notLast.symm),
        if_neg fun same : other = cluster => absent (same ▸ old)]
    · rw [entries final (inside final (by simp)).inTable, if_pos (by simp)]

/-- The contents of the clusters after a further one was filled. -/
theorem Written.contents_filled (volume : PairedVolume vol)
    (written : Written vol before drive data clusters ptr)
    (full : ptr = clusters.length * clusterBytes vol) (isData : vol.IsData cluster)
    (absent : cluster ∉ clusters) {filled : Nat}
    (contents : ∀ index < filled, after (clusterStart vol cluster + index) = data (ptr + index))
    (frame : ∀ position, fatStart vol + 2 * fatBytes vol ≤ position →
      (position < clusterStart vol cluster ∨
        clusterStart vol cluster + clusterBytes vol ≤ position) →
      after position = drive position)
    (front : List (BitVec 32)) (other : BitVec 32) (behind : List (BitVec 32))
    (same : clusters ++ [cluster] = front ++ other :: behind) (index : Nat)
    (small : index < clusterBytes vol)
    (below : front.length * clusterBytes vol + index < ptr + filled) :
    after (clusterStart vol other + index) =
      data (front.length * clusterBytes vol + index) := by
  rcases List.eq_nil_or_concat' behind with rfl | ⟨behind, final, rfl⟩
  · obtain ⟨rfl, ends⟩ := List.append_inj' same rfl
    obtain rfl := List.singleton_inj.mp ends
    rw [contents index (by omega), full]
  · have split : clusters = front ++ other :: behind := by
      have shape : clusters ++ [cluster] = (front ++ other :: behind) ++ [final] := by
        rw [same]
        simp
      exact (List.append_inj' shape rfl).1
    have member : other ∈ clusters := by
      rw [split]
      simp
    have short : front.length + 1 ≤ clusters.length := by
      rw [split]
      simp
    have step := Nat.mul_le_mul_right (clusterBytes vol) short
    rw [Nat.succ_mul] at step
    have apart := clusters_apart isData (written.fresh other member).1
      fun same : other = cluster => absent (same ▸ member)
    have before := volume.tables_before other
    rw [frame _ (by omega) (by omega)]
    exact written.contents front other behind split index small (by omega)

/-- A round of the outer loop of `FatWriteData` takes a free cluster and fills it. -/
theorem Written.round (volume : PairedVolume vol) (linkable : vol.Linkable)
    (written : Written vol before drive data clusters ptr)
    (full : ptr = clusters.length * clusterBytes vol) (isData : vol.IsData cluster)
    (free : fatEntry vol drive cluster.toNat = 0) {last : WriteState}
    (ended : last = (List.range vol.perCluster.toNat).foldl (writeSectorOf vol data cluster)
      ⟨linking vol drive clusters cluster, ptr, remaining, min remaining (clusterBytes vol)⟩) :
    Written vol before last.drive data (clusters ++ [cluster]) last.ptr ∧
      last.ptr = ptr + min remaining (clusterBytes vol) ∧
      last.remaining = remaining - min remaining (clusterBytes vol) := by
  obtain ⟨ptrIs, remainingIs, _, contents, frame⟩ :=
    writeSectors_ok volume.exact isData _ (Nat.le_refl _) ended
  rw [← clusterBytes, Nat.min_eq_left (Nat.min_le_right ..)] at ptrIs remainingIs contents
  refine ⟨?_, ptrIs, remainingIs⟩
  have inside := fun cluster member => (written.fresh cluster member).1
  have absent : cluster ∉ clusters := fun member => written.taken member free
  have tables := volume.tables_before cluster
  -- The data lie behind the tables, so the entries are those after the linking.
  have entries : ∀ other, vol.InTable other → fatEntry vol last.drive other.toNat =
      fatEntry vol (linking vol drive clusters cluster) other.toNat := fun other inTable =>
    volume.exact.fatEntry_congr inTable fun position _ below =>
      frame position (.inl (by omega))
  have behindTables : ∀ position, fatStart vol + 2 * fatBytes vol ≤ position →
      (position < clusterStart vol cluster ∨
        clusterStart vol cluster + clusterBytes vol ≤ position) →
      last.drive position = drive position := fun position behind outside =>
    (frame position outside).trans (linking_behind volume isData inside behind)
  refine {
    nodup := List.nodup_append.mpr ⟨written.nodup, by simp, fun left member right new equal =>
      absent ((equal.trans (List.mem_singleton.mp new)) ▸ member)⟩
    fresh := ?_
    others := ?_
    linked := ?_
    fit := ?_
    contents := ?_
    frame := ?_ }
  · intro other member
    rcases List.mem_append.mp member with old | new
    · exact written.fresh other old
    · obtain rfl := List.mem_singleton.mp new
      exact ⟨isData, (written.others other isData.inTable absent).symm.trans free⟩
  · intro other inTable outside
    simp only [List.mem_append, List.mem_singleton, not_or] at outside
    rw [entries other inTable, fatEntry_linking volume linkable isData inside inTable, if_neg,
      if_neg outside.2, written.others other inTable outside.1]
    exact fun ends => outside.1 (List.mem_of_getLast? ends)
  · refine (written.linked_linking volume linkable isData absent).congr fun other member => ?_
    rcases List.mem_append.mp member with old | new
    · exact entries other (inside other old).inTable
    · obtain rfl := List.mem_singleton.mp new
      exact entries other isData.inTable
  · rw [ptrIs, List.length_append, List.length_singleton, Nat.succ_mul]
    omega
  · rw [ptrIs]
    exact written.contents_filled volume full isData absent contents behindTables
  · intro position behind outside
    have here := outside cluster (by simp)
    rw [behindTables position behind here]
    exact written.frame position behind fun other member => outside other (by simp [member])

/-- A round keeps the reserved bits and the words of the other entries. -/
theorem EntriesKept.round (volume : PairedVolume vol)
    (kept : EntriesKept vol before drive clusters) (isData : vol.IsData cluster)
    (inside : ∀ cluster ∈ clusters, vol.IsData cluster) {last : WriteState}
    (ended : last = (List.range vol.perCluster.toNat).foldl (writeSectorOf vol data cluster)
      ⟨linking vol drive clusters cluster, ptr, remaining, min remaining (clusterBytes vol)⟩) :
    EntriesKept vol before last.drive (clusters ++ [cluster]) := by
  have taken : EntriesKept vol before (settingCluster vol drive cluster 0x0FFFFFF8)
      (clusters ++ [cluster]) :=
    (kept.mono fun _ member => List.mem_append_left _ member).setting volume isData.inTable
      (by simp)
  have linked : EntriesKept vol before (linking vol drive clusters cluster)
      (clusters ++ [cluster]) := by
    unfold linking
    cases ends : clusters.getLast? with
    | none => exact taken
    | some final =>
      have member := List.mem_of_getLast? ends
      exact taken.setting volume (inside final member).inTable (List.mem_append_left _ member)
  obtain ⟨_, _, _, _, frame⟩ := writeSectors_ok volume.exact isData _ (Nat.le_refl _) ended
  have tables := volume.tables_before cluster
  apply linked.same volume
  intro position below
  exact frame position (.inl (by omega))

/-- The last cluster, if there is one, is linked to the next. -/
theorem link_ok (volume : PairedVolume vol) (inside : ∀ cluster ∈ clusters, vol.IsData cluster)
    {prevCluster : BitVec 32} (prevIs : prevCluster = clusters.getLast?.getD 0) {linked : Drive}
    (link : onlyIf (prevCluster ≠ 0) (setCluster vol prevCluster cluster)
      (settingCluster vol drive cluster 0x0FFFFFF8) = .ok () linked) :
    linked = linking vol drive clusters cluster := by
  cases ends : clusters.getLast? with
  | none =>
    rw [ends] at prevIs
    rw [linking, ends]
    rcases onlyIf_ok.mp link with ⟨some, _⟩ | ⟨_, rfl⟩
    · exact absurd prevIs some
    · rfl
  | some last =>
    have lastData := inside last (List.mem_of_getLast? ends)
    rw [ends] at prevIs
    rw [linking, ends]
    rcases onlyIf_ok.mp link with ⟨_, set⟩ | ⟨zero, _⟩
    · obtain rfl : prevCluster = last := prevIs
      exact setCluster_ok volume.exact.words lastData.inTable set
    · exact absurd (prevIs ▸ lastData.ne_zero) zero

/-- The loop of `FatWriteData` takes and fills clusters; it returns the first one when all the data
are written, and 0 when it finds no free cluster. It takes no cluster that it does not need. -/
theorem writeClusters_ok (volume : PairedVolume vol) (linkable : vol.Linkable) {fuel : Nat}
    {firstCluster prevCluster result : BitVec 32}
    (written : Written vol before drive data clusters ptr)
    (kept : EntriesKept vol before drive clusters)
    (firstIs : firstCluster = clusters.head?.getD 0)
    (prevIs : prevCluster = clusters.getLast?.getD 0)
    (full : remaining ≠ 0 → ptr = clusters.length * clusterBytes vol)
    (returned : writeClusters vol data fuel firstCluster prevCluster ptr remaining drive =
      .ok result after) :
    ∃ more count, Written vol before after data (clusters ++ more) count ∧
      EntriesKept vol before after (clusters ++ more) ∧
      ((result = (clusters ++ more).head?.getD 0 ∧ count = ptr + remaining) ∨ result = 0) ∧
      (more = [] → remaining = 0 ∨ fatFindFreeCluster vol drive = .ok 0) ∧
      (more ≠ [] →
        (clusters ++ more).length * clusterBytes vol < ptr + remaining + clusterBytes vol) := by
  induction fuel generalizing clusters drive firstCluster prevCluster ptr remaining with
  | zero => exact absurd returned (by simp [writeClusters, throw_ok])
  | succ fuel ih =>
    rw [writeClusters] at returned
    rcases ite_ok.mp returned with ⟨rfl, done⟩ | ⟨more, returned⟩
    · obtain ⟨rfl, rfl⟩ := pure_ok.mp done
      exact ⟨[], ptr, by simpa using written, by simpa using kept,
        .inl ⟨by simpa using firstIs, rfl⟩, fun _ => .inl rfl, fun some => absurd rfl some⟩
    obtain ⟨cluster, taken, allocated, rest⟩ := bind_ok.mp returned
    rcases fatAllocateCluster_ok volume.exact allocated with
      ⟨rfl, rfl, none⟩ | ⟨isData, free, rfl⟩
    · rw [if_pos rfl] at rest
      obtain ⟨rfl, rfl⟩ := pure_ok.mp rest
      exact ⟨[], ptr, by simpa using written, by simpa using kept, .inr rfl, fun _ => .inr none,
        fun some => absurd rfl some⟩
    rw [if_neg isData.ne_zero] at rest
    obtain ⟨_, linked, link, fills⟩ := bind_ok.mp rest
    have taken := fun cluster member => (written.fresh cluster member).1
    have linkedIs := link_ok volume taken prevIs link
    simp only [bind_ok, get_ok, set_ok] at fills
    obtain ⟨_, _, ⟨rfl, rfl⟩, _, _, rfl, later⟩ := fills
    subst linkedIs
    rw [← clusterBytes] at later
    obtain ⟨round, ptrIs, remainingIs⟩ :=
      written.round volume linkable (full more) isData free rfl
    have keptRound : EntriesKept vol before
        ((List.range vol.perCluster.toNat).foldl (writeSectorOf vol data cluster)
          ⟨linking vol drive clusters cluster, ptr, remaining,
            min remaining (clusterBytes vol)⟩).drive (clusters ++ [cluster]) :=
      kept.round volume isData taken rfl
    have firstIs' : (if firstCluster = 0 then cluster else firstCluster) =
        (clusters ++ [cluster]).head?.getD 0 := by
      rw [firstIs]
      cases clusters with
      | nil => rfl
      | cons head rest => exact if_neg (written.fresh head List.mem_cons_self).1.ne_zero
    obtain ⟨others, count, written', kept', outcome, _, few⟩ := ih round keptRound firstIs'
      (by simp) (fun _ => by
        rw [ptrIs, List.length_append, List.length_singleton, Nat.succ_mul, full more]
        omega) later
    refine ⟨cluster :: others, count, by simpa using written', by simpa using kept', ?_,
      (fun none => by cases none), fun _ => ?_⟩
    · rcases outcome with ⟨first, all⟩ | failed
      · refine .inl ⟨by simpa using first, ?_⟩
        rw [all, ptrIs, remainingIs]
        omega
      · exact .inr failed
    · cases others with
      | nil =>
        rw [List.length_append, List.length_singleton, Nat.succ_mul, ← full more]
        omega
      | cons other others =>
        have few := few (by simp)
        rw [ptrIs, remainingIs, List.append_assoc, List.singleton_append] at few
        omega

/-- `FatWriteData` takes and fills clusters, or finds no free one. -/
theorem fatWriteData_ok (volume : PairedVolume vol) (linkable : vol.Linkable) {fuel : Nat}
    {size result : BitVec 32}
    (returned : fatWriteData vol fuel data size drive = .ok result after) :
    ∃ clusters count, Written vol drive after data clusters count ∧
      EntriesKept vol drive after clusters ∧
      ((result = clusters.head?.getD 0 ∧ count = size.toNat) ∨ result = 0) ∧
      (clusters = [] → size = 0 ∨ fatFindFreeCluster vol drive = .ok 0) ∧
      (clusters ≠ [] → clusters.length * clusterBytes vol < size.toNat + clusterBytes vol) := by
  obtain ⟨clusters, count, written, kept, outcome, empty, few⟩ :=
    writeClusters_ok volume linkable (Written.nil vol drive data) (.refl vol drive []) rfl rfl
      (by simp) returned
  refine ⟨clusters, count, written, kept, by simpa using outcome, fun none => ?_, fun some => ?_⟩
  · rcases empty none with zero | full
    · exact .inl (BitVec.eq_of_toNat_eq zero)
    · exact .inr full
  · simpa using few some

end Rounds

/-! ## Failing writes -/

section Failing

variable {vol : FATVolume} {drive after : Drive} {path : List (BitVec 8)} {data : Nat → BitVec 8}
  {size : BitVec 32} {parent : Option FATDirectory} {fuel : Nat} {code : Int}

/-- A write of nothing, or without a free cluster, changes nothing. -/
theorem fatWriteData_unchanged (nothing : size = 0 ∨ fatFindFreeCluster vol drive = .ok 0)
    {result : BitVec 32} (returned : fatWriteData vol fuel data size drive = .ok result after) :
    result = 0 ∧ after = drive := by
  cases fuel with
  | zero => exact absurd returned (by simp [fatWriteData, writeClusters, throw_ok])
  | succ fuel =>
    rw [fatWriteData, writeClusters] at returned
    rcases ite_ok.mp returned with ⟨_, done⟩ | ⟨some, returned⟩
    · obtain ⟨rfl, rfl⟩ := pure_ok.mp done
      exact ⟨rfl, rfl⟩
    · have none := nothing.resolve_left fun zero => some (congrArg BitVec.toNat zero)
      simp only [fatAllocateCluster, reading, bind_ok, get_ok, ofExcept_ok] at returned
      obtain ⟨cluster, _, ⟨free, _, ⟨_, _, ⟨rfl, rfl⟩, find, rfl⟩, allocated⟩, returned⟩ := returned
      obtain rfl := Except.ok.inj (none.symm.trans find)
      rw [if_pos rfl] at allocated
      obtain ⟨rfl, rfl⟩ := pure_ok.mp allocated
      rw [if_pos rfl] at returned
      obtain ⟨rfl, rfl⟩ := pure_ok.mp returned
      exact ⟨rfl, rfl⟩

/-- A write that fails has changed the drive only as `FatWriteData` did. -/
theorem fatWrite_failed (returned : fatWrite fuel path data size vol parent drive = .ok code after)
    (failed : code ≠ 0) : ∃ result, fatWriteData vol fuel data size drive = .ok result after := by
  obtain ⟨result, middle, wrote, rest⟩ := bind_ok.mp returned
  rcases ite_ok.mp rest with ⟨_, done⟩ | ⟨_, rest⟩
  · obtain ⟨_, rfl⟩ := pure_ok.mp done
    exact ⟨result, wrote⟩
  · simp only [reading, bind_ok, get_ok, ofExcept_ok] at rest
    obtain ⟨location, _, ⟨_, _, ⟨rfl, rfl⟩, _, rfl⟩, rest⟩ := rest
    rcases ite_ok.mp rest with ⟨_, done⟩ | ⟨_, rest⟩
    · obtain ⟨_, rfl⟩ := pure_ok.mp done
      exact ⟨result, wrote⟩
    · obtain ⟨_, _, _, done⟩ := bind_ok.mp rest
      exact absurd (pure_ok.mp done).1.symm failed

/-- **Failing writes.** A write that fails leaves the drive as it was when it wrote nothing or found
no free cluster, and below 4 GiB it leaves the entries as they were in no other case. -/
theorem write_atomic_iff (formatted : Formatted vol) (wide : fatIdentify vol = .fat32)
    (two : vol.fatCount = 2)
    (returned : fatWrite fuel path data size vol parent drive = .ok code after)
    (failed : code ≠ 0) :
    ((size = 0 ∨ fatFindFreeCluster vol drive = .ok 0) → after = drive) ∧
      (sectorStart vol (fatTotalSectors vol).toNat ≤ 2 ^ 32 →
        ((∀ cluster, vol.InTable cluster →
            fatEntry vol after cluster.toNat = fatEntry vol drive cluster.toNat) ↔
          size = 0 ∨ ∀ cluster, vol.IsData cluster → fatEntry vol drive cluster.toNat ≠ 0)) := by
  obtain ⟨result, wrote⟩ := fatWrite_failed returned failed
  refine ⟨fun nothing => (fatWriteData_unchanged nothing wrote).2, fun low => ?_⟩
  have lowVolume : LowVolume vol := ⟨formatted, wide, two, low⟩
  have volume := lowVolume.paired
  obtain ⟨clusters, count, written, _, _, empty, _⟩ :=
    fatWriteData_ok volume formatted.linkable wrote
  cases clusters with
  | nil =>
    refine ⟨fun _ => ?_, fun _ cluster inTable => written.others cluster inTable (by simp)⟩
    rcases empty rfl with zero | none
    · exact .inl zero
    · rcases fatFindFreeCluster_ok volume.exact none with ⟨_, all⟩ | ⟨data, _⟩
      · exact .inr all
      · exact absurd rfl data.ne_zero
  | cons first rest =>
    -- The first cluster was free and is not free any more.
    obtain ⟨isData, free⟩ := written.fresh first List.mem_cons_self
    have taken : fatEntry vol after first.toNat ≠ 0 := written.taken List.mem_cons_self
    constructor
    · intro same
      exact absurd ((same first isData.inTable).trans free) taken
    · rintro (zero | none)
      · obtain ⟨_, rfl⟩ := fatWriteData_unchanged (.inl zero) wrote
        exact fun _ _ => rfl
      · exact absurd free (none first isData)

/-- A write of nothing to the small volume fails and changes nothing. -/
theorem write_atomic_iff_sample :
    fatWrite 1 [0x41] (fun _ => 0) 0 sampleVolume none sampleDrive = .ok (-1) sampleDrive ∧
      ∀ cluster, sampleVolume.InTable cluster →
        fatEntry sampleVolume sampleDrive cluster.toNat =
          fatEntry sampleVolume sampleDrive cluster.toNat := by
  have failed : fatWrite 1 [0x41] (fun _ => 0) 0 sampleVolume none sampleDrive =
      .ok (-1) sampleDrive := rfl
  have law := write_atomic_iff sampleVolume_formatted (by decide +kernel) (by decide +kernel) failed
    (by decide)
  exact ⟨failed, (law.2 (by decide +kernel)).mpr (.inl rfl)⟩

/-- The small volume with 16 empty files in its root. -/
def fullDrive : Drive := fun position =>
  if 1536 ≤ position ∧ position < 2048 then
    let place := position - 1536
    if place % 32 = 0 then 0x41 + .ofNat 8 (place / 32)
    else if place % 32 < 12 then 0x20
    else 0
  else driveOf [(520, 0xF8), (521, 0xFF), (522, 0xFF), (523, 0x0F)] position

/-- A write that finds no place in the root keeps the cluster it took. -/
theorem cluster_leaked : ¬ ∀ (vol : FATVolume) (drive after : Drive) (path : List (BitVec 8))
    (data : Nat → BitVec 8) (size : BitVec 32) (parent : Option FATDirectory) (fuel : Nat)
    (code : Int), Formatted vol → fatIdentify vol = .fat32 → vol.fatCount = 2 →
    fatWrite fuel path data size vol parent drive = .ok code after → code ≠ 0 →
    ∀ cluster, vol.InTable cluster →
      fatEntry vol after cluster.toNat = fatEntry vol drive cluster.toNat := by
  intro claim
  have leaks : (match fatWrite 2 [0x51] (fun _ => 0) 1 sampleVolume none fullDrive with
      | .ok code after => decide (code = -2) &&
          decide (fatEntry sampleVolume after 3 ≠ fatEntry sampleVolume fullDrive 3)
      | .error _ _ => false) = true := by
    decide +kernel
  split at leaks
  case _ code after wrote =>
    simp only [Bool.and_eq_true, decide_eq_true_eq] at leaks
    obtain ⟨rfl, changed⟩ := leaks
    exact changed (claim sampleVolume fullDrive after [0x51] _ 1 none 2 (-2)
      sampleVolume_formatted (by decide +kernel) (by decide +kernel) wrote (by decide) 3
      (by decide +kernel : (3 : BitVec 32).toNat < (fatClusterCount sampleVolume).toNat + 2))
  case _ => cases leaks

end Failing

end Unarddeg.Fat
