import Unarddeg.Modules.Fat.Calls
import Unarddeg.Modules.Fat.Files

/-!
# The sectors that are called for

Every call that `FatRead` and `FatWrite` make of the drive node is for a sector of the volume: of
its two tables, or of a cluster with data.
-/

namespace Unarddeg.Fat

open Library

/-- A range inside the volume. -/
def InVolume (vol : FATVolume) (offset count : Nat) : Prop :=
  sectorStart vol 0 ≤ offset ∧ offset + count ≤ sectorStart vol (fatTotalSectors vol).toNat

/-- The calls are for ranges inside the volume. -/
abbrev Calls.Inside {α : Type} (vol : FATVolume) (program : Calls α) (drive : Drive) : Prop :=
  program.Within (InVolume vol) drive

/-! ## Sectors of the volume -/

section Sectors

variable {vol : FATVolume} {drive : Drive} {cluster : BitVec 32} {index : Nat}

/-- A later sector has a larger offset. -/
theorem sectorStart_mono {sector other : Nat} (before : sector ≤ other) :
    sectorStart vol sector ≤ sectorStart vol other :=
  Nat.mul_le_mul_right _ (by omega)

/-- A sector ends where the next one begins. -/
theorem sectorStart_succ (sector : Nat) :
    sectorStart vol sector + vol.bytes.toNat = sectorStart vol (sector + 1) := by
  rw [sectorStart, sectorStart, ← Nat.add_assoc, Nat.succ_mul]

/-- The tables lie inside the volume. -/
theorem ExactVolume.tables_inside (volume : ExactVolume vol) : sectorStart vol 0 ≤ fatStart vol ∧
    fatStart vol + vol.fatCount.toNat * fatBytes vol ≤
      sectorStart vol (fatTotalSectors vol).toNat := by
  have fits := volume.fits
  refine ⟨sectorStart_mono (Nat.zero_le _), ?_⟩
  rw [fatStart, fatBytes, sectorStart, sectorStart, ← Nat.mul_assoc, ← Nat.add_mul]
  exact Nat.mul_le_mul_right _ (by omega)

/-- The sector of an entry lies inside the volume. -/
theorem ExactVolume.table_inside (volume : ExactVolume vol) (inTable : vol.InTable cluster) :
    InVolume vol (tableOffset vol cluster) vol.bytes.toNat := by
  obtain ⟨first, last⟩ := volume.tables_inside
  have base := volume.base_inside inTable
  have one : fatBytes vol ≤ vol.fatCount.toNat * fatBytes vol :=
    Nat.le_mul_of_pos_left _ volume.fatCount
  rw [volume.tableOffset_eq inTable]
  exact ⟨by omega, by omega⟩

/-- The sector of its copy lies inside the volume. -/
theorem PairedVolume.mirror_inside (volume : PairedVolume vol) (inTable : vol.InTable cluster) :
    InVolume vol (mirrorOffset vol cluster) vol.bytes.toNat := by
  obtain ⟨first, last⟩ := volume.exact.tables_inside
  have base := volume.exact.base_inside inTable
  have count : vol.fatCount.toNat = 2 := congrArg BitVec.toNat volume.two
  rw [count] at last
  rw [volume.mirrorOffset_eq inTable]
  exact ⟨by omega, by omega⟩

/-- The sectors of a cluster with data lie inside the volume. -/
theorem ExactVolume.data_inside (volume : ExactVolume vol) (isData : vol.IsData cluster)
    (inside : index < vol.perCluster.toNat) :
    InVolume vol (fatSectorToOffset vol (fatFirstSectorForCluster vol cluster + .ofNat 32 index))
      vol.bytes.toNat := by
  obtain ⟨_, bound⟩ := volume.dataSector_toNat isData inside
  have offset : fatSectorToOffset vol (fatFirstSectorForCluster vol cluster + .ofNat 32 index) =
      sectorStart vol (firstData vol + (cluster.toNat - 2) * vol.perCluster.toNat + index) := by
    rw [volume.dataOffset isData inside, clusterStart, sectorStart, sectorStart, ← Nat.add_mul,
      Nat.add_assoc _ _ index]
  rw [InVolume, offset, sectorStart_succ]
  exact ⟨sectorStart_mono (Nat.zero_le _), sectorStart_mono bound⟩

end Sectors

namespace Calls

/-- A function that only reads leaves the drive as it is. -/
theorem read_of_onBytes {α : Type} {program : Calls α} {read : Drive → Except Stop α}
    {drive after : Drive} {value : α} (same : program.onBytes = reading read)
    (returned : program.onBytes drive = .ok value after) :
    read drive = .ok value ∧ after = drive := by
  rw [same, reading_apply] at returned
  cases found : read drive with
  | ok result =>
    rw [found] at returned
    cases returned
    exact ⟨rfl, rfl⟩
  | error reason =>
    rw [found] at returned
    cases returned

/-! ## Tables -/

section Tables

variable {vol : FATVolume} {drive : Drive} {cluster value : BitVec 32}

/-- `FatNextCluster32` reads a sector of the table. -/
theorem fatNextCluster32_inside (volume : ExactVolume vol) (inTable : vol.InTable cluster) :
    (fatNextCluster32 vol cluster).Inside vol drive :=
  .bind (.readFrom (volume.table_inside inTable)) fun _ _ _ =>
    .bind .ofExcept fun _ _ _ => trivial

/-- `FatNextCluster` reads a sector of the table. -/
theorem fatNextCluster_inside (volume : ExactVolume vol) (inTable : vol.InTable cluster) :
    (fatNextCluster vol cluster).Inside vol drive := by
  unfold fatNextCluster
  rw [volume.wide]
  exact fatNextCluster32_inside volume inTable

/-- `FatSetCluster` reads and writes sectors of the two tables. -/
theorem fatSetCluster_inside (volume : PairedVolume vol) (inTable : vol.InTable cluster) :
    (fatSetCluster vol cluster value).Inside vol drive :=
  .bind (.readFrom (volume.exact.table_inside inTable)) fun _ _ _ =>
    .bind .ofExcept fun _ _ _ =>
      .bind (.writeTo (volume.exact.table_inside inTable)) fun _ _ _ =>
        .writeTo (volume.mirror_inside inTable)

/-- The loop of `FatFindFreeCluster` reads sectors of the table. -/
theorem freeClusterFrom_inside (volume : ExactVolume vol) {rounds : Nat} {i : BitVec 32}
    (last : i.toNat + rounds = (fatClusterCount vol).toNat + 2) :
    (freeClusterFrom vol rounds i).Inside vol drive := by
  have small := volume.words.clusters
  induction rounds generalizing i drive with
  | zero => trivial
  | succ rounds ih =>
    have here : vol.InTable i := by
      unfold FATVolume.InTable
      omega
    refine .bind (fatNextCluster32_inside volume here) fun entry after _ => ?_
    split_ifs
    · trivial
    · have next : (i + 1).toNat = i.toNat + 1 := by
        rw [BitVec.toNat_add, show (1 : BitVec 32).toNat = 1 from rfl, Nat.mod_eq_of_lt (by omega)]
      exact ih (by omega)

/-- `FatAllocateCluster` reads and writes sectors of the tables. -/
theorem fatAllocateCluster_inside (volume : PairedVolume vol) :
    (fatAllocateCluster vol).Inside vol drive := by
  have small := volume.exact.words.clusters
  have two : (2 : BitVec 32).toNat = 2 := rfl
  have bound : (fatClusterCount vol + 2).toNat = (fatClusterCount vol).toNat + 2 := by
    rw [BitVec.toNat_add, two, Nat.mod_eq_of_lt (by omega)]
  have search : (fatFindFreeCluster vol).Inside vol drive := by
    unfold fatFindFreeCluster
    rw [bound]
    exact freeClusterFrom_inside volume.exact (by omega)
  refine .bind search fun cluster after found => ?_
  obtain ⟨finds, rfl⟩ := read_of_onBytes fatFindFreeCluster_onBytes found
  split_ifs with none
  · trivial
  · -- The cluster that was found has data.
    have isData := ((fatFindFreeCluster_ok volume.exact finds).resolve_left fun zero =>
      none zero.1).1
    exact .bind (fatSetCluster_inside volume isData.inTable) fun _ _ _ => trivial

end Tables

/-! ## Directories -/

section Directories

variable {α : Type} {vol : FATVolume} {drive : Drive} {cluster start stop : BitVec 32}
  {links : List (BitVec 32)} {fuel : Nat} {name ext : Nat → BitVec 8}
  {parent : Option FATDirectory}

/-- A search in a cluster reads its sectors. -/
theorem firstEntry_inside (volume : ExactVolume vol) (isData : vol.IsData cluster)
    {decide : Nat → Nat → FATDirectory → Option α} {sectors : List Nat}
    (inside : ∀ offset ∈ sectors, offset < vol.perCluster.toNat) :
    (firstEntry vol cluster decide sectors).Inside vol drive := by
  induction sectors generalizing drive with
  | nil => trivial
  | cons offset rest ih =>
    have here := volume.data_inside isData (inside offset List.mem_cons_self)
    refine .bind (.readFrom here) fun sector after _ => ?_
    split
    · trivial
    · exact ih fun later member => inside later (List.mem_cons_of_mem _ member)

/-- The sectors of a cluster have its numbers. -/
theorem sectors_inside : ∀ offset ∈ List.range vol.perCluster.toNat,
    offset < vol.perCluster.toNat := fun _ member => List.mem_range.mp member

/-- The loop through the clusters of a path reads their sectors and their entries. -/
theorem scanChain_inside (volume : ExactVolume vol) {find : BitVec 32 → Calls (Option α)}
    {found : Drive → BitVec 32 → Option α}
    (same : ∀ cluster, (find cluster).onBytes = reading fun drive => .ok (found drive cluster))
    (inside : ∀ cluster, vol.IsData cluster → (find cluster).Inside vol drive)
    (path : Path inChain (Fat.fatNextCluster vol drive) start links stop)
    (stops : inChain stop = false) (allData : ∀ link ∈ links, vol.IsData link) :
    (scanChain vol find fuel start).Inside vol drive := by
  induction fuel generalizing start links with
  | zero => trivial
  | succ fuel ih =>
    unfold scanChain
    cases links with
    | nil =>
      obtain rfl := path
      rw [stops, if_neg Bool.false_ne_true]
      trivial
    | cons link links =>
      obtain ⟨rfl, goes, next, leads, path⟩ := path
      have isData := allData start List.mem_cons_self
      rw [if_pos goes]
      refine .bind (inside start isData) fun result after searched => ?_
      obtain ⟨_, rfl⟩ := read_of_onBytes (same start) searched
      cases result with
      | some result => trivial
      | none =>
        refine .bind (fatNextCluster_inside volume isData.inTable) fun value after followed => ?_
        obtain ⟨links', rfl⟩ := read_of_onBytes (@fatNextCluster_onBytes vol start) followed
        obtain rfl : next = value := Except.ok.inj (leads.symm.trans links')
        exact .bind (ih path fun later member => allData later (List.mem_cons_of_mem _ member))
          fun _ _ _ => trivial

/-- `FatLocateInDir` reads sectors of the directory and of the table. -/
theorem fatLocateInDir_inside (volume : ExactVolume vol)
    (path : Path inChain (Fat.fatNextCluster vol drive) (directoryCluster vol parent) links stop)
    (stops : inChain stop = false) (allData : ∀ link ∈ links, vol.IsData link) :
    (fatLocateInDir fuel name ext vol parent).Inside vol drive := by
  unfold fatLocateInDir
  split_ifs
  · trivial
  · exact .bind (scanChain_inside volume located_onBytes
      (fun _ isData => firstEntry_inside volume isData sectors_inside) path stops allData)
      fun _ _ _ => trivial

/-- `FatFindFreeEntry` reads sectors of the directory and of the table. -/
theorem fatFindFreeEntry_inside (volume : ExactVolume vol)
    (path : Path inChain (Fat.fatNextCluster vol drive) start links stop)
    (stops : inChain stop = false) (allData : ∀ link ∈ links, vol.IsData link) :
    (fatFindFreeEntry vol fuel start).Inside vol drive :=
  .bind (scanChain_inside volume freeInCluster_onBytes
    (fun _ isData => firstEntry_inside volume isData sectors_inside) path stops allData)
    fun _ _ _ => trivial

/-- `FatWriteDirectoryEntry` reads and writes the sector of the slot. -/
theorem fatWriteDirectoryEntry_inside (volume : ExactVolume vol) {location : BitVec 32}
    {entry : FATDirectory} (isData : vol.IsData (slotAt location).cluster)
    (inside : (slotAt location).Inside vol) :
    (fatWriteDirectoryEntry vol location entry).Inside vol drive := by
  have here : InVolume vol (fatSectorToOffset vol (fatFirstSectorForCluster vol
      (location >>> 16) + ((location >>> 8) &&& 0xFF))) vol.bytes.toNat := by
    have slot := volume.data_inside isData inside.1
    rwa [show (slotAt location).s = ((location >>> 8) &&& 0xFF).toNat from rfl,
      BitVec.ofNat_toNat, BitVec.setWidth_eq] at slot
  refine .bind (.readFrom here) fun sector after _ => ?_
  split_ifs
  · exact .writeTo here
  · trivial

end Directories

/-! ## Files -/

section Files

variable {vol : FATVolume} {drive : Drive} {cluster start stop firstCluster prevCluster : BitVec 32}
  {links front clusters directory : List (BitVec 32)} {fuel width ptr remaining : Nat}
  {name ext : Nat → BitVec 8} {parent : Option FATDirectory} {data block : Nat → BitVec 8}
  {file : File} {slot : Slot} {path : List (BitVec 8)} {size : BitVec 32}

/-- The inner loop of `FatRead` reads sectors of the cluster. -/
theorem readSectors_inside (volume : ExactVolume vol) (isData : vol.IsData cluster)
    {sectors : List Nat} (inside : ∀ off ∈ sectors, off < vol.perCluster.toNat)
    {state : ReadState} :
    (sectors.foldlM (readSectorOf vol cluster) state).Inside vol drive := by
  induction sectors generalizing state drive with
  | nil => trivial
  | cons off rest ih =>
    rw [List.foldlM_cons]
    have here := volume.data_inside isData (inside off List.mem_cons_self)
    have first : (readSectorOf vol cluster state off).Inside vol drive := by
      unfold readSectorOf
      split_ifs
      · exact .bind (.readFrom here) fun _ _ _ => trivial
      · trivial
    exact .bind first fun _ _ _ =>
      ih fun later member => inside later (List.mem_cons_of_mem _ member)

/-- The outer loop of `FatRead` reads sectors of the clusters of a path, and their entries. -/
theorem readClusters_inside (volume : ExactVolume vol)
    (path : Path inChain (Fat.fatNextCluster vol drive) start links stop)
    (stops : inChain stop = false) (allData : ∀ link ∈ links, vol.IsData link)
    {state : ReadState} : (readClusters vol fuel start state).Inside vol drive := by
  induction fuel generalizing start links state with
  | zero => trivial
  | succ fuel ih =>
    unfold readClusters
    cases links with
    | nil =>
      obtain rfl := path
      rw [stops, if_neg Bool.false_ne_true]
      trivial
    | cons link links =>
      obtain ⟨rfl, goes, next, leads, path⟩ := path
      have isData := allData start List.mem_cons_self
      rw [if_pos goes]
      refine .bind (readSectors_inside volume isData sectors_inside) fun read after loaded => ?_
      obtain ⟨_, rfl⟩ := read_of_onBytes (readSectors_onBytes start _ _) loaded
      refine .bind (fatNextCluster_inside volume isData.inTable) fun value after followed => ?_
      obtain ⟨entry, rfl⟩ := read_of_onBytes (@fatNextCluster_onBytes vol start) followed
      obtain rfl : next = value := Except.ok.inj (leads.symm.trans entry)
      exact .bind (ih path fun later member => allData later (List.mem_cons_of_mem _ member))
        fun _ _ _ => trivial

/-- `FatRead` of a file reads sectors of the directory, of the file and of the table. -/
theorem fatRead_filed_inside (volume : LowVolume vol) (accepted : refused parent = false)
    (links : ClusterChain vol drive (directoryCluster vol parent) directory)
    (filed : Filed vol drive directory name ext file front slot clusters)
    (enough : front.length < fuel) :
    (fatRead width fuel name ext vol parent block).Inside vol drive := by
  have exactVolume := volume.paired.exact
  have fileData := filed.chain.allData
  obtain ⟨stop, searched, stops⟩ := links.path exactVolume fun cluster member =>
    volume.formatted.inChain_data (links.allData cluster member)
  obtain ⟨behind, read, ends⟩ := filed.chain.path exactVolume fun cluster member =>
    volume.formatted.inChain_data (fileData cluster member)
  have located := filed.located volume accepted links fuel enough
  unfold fatRead
  rw [if_neg (by rw [accepted]; exact Bool.false_ne_true)]
  refine .bind (fatLocateInDir_inside exactVolume searched stops links.allData)
    fun result after found => ?_
  obtain ⟨same, rfl⟩ := read_of_onBytes fatLocateInDir_onBytes found
  rw [located] at same
  obtain rfl := Except.ok.inj same
  obtain ⟨firstCluster, _⟩ := @entry_congr (clip 32 (slotEntry vol after slot))
    (slotEntry vol after slot) fun place small => clip_inside small
  have path : Path inChain (Fat.fatNextCluster vol after)
      (copied (slotLocation vol after slot)).dir.firstCluster clusters behind := firstCluster ▸ read
  dsimp only
  split_ifs
  · refine .bind .ofExcept fun data middle cleared => ?_
    obtain ⟨_, rfl⟩ := read_of_onBytes (onBytes_ofExcept _) cleared
    exact .bind (readClusters_inside exactVolume path ends fileData) fun _ _ _ => trivial
  · trivial

/-- `FatRead` of a name that is absent reads sectors of the directory and of the table. -/
theorem fatRead_absent_inside (volume : LowVolume vol) (accepted : refused parent = false)
    (links : ClusterChain vol drive (directoryCluster vol parent) directory)
    (absent : Absent vol drive directory name ext) (enough : directory.length < fuel) :
    (fatRead width fuel name ext vol parent block).Inside vol drive := by
  have exactVolume := volume.paired.exact
  obtain ⟨stop, searched, stops⟩ := links.path exactVolume fun cluster member =>
    volume.formatted.inChain_data (links.allData cluster member)
  obtain ⟨entered, located⟩ := absent.located volume accepted links
  unfold fatRead
  rw [if_neg (by rw [accepted]; exact Bool.false_ne_true)]
  refine .bind (fatLocateInDir_inside exactVolume searched stops links.allData)
    fun result after found => ?_
  obtain ⟨same, rfl⟩ := read_of_onBytes fatLocateInDir_onBytes found
  rw [located fuel enough] at same
  obtain rfl := Except.ok.inj same
  trivial

/-- The inner loop of `FatWriteData` writes sectors of the cluster. -/
theorem writeSectors_inside (volume : ExactVolume vol) (isData : vol.IsData cluster)
    {rounds : List Nat} (inside : ∀ i ∈ rounds, i < vol.perCluster.toNat) {state : Progress} :
    (rounds.foldlM (writeSectorOf vol data cluster) state).Inside vol drive := by
  induction rounds generalizing state drive with
  | nil => trivial
  | cons i rest ih =>
    rw [List.foldlM_cons]
    have here := volume.data_inside isData (inside i List.mem_cons_self)
    have first : (writeSectorOf vol data cluster state i).Inside vol drive := by
      unfold writeSectorOf
      split_ifs
      · exact .bind (.writeTo here) fun _ _ _ => trivial
      · trivial
    exact .bind first fun _ _ _ =>
      ih fun later member => inside later (List.mem_cons_of_mem _ member)

/-- The outer loop of `FatWriteData` reads and writes sectors of the tables, and writes sectors of
the clusters that it takes. -/
theorem writeClusters_inside (volume : PairedVolume vol)
    (previous : prevCluster = 0 ∨ vol.IsData prevCluster) :
    (writeClusters vol data fuel firstCluster prevCluster ptr remaining).Inside vol drive := by
  induction fuel generalizing firstCluster prevCluster ptr remaining drive with
  | zero => trivial
  | succ fuel ih =>
    unfold writeClusters
    by_cases done : remaining = 0
    · rw [if_pos done]
      trivial
    rw [if_neg done]
    refine .bind (fatAllocateCluster_inside volume) fun cluster after allocated => ?_
    rw [fatAllocateCluster_onBytes] at allocated
    by_cases full : cluster = 0
    · rw [if_pos full]
      trivial
    rw [if_neg full]
    have isData := ((fatAllocateCluster_ok volume.exact allocated).resolve_left fun none =>
      full none.1).1
    have linked : (linkTo vol prevCluster cluster).Inside vol after := by
      unfold linkTo
      split_ifs with some
      · exact fatSetCluster_inside volume (previous.resolve_left some).inTable
      · trivial
    refine .bind linked fun _ _ _ => ?_
    exact .bind (writeSectors_inside volume.exact isData sectors_inside) fun _ _ _ =>
      ih (.inr isData)

/-- `FatWrite` reads and writes sectors of the volume. -/
theorem fatWrite_inside (volume : LowVolume vol)
    (chain : ClusterChain vol drive (directoryCluster vol parent) directory)
    (near : ∀ cluster ∈ directory, cluster.toNat < 2 ^ 16) :
    (fatWrite fuel path data size vol parent).Inside vol drive := by
  have paired := volume.paired
  refine .bind (writeClusters_inside paired (.inl rfl)) fun firstCluster stored wrote => ?_
  rw [fatWriteData_onBytes] at wrote
  split_ifs
  · trivial
  -- The directory is as before, so the search for a free entry goes along its chain.
  obtain ⟨clusters, count, written, _⟩ :=
    fatWriteData_ok paired volume.formatted.linkable wrote
  have kept := chain.congr (written.directory_kept paired chain).2.1
  obtain ⟨stop, searched, stops⟩ := kept.path paired.exact fun cluster member =>
    volume.formatted.inChain_data (kept.allData cluster member)
  refine .bind (fatFindFreeEntry_inside paired.exact searched stops kept.allData)
    fun location after found => ?_
  obtain ⟨finds, rfl⟩ := read_of_onBytes (fatFindFreeEntry_onBytes _) found
  split_ifs with none
  · trivial
  obtain ⟨front, slot, first, rfl⟩ := fatFindFreeEntry_some finds none
  obtain ⟨behind, split⟩ := kept.entered paired.exact first.path first.goes
  have member : slot.cluster ∈ directory := by simp [split]
  have arrives := (slotAt_location_iff first.free.1).mpr ⟨near _ member,
    volume.formatted.index_small first.free.1⟩
  refine .bind (fatWriteDirectoryEntry_inside paired.exact ?_ ?_) fun _ _ _ => trivial
  · rw [arrives]
    exact kept.allData _ member
  · rw [arrives]
    exact first.free.1

end Files

end Calls

end Unarddeg.Fat
