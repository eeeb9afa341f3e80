import Unarddeg.Modules.Fat.Loaded
import Unarddeg.Modules.Fat.Slots
import Unarddeg.Modules.Fat.Stored

/-!
# Writing a file and reading it

`FatWrite` to the root and a following `FatRead`. The write puts its entry into the first free slot,
and the read takes the first entry with the name; so the data come back if the slot arrives, no
entry before it has the name, and the name does not mark the entry as unused (`round_trip`).
-/

namespace Unarddeg.Fat

open Library

/-- The place of a slot on the drive. -/
def slotStart (vol : FATVolume) (slot : Slot) : Nat :=
  clusterStart vol slot.cluster + slot.s * vol.bytes.toNat + 32 * slot.index

/-- No entry of the directory before a slot has the name. -/
def Unnamed (vol : FATVolume) (drive : Drive) (name ext : Nat → BitVec 8)
    (front : List (BitVec 32)) (slot : Slot) : Prop :=
  ∀ other : Slot, other.Inside vol →
    (other.cluster ∈ front ∨ other.cluster = slot.cluster ∧ other.Before slot) →
      examine name ext (clusterEntry vol drive other.cluster other.s other.index) ≠ some true

/-! ## Chains and searches -/

section Chains

variable {vol : FATVolume} {drive after : Drive} {start stop cluster : BitVec 32}
  {front links : List (BitVec 32)}

/-- The loops enter the clusters of a chain from its first one on. -/
theorem ClusterChain.entered (volume : ExactVolume vol)
    (chain : ClusterChain vol drive start links)
    (path : Path inChain (fatNextCluster vol drive) start front stop)
    (goes : inChain stop = true) : ∃ rest, links = front ++ stop :: rest := by
  have nonempty : ∀ cluster, inChain cluster = true → ¬ ClusterChain vol drive cluster [] := by
    intro cluster goes ends
    have mark : (fatIdentify vol).endMark ≤ cluster := ends
    rw [volume.wide] at mark
    rw [inChain_endMark mark] at goes
    cases goes
  induction front generalizing start links with
  | nil =>
    obtain rfl := path
    cases links with
    | nil => exact absurd chain (nonempty _ goes)
    | cons cluster rest =>
      obtain ⟨rfl, _⟩ := chain
      exact ⟨rest, rfl⟩
  | cons link front ih =>
    obtain ⟨rfl, linkGoes, next, leads, path⟩ := path
    cases links with
    | nil => exact absurd chain (nonempty _ linkGoes)
    | cons cluster rest =>
      obtain ⟨rfl, isData, chain⟩ := chain
      rw [volume.fatNextCluster_eq isData.inTable] at leads
      obtain rfl := Except.ok.inj leads
      obtain ⟨behind, rfl⟩ := ih chain path
      exact ⟨behind, rfl⟩

/-- No cluster of a chain is free. -/
theorem ClusterChain.taken (wide : fatIdentify vol = .fat32)
    (chain : ClusterChain vol drive start links) :
    ∀ cluster ∈ links, fatEntry vol drive cluster.toNat ≠ 0 := by
  induction links generalizing start with
  | nil => simp
  | cons first rest ih =>
    obtain ⟨rfl, _, chain⟩ := chain
    intro cluster member
    rcases List.mem_cons.mp member with rfl | later
    · cases rest with
      | nil =>
        have mark : (fatIdentify vol).endMark ≤ fatEntry vol drive cluster.toNat := chain
        rw [wide] at mark
        intro zero
        rw [zero] at mark
        exact absurd mark (by decide)
      | cons second rest => exact chain.1 ▸ chain.2.1.ne_zero
    · exact ih chain cluster later

/-- A chain only depends on the entries of its clusters. -/
theorem ClusterChain.congr (chain : ClusterChain vol drive start links)
    (same : ∀ cluster ∈ links,
      fatEntry vol after cluster.toNat = fatEntry vol drive cluster.toNat) :
    ClusterChain vol after start links := by
  induction links generalizing start with
  | nil => exact chain
  | cons first rest ih =>
    obtain ⟨rfl, isData, chain⟩ := chain
    refine ⟨rfl, isData, ?_⟩
    rw [same _ List.mem_cons_self]
    exact ih chain fun cluster member => same cluster (List.mem_cons_of_mem _ member)

end Chains

section Searches

variable {vol : FATVolume} {drive after : Drive} {dirCluster location : BitVec 32}
  {front : List (BitVec 32)} {slot : Slot} {fuel : Nat} {name ext : Nat → BitVec 8}
  {left right : FATDirectory}

/-- A word that `FatFindFreeEntry` returns is that of the first free slot. -/
theorem fatFindFreeEntry_some
    (returned : fatFindFreeEntry vol fuel dirCluster drive = .ok location) (found : location ≠ 0) :
    ∃ front slot, FirstFree vol drive dirCluster front slot ∧ slot.location = location := by
  rw [fatFindFreeEntry] at returned
  obtain ⟨⟨entered, result⟩, scanned, same⟩ := except_bind_ok.mp returned
  have word : result.getD 0 = location := Except.ok.inj same
  cases result with
  | none => exact absurd word.symm found
  | some result =>
    obtain rfl : result = location := word
    obtain ⟨front, stop, _, path, goes, there, nothing⟩ := scanChain_some scanned
    obtain ⟨slot, rfl, free, word, before⟩ := freeInCluster_some there
    refine ⟨front, slot, ⟨path, goes, free, ?_, before⟩, word⟩
    intro other member
    exact freeInCluster_none_iff.mp (nothing other.cluster member) other rfl

/-- The first free slot only depends on the entries before it. -/
theorem FirstFree.congr (first : FirstFree vol drive dirCluster front slot)
    (next : ∀ cluster ∈ front, fatNextCluster vol after cluster = fatNextCluster vol drive cluster)
    (same : ∀ other : Slot, other.Inside vol →
      (other.cluster ∈ front ∨ other.cluster = slot.cluster) →
      clusterEntry vol after other.cluster other.s other.index 0 =
        clusterEntry vol drive other.cluster other.s other.index 0) :
    FirstFree vol after dirCluster front slot := by
  have free : ∀ other : Slot, (other.cluster ∈ front ∨ other.cluster = slot.cluster) →
      (other.Free vol after ↔ other.Free vol drive) := by
    intro other there
    unfold Slot.Free
    constructor
    · intro ⟨inside, empty⟩
      unfold isFree FATDirectory.name at empty ⊢
      rw [same other inside there] at empty
      exact ⟨inside, empty⟩
    · intro ⟨inside, empty⟩
      unfold isFree FATDirectory.name at empty ⊢
      rw [same other inside there]
      exact ⟨inside, empty⟩
  exact {
    path := first.path.congr next
    goes := first.goes
    free := (free slot (.inr rfl)).mpr first.free
    full := fun other member empty => first.full other member ((free other (.inl member)).mp empty)
    first := fun other there before empty =>
      first.first other there before ((free other (.inr there)).mp empty) }

/-- What is done with an entry depends on its 32 bytes. -/
theorem examine_congr (same : ∀ place < 32, left place = right place) :
    examine name ext left = examine name ext right := by
  have names : characters 8 left.name = characters 8 right.name := by
    apply List.map_congr_left
    intro place member
    have small := List.mem_range.mp member
    exact congrArg _ (same place (by omega))
  have exts : characters 3 left.ext = characters 3 right.ext := by
    apply List.map_congr_left
    intro place member
    have small := List.mem_range.mp member
    exact congrArg _ (same (8 + place) (by omega))
  have first : left.name 0 = right.name 0 := same 0 (by decide)
  have flags : left.flags = right.flags := same 11 (by decide)
  have named : entryMatches name ext left ↔ entryMatches name ext right := by
    unfold entryMatches
    rw [names, exts]
  unfold examine
  simp only [first, flags, named]

/-- The search goes on behind a used entry that does not have the name. -/
theorem examine_used (used : ¬ isFree left = true) (unnamed : examine name ext left ≠ some true) :
    examine name ext left = none := by
  unfold isFree at used
  unfold examine at unnamed ⊢
  split_ifs at unnamed ⊢ with zero unused long same
  · simp [zero] at used
  · rfl
  · rfl
  · exact absurd rfl unnamed
  · rfl

/-- A cluster gives nothing if none of its entries does. -/
theorem firstEntry_none {α : Type} {decide : Nat → Nat → Option α}
    (nothing : ∀ s < vol.perCluster.toNat, ∀ index < vol.bytes.toNat / 32, decide s index = none) :
    firstEntry vol decide = none := by
  apply List.findSome?_eq_none_iff.mpr
  intro s sInside
  apply List.findSome?_eq_none_iff.mpr
  intro index indexInside
  exact nothing s (List.mem_range.mp sInside) index (List.mem_range.mp indexInside)

/-- A search through numbers returns what the first accepted one gives. -/
theorem findSome?_range_of {α : Type} {accept : Nat → Option α} {count number : Nat} {result : α}
    (inside : number < count) (accepted : accept number = some result)
    (before : ∀ less < number, accept less = none) :
    (List.range count).findSome? accept = some result := by
  cases found : (List.range count).findSome? accept with
  | none =>
    have refused := List.findSome?_eq_none_iff.mp found number (List.mem_range.mpr inside)
    cases accepted.symm.trans refused
  | some other =>
    obtain ⟨first, _, here, less⟩ := findSome?_range found
    rcases Nat.lt_trichotomy first number with earlier | rfl | later
    · cases here.symm.trans (before first earlier)
    · exact here.symm.trans accepted
    · cases accepted.symm.trans (less number later)

/-- A cluster gives what its first entry that gives something does. -/
theorem firstEntry_some {α : Type} {decide : Nat → Nat → Option α} {result : α}
    (inside : slot.Inside vol) (here : decide slot.s slot.index = some result)
    (before : ∀ other : Slot, other.Inside vol → other.Before slot →
      decide other.s other.index = none) : firstEntry vol decide = some result := by
  apply findSome?_range_of inside.1
  · apply findSome?_range_of inside.2 here
    intro index less
    have fits : index < vol.bytes.toNat / 32 := Nat.lt_trans less inside.2
    exact before ⟨slot.cluster, slot.s, index⟩ ⟨inside.1, fits⟩ (.inr ⟨rfl, less⟩)
  · intro s less
    have fits : s < vol.perCluster.toNat := Nat.lt_trans less inside.1
    apply List.findSome?_eq_none_iff.mpr
    intro index member
    exact before ⟨slot.cluster, s, index⟩ ⟨fits, List.mem_range.mp member⟩ (.inl less)

end Searches

/-! ## Slots on the drive -/

section Slots

variable {vol : FATVolume} {drive after : Drive} {slot other : Slot} {entry : FATDirectory}
  {place : Nat} {cluster : BitVec 32}

/-- A slot lies in its cluster. -/
theorem Slot.Inside.within (inside : slot.Inside vol) :
    clusterStart vol slot.cluster ≤ slotStart vol slot ∧
      slotStart vol slot + 32 ≤ clusterStart vol slot.cluster + clusterBytes vol := by
  obtain ⟨sector, index⟩ := inside
  have last : (slot.s + 1) * vol.bytes.toNat ≤ clusterBytes vol := Nat.mul_le_mul_right _ sector
  rw [Nat.succ_mul] at last
  unfold slotStart
  omega

/-- Different slots lie apart. -/
theorem slots_apart (isData : vol.IsData slot.cluster) (otherData : vol.IsData other.cluster)
    (inside : slot.Inside vol) (otherInside : other.Inside vol) (different : other ≠ slot) :
    slotStart vol other + 32 ≤ slotStart vol slot ∨
      slotStart vol slot + 32 ≤ slotStart vol other := by
  have within := inside.within
  have otherWithin := otherInside.within
  by_cases cluster : other.cluster = slot.cluster
  · obtain ⟨_, index⟩ := inside
    obtain ⟨_, otherIndex⟩ := otherInside
    unfold slotStart
    rw [cluster]
    rcases Nat.lt_trichotomy other.s slot.s with before | same | behind
    · have step : (other.s + 1) * vol.bytes.toNat ≤ slot.s * vol.bytes.toNat :=
        Nat.mul_le_mul_right _ before
      rw [Nat.succ_mul] at step
      omega
    · have apart : other.index ≠ slot.index := fun equal => different (Slot.ext cluster same equal)
      rw [same]
      omega
    · have step : (slot.s + 1) * vol.bytes.toNat ≤ other.s * vol.bytes.toNat :=
        Nat.mul_le_mul_right _ behind
      rw [Nat.succ_mul] at step
      omega
  · have apart := clusters_apart isData otherData cluster
    omega

/-- A byte of an entry. -/
theorem ExactVolume.clusterEntry_eq (volume : ExactVolume vol) (isData : vol.IsData slot.cluster)
    (inside : slot.Inside vol) :
    clusterEntry vol drive slot.cluster slot.s slot.index place =
      drive (slotStart vol slot + place) := by
  rw [clusterEntry, sectorEntry, slice, volume.readSector_data isData inside.1, slotStart,
    Nat.add_assoc, Nat.add_assoc, Nat.add_assoc]

/-- Writing a slot replaces its 32 bytes. -/
theorem ExactVolume.writeSlot_ok (volume : ExactVolume vol) (isData : vol.IsData slot.cluster)
    (inside : slot.Inside vol) {result : Unit}
    (returned : writeSlot vol slot entry drive = .ok result after) :
    after = overwrite drive (slotStart vol slot) 32 entry := by
  unfold writeSlot at returned
  simp only [bind_ok, get_ok] at returned
  obtain ⟨_, _, ⟨rfl, rfl⟩, rest⟩ := returned
  rcases ite_ok.mp rest with ⟨fits, set⟩ | ⟨_, stop⟩
  · rw [← set_ok.mp set, writeSector, readSector, volume.dataOffset isData inside.1,
      overwrite_slice_overwrite fits]
    rfl
  · exact absurd stop (by simp [throw_ok])

/-- The entries after a slot was written. -/
theorem ExactVolume.clusterEntry_write (volume : ExactVolume vol)
    (wrote : after = overwrite drive (slotStart vol slot) 32 entry)
    (isData : vol.IsData slot.cluster) (otherData : vol.IsData other.cluster)
    (inside : slot.Inside vol) (otherInside : other.Inside vol) (small : place < 32) :
    clusterEntry vol after other.cluster other.s other.index place =
      if other = slot then entry place
      else clusterEntry vol drive other.cluster other.s other.index place := by
  rw [volume.clusterEntry_eq otherData otherInside, volume.clusterEntry_eq otherData otherInside,
    wrote]
  split_ifs with same
  · rw [same]
    exact overwrite_inside small
  · have apart := slots_apart isData otherData inside otherInside same
    exact overwrite_outside (by omega)

/-- Writing a slot changes no entry of the table. -/
theorem ExactVolume.fatEntry_write (volume : ExactVolume vol)
    (wrote : after = overwrite drive (slotStart vol slot) 32 entry) (inside : slot.Inside vol)
    (inTable : vol.InTable cluster) :
    fatEntry vol after cluster.toNat = fatEntry vol drive cluster.toNat := by
  have within := inside.within
  have tables := tables_before vol slot.cluster
  have first : fatBytes vol ≤ vol.fatCount.toNat * fatBytes vol :=
    Nat.le_mul_of_pos_left _ volume.fatCount
  apply volume.fatEntry_congr inTable
  intro position _ below
  rw [wrote]
  exact overwrite_outside (.inl (by omega))

/-- Writing a slot of another cluster changes no byte of a chain. -/
theorem ExactVolume.chainByte_write (volume : ExactVolume vol)
    (wrote : after = overwrite drive (slotStart vol slot) 32 entry)
    {clusters : List (BitVec 32)} {index : Nat} (isData : vol.IsData slot.cluster)
    (inside : slot.Inside vol)
    (allData : ∀ cluster ∈ clusters, vol.IsData cluster) (outside : slot.cluster ∉ clusters)
    (small : index < clusters.length * clusterBytes vol) :
    chainByte vol after clusters index = chainByte vol drive clusters index := by
  have below : index / clusterBytes vol < clusters.length :=
    (Nat.div_lt_iff_lt_mul volume.clusterBytes_pos).mpr small
  have member : clusters.getD (index / clusterBytes vol) 0 ∈ clusters := by
    rw [List.getD_eq_getElem _ _ below]
    exact List.getElem_mem below
  have here := allData _ member
  have place := Nat.mod_lt index volume.clusterBytes_pos
  have within := inside.within
  have apart := clusters_apart isData here fun same => outside (same ▸ member)
  rw [volume.chainByte_eq here, volume.chainByte_eq here, wrote]
  exact overwrite_outside (by omega)

end Slots

/-! ## The entry of a file -/

section Entry

variable {path : List (BitVec 8)} {cluster size : BitVec 32} {attributes : BitVec 8}
  {entry other : FATDirectory}

/-- The first character of a name is no mark of an entry, unless the path begins with one. -/
theorem created_first (first : path.head? ≠ some fatUnused) :
    (fatConvert83 path).1 0 ≠ 0 ∧ (fatConvert83 path).1 0 ≠ fatUnused := by
  have character : (fatConvert83 path).1 0 = (nameCharacters path).getD 0 0x20 := rfl
  rw [character]
  cases path with
  | nil => exact ⟨by decide, by decide⟩
  | cons char rest =>
    unfold nameCharacters
    by_cases kept : char ≠ 0 ∧ char ≠ 0x2E
    · have head : (List.take 8 ((char :: rest).takeWhile fun char => char ≠ 0 ∧ char ≠ 0x2E)).getD 0
          0x20 = char := by
        rw [List.takeWhile_cons, if_pos (by simpa using kept)]
        rfl
      rw [head]
      exact ⟨kept.1, fun same => first (congrArg some same)⟩
    · have head : (List.take 8 ((char :: rest).takeWhile fun char => char ≠ 0 ∧ char ≠ 0x2E)).getD 0
          0x20 = 0x20 := by
        rw [List.takeWhile_cons, if_neg (by simpa using kept)]
        rfl
      rw [head]
      exact ⟨by decide, by decide⟩

/-- The entry that `FatCreateEntry` makes has the name. -/
theorem created_named (first : path.head? ≠ some fatUnused) :
    examine (fatConvert83 path).1 (fatConvert83 path).2
      (fatCreateEntry path cluster size fatArchive) = some true := by
  have names : characters 8 (fatCreateEntry path cluster size fatArchive).name =
      characters 8 (fatConvert83 path).1 := by
    apply List.map_congr_left
    intro place member
    exact congrArg _ (if_pos (List.mem_range.mp member))
  have exts : characters 3 (fatCreateEntry path cluster size fatArchive).ext =
      characters 3 (fatConvert83 path).2 := by
    apply List.map_congr_left
    intro place member
    have small := List.mem_range.mp member
    have here : fatCreateEntry path cluster size fatArchive (8 + place) =
        (fatConvert83 path).2 (8 + place - 8) :=
      (if_neg (by omega)).trans (if_pos (by omega))
    rw [Nat.add_sub_cancel_left] at here
    exact congrArg _ here
  obtain ⟨used, notUnused⟩ := created_first first
  have usedName : (fatCreateEntry path cluster size fatArchive).name 0 ≠ 0 := used
  have notUnusedName : (fatCreateEntry path cluster size fatArchive).name 0 ≠ fatUnused := notUnused
  have flags : (fatCreateEntry path cluster size fatArchive).flags ≠ fatLongFileName := by
    have archive : (fatCreateEntry path cluster size fatArchive).flags = fatArchive := rfl
    rw [archive]
    decide
  have named : entryMatches (fatConvert83 path).1 (fatConvert83 path).2
      (fatCreateEntry path cluster size fatArchive) := by
    unfold entryMatches
    rw [names, exts, strncmp_self, strncmp_self]
    exact ⟨rfl, rfl⟩
  unfold examine
  rw [if_neg usedName, if_neg notUnusedName, if_neg flags, if_pos named]

/-- The entry that `FatCreateEntry` makes has the cluster. -/
theorem created_firstCluster :
    (fatCreateEntry path cluster size attributes).firstCluster = cluster := by
  have high : (fatCreateEntry path cluster size attributes).firstClusterHigh =
      little 16 (slice (byteAt cluster) 2) := by
    apply little_congr
    intro index small
    rcases (by omega : index = 0 ∨ index = 1) with rfl | rfl
    · rfl
    · rfl
  have low : (fatCreateEntry path cluster size attributes).firstClusterLow =
      little 16 (byteAt cluster) := by
    apply little_congr
    intro index small
    rcases (by omega : index = 0 ∨ index = 1) with rfl | rfl
    · rfl
    · rfl
  have join : (little 16 (slice (byteAt cluster) 2)).setWidth 32 <<< 16 |||
      (little 16 (byteAt cluster)).setWidth 32 = little 32 (byteAt cluster) :=
    @little_join (byteAt cluster) 2 16
  unfold FATDirectory.firstCluster
  rw [high, low, join]
  exact little_byteAt

/-- The entry that `FatCreateEntry` makes has the size. -/
theorem created_size : (fatCreateEntry path cluster size attributes).size = size := by
  conv_rhs => rw [← @little_byteAt 32 size]
  apply little_congr
  intro index small
  have shift : 28 + index - 28 = index := Nat.add_sub_cancel_left ..
  unfold slice fatCreateEntry
  dsimp only
  rw [if_neg (by omega), if_neg (by omega), if_neg (by omega), if_neg (by omega),
    if_neg (by omega), if_neg (by omega), if_neg (by omega), if_pos (by omega), shift]

/-- The cluster and the size of an entry depend on its 32 bytes. -/
theorem entry_congr (same : ∀ place < 32, entry place = other place) :
    entry.firstCluster = other.firstCluster ∧ entry.size = other.size := by
  have high : entry.firstClusterHigh = other.firstClusterHigh :=
    little_congr fun index small => same _ (by omega)
  have low : entry.firstClusterLow = other.firstClusterLow :=
    little_congr fun index small => same _ (by omega)
  have size : entry.size = other.size := little_congr fun index small => same _ (by omega)
  unfold FATDirectory.firstCluster
  rw [high, low]
  exact ⟨rfl, size⟩

end Entry

/-! ## The round trip -/

section RoundTrip

variable {vol : FATVolume} {drive stored after : Drive} {name ext : Nat → BitVec 8}
  {parent : Option FATDirectory} {front root clusters : List (BitVec 32)} {slot : Slot}
  {entry : FATDirectory} {path : List (BitVec 8)} {data : Nat → BitVec 8}
  {start location : BitVec 32} {size : BitVec 32} {width fuel count : Nat}

/-- The entry in the first free slot of a directory is found, if it has the name and none before it
does. -/
theorem located_at (volume : ExactVolume vol)
    (wrote : after = overwrite drive (slotStart vol slot) 32 entry)
    (chain : ClusterChain vol drive (directoryCluster vol parent) root)
    (accepted : refused parent = false)
    (first : FirstFree vol drive (directoryCluster vol parent) front slot)
    (unnamed : Unnamed vol drive name ext front slot) (named : examine name ext entry = some true) :
    ∃ location : FATFileLocation, location.found = true ∧
      (∀ place < 32, location.dir place = entry place) ∧
      ∀ more, front.length < more → fatLocateInDir more name ext vol after parent =
        .ok (front ++ [slot.cluster], location) := by
  obtain ⟨rest, rfl⟩ := chain.entered volume first.path first.goes
  have allData := chain.allData
  have isData : vol.IsData slot.cluster := allData _ (by simp)
  have frontData : ∀ cluster ∈ front, vol.IsData cluster := fun cluster member =>
    allData _ (by simp [member])
  have outside : slot.cluster ∉ front := fun member => first.full slot member first.free
  have inside := first.free.1
  have here : ∀ place < 32,
      clusterEntry vol after slot.cluster slot.s slot.index place = entry place :=
    fun place small =>
      (volume.clusterEntry_write wrote isData isData inside inside small).trans (if_pos rfl)
  -- Before the slot the entries are as they were: used, and without the name.
  have passed : ∀ other : Slot, other.Inside vol → vol.IsData other.cluster → other ≠ slot →
      ¬ other.Free vol drive →
      (other.cluster ∈ front ∨ other.cluster = slot.cluster ∧ other.Before slot) →
      examine name ext (clusterEntry vol after other.cluster other.s other.index) = none := by
    intro other otherInside otherData different used before
    have same : examine name ext (clusterEntry vol after other.cluster other.s other.index) =
        examine name ext (clusterEntry vol drive other.cluster other.s other.index) :=
      examine_congr fun place small =>
        (volume.clusterEntry_write wrote isData otherData inside otherInside small).trans
          (if_neg different)
    rw [same]
    exact examine_used (fun free => used ⟨otherInside, free⟩) (unnamed other otherInside before)
  have path : Path inChain (fatNextCluster vol after) (directoryCluster vol parent) front
      slot.cluster := by
    apply first.path.congr
    intro cluster member
    have inTable := (frontData cluster member).inTable
    rw [volume.fatNextCluster_eq inTable, volume.fatNextCluster_eq inTable,
      volume.fatEntry_write wrote inside inTable]
  have there : locateInCluster name ext vol after slot.cluster =
      some ⟨clusterEntry vol after slot.cluster slot.s slot.index, slot.cluster,
        .ofNat 32 slot.s, .ofNat 32 slot.index, true⟩ := by
    apply firstEntry_some inside
    · dsimp only
      rw [(examine_congr here).trans named]
      rfl
    · intro other otherInside before
      have different : (⟨slot.cluster, other.s, other.index⟩ : Slot) ≠ slot := by
        intro same
        obtain ⟨_, sameS, sameIndex⟩ := Slot.ext_iff.mp same
        dsimp only at sameS sameIndex
        unfold Slot.Before at before
        omega
      have used := first.first ⟨slot.cluster, other.s, other.index⟩ rfl before
      dsimp only
      rw [passed ⟨slot.cluster, other.s, other.index⟩ otherInside isData different used
        (.inr ⟨rfl, before⟩)]
      rfl
  have nothing : ∀ cluster ∈ front, locateInCluster name ext vol after cluster = none := by
    intro cluster member
    apply firstEntry_none
    intro s sInside index indexInside
    have different : (⟨cluster, s, index⟩ : Slot) ≠ slot := by
      rintro rfl
      exact outside member
    have used := first.full ⟨cluster, s, index⟩ member
    dsimp only
    rw [passed ⟨cluster, s, index⟩ ⟨sInside, indexInside⟩ (frontData cluster member) different used
      (.inl member)]
    rfl
  exact ⟨⟨clusterEntry vol after slot.cluster slot.s slot.index, slot.cluster, .ofNat 32 slot.s,
    .ofNat 32 slot.index, true⟩, rfl, here, fun more enough =>
      fatLocateInDir_of_path accepted path first.goes there nothing enough⟩

/-- A write that succeeds stores the data, finds a free slot and writes the entry there. -/
theorem fatWrite_done
    (wrote : fatWrite fuel path data size vol parent drive = .ok 0 after) :
    ∃ cluster stored location, fatWriteData vol fuel data size drive = .ok cluster stored ∧
      cluster ≠ 0 ∧
      fatFindFreeEntry vol fuel (directoryCluster vol parent) stored = .ok location ∧
      location ≠ 0 ∧
      fatWriteDirectoryEntry vol location (fatCreateEntry path cluster size fatArchive) stored =
        .ok () after := by
  rw [fatWrite] at wrote
  obtain ⟨cluster, stored, written, rest⟩ := bind_ok.mp wrote
  rcases ite_ok.mp rest with ⟨_, failed⟩ | ⟨some, rest⟩
  · exact absurd (pure_ok.mp failed).1 (by decide)
  simp only [reading, bind_ok, get_ok, ofExcept_ok] at rest
  obtain ⟨location, _, ⟨_, _, ⟨rfl, rfl⟩, found, rfl⟩, rest⟩ := rest
  rcases ite_ok.mp rest with ⟨_, failed⟩ | ⟨room, rest⟩
  · exact absurd (pure_ok.mp failed).1 (by decide)
  obtain ⟨_, _, entered, done⟩ := bind_ok.mp rest
  obtain ⟨_, rfl⟩ := pure_ok.mp done
  exact ⟨cluster, _, location, written, some, found, room, entered⟩

/-- Storing data keeps the chain and the entries of a directory. -/
theorem Written.directory_kept (volume : PairedVolume vol)
    (written : Written vol drive stored data clusters count)
    (chain : ClusterChain vol drive start root) :
    (∀ cluster ∈ root, cluster ∉ clusters) ∧
      (∀ cluster ∈ root, fatEntry vol stored cluster.toNat = fatEntry vol drive cluster.toNat) ∧
      ∀ slot : Slot, slot.cluster ∈ root → slot.Inside vol → ∀ place < 32,
        clusterEntry vol stored slot.cluster slot.s slot.index place =
          clusterEntry vol drive slot.cluster slot.s slot.index place := by
  have allData := chain.allData
  have outside : ∀ cluster ∈ root, cluster ∉ clusters := fun cluster member inside =>
    chain.taken volume.exact.wide cluster member (written.fresh cluster inside).2
  refine ⟨outside, fun cluster member => written.others cluster (allData cluster member).inTable
    (outside cluster member), fun slot member inside place small => ?_⟩
  have isData := allData _ member
  have within := inside.within
  have tables := volume.tables_before slot.cluster
  rw [volume.exact.clusterEntry_eq isData inside, volume.exact.clusterEntry_eq isData inside]
  apply written.frame _ (by omega)
  intro cluster taken
  have apart := clusters_apart (written.fresh cluster taken).1 isData fun same =>
    outside _ member (same ▸ taken)
  omega

/-- A write that succeeds stores the data and writes the entry to the first free slot, or where the
word of the slot leads. -/
theorem fatWrite_entered (volume : PairedVolume vol) (linkable : vol.Linkable)
    (chain : ClusterChain vol drive (directoryCluster vol parent) root)
    (wrote : fatWrite fuel path data size vol parent drive = .ok 0 after) :
    ∃ cluster rest stored front slot,
      Written vol drive stored data (cluster :: rest) size.toNat ∧
        FirstFree vol drive (directoryCluster vol parent) front slot ∧
        FirstFree vol stored (directoryCluster vol parent) front slot ∧
        writeSlot vol (slotAt slot.location) (fatCreateEntry path cluster size fatArchive) stored =
          .ok () after := by
  obtain ⟨cluster, stored, location, writes, some, finds, room, enters⟩ := fatWrite_done wrote
  obtain ⟨clusters, count, written, _, outcome, _, _⟩ := fatWriteData_ok volume linkable writes
  obtain ⟨head, rfl⟩ := outcome.resolve_right some
  obtain ⟨_, entries, slots⟩ := written.directory_kept volume chain
  obtain ⟨front, slot, first, rfl⟩ := fatFindFreeEntry_some finds room
  obtain ⟨rest, rfl⟩ := (chain.congr entries).entered volume.exact first.path first.goes
  have firstBefore : FirstFree vol drive (directoryCluster vol parent) front slot := by
    apply first.congr
    · intro cluster member
      have inTable := (chain.allData cluster (by simp [member])).inTable
      rw [volume.exact.fatNextCluster_eq inTable, volume.exact.fatNextCluster_eq inTable,
        entries cluster (by simp [member])]
    · intro other inside member
      exact (slots other (by rcases member with there | same <;> simp [*]) inside 0
        (by decide)).symm
  rw [fatWriteDirectoryEntry_eq] at enters
  cases clusters with
  | nil => exact absurd head some
  | cons first rest =>
    obtain rfl : cluster = first := head
    exact ⟨cluster, rest, stored, front, slot, written, firstBefore, ‹_›, enters⟩

/-- Storing data gives no entry before a slot another name. -/
theorem Written.unnamed (volume : PairedVolume vol)
    (written : Written vol drive stored data clusters count)
    (chain : ClusterChain vol drive start root)
    (inside : ∀ cluster, (cluster ∈ front ∨ cluster = slot.cluster) → cluster ∈ root)
    (unnamed : Unnamed vol drive name ext front slot) :
    Unnamed vol stored name ext front slot := by
  obtain ⟨_, _, slots⟩ := written.directory_kept volume chain
  intro other otherInside before
  have member := inside other.cluster (before.imp_right And.left)
  have same : examine name ext (clusterEntry vol stored other.cluster other.s other.index) =
      examine name ext (clusterEntry vol drive other.cluster other.s other.index) :=
    examine_congr (slots other member otherInside)
  rw [same]
  exact unnamed other otherInside before

/-- What the root needs for a file that is written there to be read. -/
structure Readable (vol : FATVolume) (drive : Drive) (width : Nat) (path : List (BitVec 8))
    (size : BitVec 32) : Prop where
  /-- The cluster of the first free slot has 16 bits. -/
  arrives : ∀ front slot, FirstFree vol drive (fatRootCluster vol) front slot →
    slot.cluster.toNat < 2 ^ 16
  /-- No entry before the slot has the name. -/
  unnamed : ∀ front slot, FirstFree vol drive (fatRootCluster vol) front slot →
    Unnamed vol drive (fatConvert83 path).1 (fatConvert83 path).2 front slot
  /-- The path does not begin with the mark of unused entries. -/
  mark : path.head? ≠ some fatUnused
  /-- The size of the block fits an `int`. -/
  short : toLong width (size + 1) ≤ 0x7FFFFFFF

/-- **Round trip.** What `FatWrite` has written to the root `FatRead` returns, if the root has what
it needs for it. -/
theorem round_trip (volume : LowVolume vol)
    (chain : ClusterChain vol drive (fatRootCluster vol) root)
    (wrote : fatWrite fuel path data size vol none drive = .ok 0 after)
    (readable : Readable vol drive width path size) (block : Nat → BitVec 8) :
    ∃ entered file contents, (∀ index < size.toNat, contents index = data index) ∧
      ∀ more, entered.length + file.length < more →
        fatRead width more (fatConvert83 path).1 (fatConvert83 path).2 vol after none block =
          .ok ((entered, file), some contents) := by
  have paired := volume.paired
  obtain ⟨cluster, rest, stored, front, slot, written, first, firstStored, enters⟩ :=
    fatWrite_entered paired volume.formatted.linkable chain wrote
  obtain ⟨outside, entries, _⟩ := written.directory_kept paired chain
  have storedChain : ClusterChain vol stored (directoryCluster vol none) root :=
    chain.congr entries
  obtain ⟨behind, rfl⟩ := storedChain.entered paired.exact firstStored.path first.goes
  have isData : vol.IsData slot.cluster := chain.allData _ (by simp)
  have inside := first.free.1
  -- The slot arrives, so its 32 bytes are all that the entry changes.
  have small : slot.index < 2 ^ 8 := by
    have bytes : ∀ size ∈ [512, 1024, 2048, 4096], size / 32 ≤ 2 ^ 8 := by
      decide
    exact Nat.lt_of_lt_of_le inside.2 (bytes _ volume.formatted.sectorSize)
  rw [(slotAt_location_iff inside).mpr ⟨readable.arrives front slot first, small⟩] at enters
  have wroteSlot := paired.exact.writeSlot_ok isData inside enters
  have unnamed : Unnamed vol stored (fatConvert83 path).1 (fatConvert83 path).2 front slot := by
    apply written.unnamed paired chain
    · intro cluster member
      rcases member with there | same
      · simp [there]
      · simp [same]
    · exact readable.unnamed front slot first
  obtain ⟨location, found, dir, located⟩ := located_at paired.exact wroteSlot storedChain rfl
    firstStored unnamed (created_named readable.mark)
  obtain ⟨firstCluster, sizeIs⟩ := entry_congr dir
  rw [created_firstCluster] at firstCluster
  rw [created_size] at sizeIs
  -- The chain of the file and its bytes are as they were stored.
  have fileData : ∀ other ∈ cluster :: rest, vol.IsData other := fun other member =>
    (written.fresh other member).1
  have file : ClusterChain vol after location.dir.firstCluster (cluster :: rest) := by
    rw [firstCluster]
    apply (written.linked.chain paired.exact fileData).congr
    intro other member
    exact paired.exact.fatEntry_write wroteSlot inside (fileData other member).inTable
  have goes : ∀ other ∈ cluster :: rest, inChain other = true := fun other member =>
    volume.formatted.inChain_data (fileData other member)
  obtain ⟨stop, path, stops⟩ := file.path paired.exact goes
  have cleared : memset block 0 (toLong width (location.dir.size + 1)) =
      .ok (overwrite block 0 (toLong width (location.dir.size + 1)).toNat fun _ => 0) := by
    rw [sizeIs]
    exact if_pos readable.short
  have reads := @readClusters_reads vol after (cluster :: rest) paired.exact fileData
    ⟨overwrite block 0 (toLong width (location.dir.size + 1)).toNat fun _ => 0, 0,
      location.dir.size.toNat⟩
  refine ⟨_, _, _, fun index below => ?_, fun more enough =>
    fatRead_of_path rfl (located more ?_) found cleared path stops ?_⟩
  · have fit := written.fit
    have read := reads.contents index (by
      rw [sizeIs]
      dsimp only
      omega)
    rw [Nat.zero_add] at read
    rw [read, paired.exact.chainByte_write wroteSlot isData inside fileData
      (outside _ (by simp)) (by omega)]
    exact written.chainByte paired.exact below
  · rw [List.length_append, List.length_singleton] at enough
    omega
  · omega

end RoundTrip

/-! ## Samples -/

/-- The small volume with an empty root. -/
def emptyDrive : Drive := driveOf [(520, 0xF8), (521, 0xFF), (522, 0xFF), (523, 0x0F)]

/-- The root of the small volume has one cluster. -/
theorem emptyDrive_root :
    ClusterChain sampleVolume emptyDrive (fatRootCluster sampleVolume) [2] :=
  ⟨by decide +kernel, ⟨by decide +kernel, by decide +kernel⟩,
    (by decide +kernel : FATType.endMark _ ≤ fatEntry sampleVolume emptyDrive 2)⟩

/-- Its first free slot is the first one. -/
theorem emptyDrive_first {front : List (BitVec 32)} {slot : Slot}
    (first : FirstFree sampleVolume emptyDrive (fatRootCluster sampleVolume) front slot) :
    front = [] ∧ slot = ⟨2, 0, 0⟩ := by
  obtain ⟨rest, split⟩ := emptyDrive_root.entered sampleVolume_exact first.path first.goes
  cases front with
  | cons link front => simp at split
  | nil =>
    obtain ⟨cluster, _⟩ := List.cons.inj split
    have free : Slot.Free sampleVolume emptyDrive ⟨2, 0, 0⟩ :=
      ⟨⟨by decide +kernel, by decide +kernel⟩, by decide +kernel⟩
    have notBefore : ¬ Slot.Before ⟨2, 0, 0⟩ slot := fun before =>
      first.first ⟨2, 0, 0⟩ cluster before free
    unfold Slot.Before at notBefore
    dsimp only at notBefore
    have s : slot.s = 0 := by omega
    have index : slot.index = 0 := by omega
    exact ⟨rfl, Slot.ext cluster.symm s index⟩

/-- A byte is written to the small volume and read. -/
theorem round_trip_sample : ∃ entered file contents,
    (∀ index < 1, contents index = (7 : BitVec 8)) ∧
      ∀ more, entered.length + file.length < more →
        fatRead 64 more (fatConvert83 [0x51]).1 (fatConvert83 [0x51]).2 sampleVolume
          (stateAfter (fatWrite 2 [0x51] (fun _ => 7) 1 sampleVolume none) emptyDrive) none
          (fun _ => 0) = .ok ((entered, file), some contents) := by
  have volume : LowVolume sampleVolume :=
    ⟨sampleVolume_formatted, by decide +kernel, by decide +kernel, by decide +kernel⟩
  have wrote : resultOf (fatWrite 2 [0x51] (fun _ => 7) 1 sampleVolume none) emptyDrive =
      some 0 := by
    decide +kernel
  have readable : Readable sampleVolume emptyDrive 64 [0x51] 1 := {
    arrives := fun front slot first => by
      rw [(emptyDrive_first first).2]
      decide
    unnamed := fun front slot first other _ before => by
      obtain ⟨rfl, rfl⟩ := emptyDrive_first first
      rcases before with none | ⟨_, before⟩
      · cases none
      · unfold Slot.Before at before
        dsimp only at before
        omega
    mark := by decide
    short := by decide }
  exact round_trip volume emptyDrive_root (ok_of_resultOf wrote) readable fun _ => 0

/-- The boot sector of a volume of 64 MiB with its root in cluster 65538. -/
def farBoot : Nat → BitVec 8
  | 46 => 1
  | index => wideBoot index

/-- The volume with its root there. -/
def farVolume : FATVolume := ⟨farBoot, 0⟩

/-- The volume is formatted and lies below 4 GiB. -/
theorem farVolume_low : LowVolume farVolume where
  formatted := {
    sectorSize := by decide +kernel
    perCluster := by decide +kernel
    fatCount := by decide +kernel
    fits := by decide +kernel
    covers := by decide +kernel
    clusters := by decide +kernel }
  wide := by decide +kernel
  two := by decide +kernel
  low := by decide +kernel

/-- A drive with an empty root. -/
def farDrive : Drive :=
  driveOf [(262664, 0xF8), (262665, 0xFF), (262666, 0xFF), (262667, 0x0F)]

/-- The root has one cluster. -/
theorem farVolume_root : ClusterChain farVolume farDrive (fatRootCluster farVolume) [65538] :=
  ⟨by decide +kernel, ⟨by decide +kernel, by decide +kernel⟩,
    (by decide +kernel : FATType.endMark _ ≤ fatEntry farVolume farDrive 65538)⟩

/-- A file is not found in a root in cluster 65538: its entry was written to cluster 2. -/
theorem far_file_lost :
    ¬ ∀ (vol : FATVolume) (drive after : Drive) (root : List (BitVec 32)) (width fuel : Nat)
      (path : List (BitVec 8)) (data block : Nat → BitVec 8) (size : BitVec 32), LowVolume vol →
      ClusterChain vol drive (fatRootCluster vol) root →
      fatWrite fuel path data size vol none drive = .ok 0 after →
      ∃ more entered file contents, (∀ index < size.toNat, contents index = data index) ∧
        fatRead width more (fatConvert83 path).1 (fatConvert83 path).2 vol after none block =
          .ok ((entered, file), some contents) := by
  intro claim
  have lost : (match fatWrite 2 [0x51] (fun _ => 7) 1 farVolume none farDrive with
      | .ok code after => decide (code = 0) &&
          (match fatLocateInDir 1 (fatConvert83 [0x51]).1 (fatConvert83 [0x51]).2 farVolume after
            none with
          | .ok (_, location) => !location.found
          | .error _ => false)
      | .error _ _ => false) = true := by
    decide +kernel
  split at lost
  case _ code after wrote =>
    simp only [Bool.and_eq_true, decide_eq_true_eq] at lost
    obtain ⟨rfl, missing⟩ := lost
    obtain ⟨more, entered, file, contents, _, read⟩ := claim farVolume farDrive after [65538] 64 2
      [0x51] (fun _ => 7) (fun _ => 0) 1 farVolume_low farVolume_root wrote
    obtain ⟨location, _, _, located, found, _⟩ := fatRead_some rfl read
    split at missing
    case _ visited nothing searched =>
      have enough : 1 ≤ more := by
        cases more with
        | zero => cases located
        | succ more => omega
      have same := (fatLocateInDir_mono enough searched).symm.trans located
      obtain ⟨_, rfl⟩ := Prod.mk.inj (Except.ok.inj same)
      rw [found] at missing
      cases missing
    case _ => cases missing
  case _ => cases lost

end Unarddeg.Fat
