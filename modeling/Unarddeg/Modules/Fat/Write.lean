import Unarddeg.Library.Exec
import Unarddeg.Modules.Fat.Geometry

/-!
# Writing a file

`FatWrite` and what it calls, over the contents of the drive. The clusters that `FatWriteData` takes
stay taken when the write fails later (`write_atomic_iff`).

`WriteTo` of the last sector reads behind the data, so the data are given as the memory behind their
pointer.
-/

namespace Unarddeg.Fat

open Library

/-- A function that only reads the drive. -/
def reading {α : Type} (read : Drive → Except Stop α) : Kernel Drive α := do
  let drive ← get
  ofExcept (read drive)

/-- The loop of `FatFindFreeCluster`: each round reads an entry as `FatNextCluster32` does. -/
def freeClusterFrom (vol : FATVolume) (drive : Drive) :
    (rounds : Nat) → BitVec 32 → Except Stop (BitVec 32)
  | 0, _ => .ok 0
  | rounds + 1, i => do
    let entry ← fatNextCluster32 vol drive i
    if entry = 0 then pure i else freeClusterFrom vol drive rounds (i + 1)

/-- `FatFindFreeCluster`. -/
def fatFindFreeCluster (vol : FATVolume) (drive : Drive) : Except Stop (BitVec 32) :=
  freeClusterFrom vol drive ((fatClusterCount vol + 2).toNat - 2) 2

/-- `FatSetCluster` on the drive. -/
def setCluster (vol : FATVolume) (cluster value : BitVec 32) : Kernel Drive Unit := do
  let drive ← get
  let drive ← ofExcept (fatSetCluster vol drive cluster value)
  set drive

/-- `FatAllocateCluster`. -/
def fatAllocateCluster (vol : FATVolume) : Kernel Drive (BitVec 32) := do
  let freeCluster ← reading (fatFindFreeCluster vol)
  if freeCluster = 0 then pure 0
  else do
    setCluster vol freeCluster 0x0FFFFFF8
    pure freeCluster

/-- The variables of the loops of `FatWriteData`. -/
structure WriteState where
  /-- The drive. -/
  drive : Drive
  /-- `ptr`, in the data. -/
  ptr : Nat
  /-- `remaining`. -/
  remaining : Nat
  /-- `writeSize`. -/
  writeSize : Nat

/-- A round of the inner loop of `FatWriteData`. -/
def writeSectorOf (vol : FATVolume) (data : Nat → BitVec 8) (cluster : BitVec 32)
    (state : WriteState) (i : Nat) : WriteState :=
  if state.writeSize > 0 then
    let sectorSize := min state.writeSize vol.bytes.toNat
    { drive := writeSector vol state.drive (fatFirstSectorForCluster vol cluster + .ofNat 32 i)
        (slice data state.ptr)
      ptr := state.ptr + sectorSize
      remaining := state.remaining - sectorSize
      writeSize := state.writeSize - sectorSize }
  else state

/-- The outer loop of `FatWriteData`. -/
def writeClusters (vol : FATVolume) (data : Nat → BitVec 8) :
    (fuel : Nat) → (firstCluster prevCluster : BitVec 32) → (ptr remaining : Nat) →
      Kernel Drive (BitVec 32)
  | 0, _, _, _, _ => throw .hang
  | fuel + 1, firstCluster, prevCluster, ptr, remaining =>
    if remaining = 0 then pure firstCluster
    else do
      let cluster ← fatAllocateCluster vol
      if cluster = 0 then pure 0
      else do
        onlyIf (prevCluster ≠ 0) do
          setCluster vol prevCluster cluster
        let drive ← get
        let last := (List.range vol.perCluster.toNat).foldl (writeSectorOf vol data cluster)
          ⟨drive, ptr, remaining, min remaining (vol.perCluster.toNat * vol.bytes.toNat)⟩
        set last.drive
        writeClusters vol data fuel (if firstCluster = 0 then cluster else firstCluster) cluster
          last.ptr last.remaining

/-- `FatWriteData`. -/
def fatWriteData (vol : FATVolume) (fuel : Nat) (data : Nat → BitVec 8) (size : BitVec 32) :
    Kernel Drive (BitVec 32) :=
  writeClusters vol data fuel 0 0 0 size.toNat

/-- A free entry of a directory. -/
def isFree (entry : FATDirectory) : Bool := entry.name 0 = 0 ∨ entry.name 0 = fatUnused

/-- A place in a directory, as `FatFindFreeEntry` returns it. -/
def packLocation (cluster : BitVec 32) (s index : Nat) : BitVec 32 :=
  cluster <<< 16 ||| BitVec.ofNat 32 s <<< 8 ||| BitVec.ofNat 32 index

/-- The rounds of `FatFindFreeEntry` in a cluster. -/
def freeInCluster (vol : FATVolume) (drive : Drive) (cluster : BitVec 32) : Option (BitVec 32) :=
  firstEntry vol fun s index =>
    if isFree (clusterEntry vol drive cluster s index) then some (packLocation cluster s index)
    else none

/-- `FatFindFreeEntry`. -/
def fatFindFreeEntry (vol : FATVolume) (fuel : Nat) (dirCluster : BitVec 32) (drive : Drive) :
    Except Stop (BitVec 32) := do
  let (_, found) ← scanChain inChain (fatNextCluster vol drive) (freeInCluster vol drive) .hang fuel
    dirCluster
  pure (found.getD 0)

/-- `FatWriteDirectoryEntry`. -/
def fatWriteDirectoryEntry (vol : FATVolume) (location : BitVec 32) (entry : FATDirectory) :
    Kernel Drive Unit := do
  let cluster := location >>> 16
  let s := (location >>> 8) &&& 0xFF
  let index := (location &&& 0xFF).toNat
  let sector := fatFirstSectorForCluster vol cluster + s
  let drive ← get
  if 32 * index + 32 ≤ vol.bytes.toNat then
    set (writeSector vol drive sector
      (overwrite (readSector vol drive sector) (32 * index) 32 entry))
  else throw .outOfBounds

/-- Characters of a C string, at most some of them, padded with blanks. -/
def padded (count : Nat) (text : List (BitVec 8)) (index : Nat) : BitVec 8 :=
  if index < count then text.getD index 0x20 else 0

/-- The characters of a name before its dot. -/
def nameCharacters (path : List (BitVec 8)) : List (BitVec 8) :=
  (path.takeWhile fun char => char ≠ 0 ∧ char ≠ 0x2E).take 8

/-- The characters of a name behind its dot. -/
def extCharacters (path : List (BitVec 8)) : List (BitVec 8) :=
  let rest := path.drop (nameCharacters path).length
  let rest := if rest.head? = some 0x2E then rest.tail else rest
  (rest.takeWhile fun char => char ≠ 0 ∧ char ≠ 0x2F).take 3

/-- `FatConvert83`: the name and the extension. -/
def fatConvert83 (path : List (BitVec 8)) : (Nat → BitVec 8) × (Nat → BitVec 8) :=
  (padded 8 (nameCharacters path), padded 3 (extCharacters path))

/-- `FatCreateEntry`. -/
def fatCreateEntry (path : List (BitVec 8)) (firstCluster size : BitVec 32)
    (attributes : BitVec 8) : FATDirectory :=
  let (name, ext) := fatConvert83 path
  fun index =>
    if index < 8 then name index
    else if index < 11 then ext (index - 8)
    else if index = 11 then attributes
    else if index = 20 then byteAt firstCluster 2
    else if index = 21 then byteAt firstCluster 3
    else if index = 26 then byteAt firstCluster 0
    else if index = 27 then byteAt firstCluster 1
    else if 28 ≤ index ∧ index < 32 then byteAt size (index - 28)
    else 0

/-- `FAT_ARCHIVE`. -/
def fatArchive : BitVec 8 := 0x20

/-- `FatWrite`. -/
def fatWrite (fuel : Nat) (path : List (BitVec 8)) (data : Nat → BitVec 8) (size : BitVec 32)
    (vol : FATVolume) (parent : Option FATDirectory) : Kernel Drive Int := do
  let parentCluster := directoryCluster vol parent
  let firstCluster ← fatWriteData vol fuel data size
  if firstCluster = 0 then pure (-1)
  else do
    let entry := fatCreateEntry path firstCluster size fatArchive
    let location ← reading (fatFindFreeEntry vol fuel parentCluster)
    if location = 0 then pure (-2)
    else do
      fatWriteDirectoryEntry vol location entry
      pure 0

/-! ## Free clusters -/

section Free

variable {vol : FATVolume} {drive : Drive} {cluster result : BitVec 32}

/-- The loop of `FatFindFreeCluster` returns a free cluster, or 0 when it met none. -/
theorem freeClusterFrom_ok (volume : ExactVolume vol) {rounds : Nat} {i : BitVec 32}
    (low : 2 ≤ i.toNat) (last : i.toNat + rounds = (fatClusterCount vol).toNat + 2)
    (returned : freeClusterFrom vol drive rounds i = .ok result) :
    (result = 0 ∧ ∀ cluster : BitVec 32, i.toNat ≤ cluster.toNat → vol.InTable cluster →
        fatEntry vol drive cluster.toNat ≠ 0) ∨
      (vol.IsData result ∧ fatEntry vol drive result.toNat = 0) := by
  have small := volume.words.clusters
  induction rounds generalizing i with
  | zero =>
    obtain rfl := Except.ok.inj returned
    refine .inl ⟨rfl, fun cluster above inTable => ?_⟩
    rw [FATVolume.InTable] at inTable
    omega
  | succ rounds ih =>
    have here : vol.InTable i := by
      rw [FATVolume.InTable]
      omega
    obtain ⟨entry, read, rest⟩ := except_bind_ok.mp returned
    have value : entry = fatEntry vol drive i.toNat := by
      rw [volume.fatNextCluster32_eq here] at read
      exact (Except.ok.inj read).symm
    by_cases free : entry = 0
    · rw [if_pos free] at rest
      obtain rfl := Except.ok.inj rest
      exact .inr ⟨⟨low, here⟩, value ▸ free⟩
    · rw [if_neg free] at rest
      have next : (i + 1).toNat = i.toNat + 1 := by
        rw [BitVec.toNat_add, show (1 : BitVec 32).toNat = 1 from rfl, Nat.mod_eq_of_lt (by omega)]
      rcases ih (by omega) (by omega) rest with ⟨rfl, none⟩ | found
      · refine .inl ⟨rfl, fun cluster above inTable => ?_⟩
        by_cases same : cluster = i
        · rw [same, ← value]
          exact free
        · have apart : cluster.toNat ≠ i.toNat := fun equal => same (BitVec.eq_of_toNat_eq equal)
          exact none cluster (by omega) inTable
      · exact .inr found

/-- `FatFindFreeCluster` returns a free cluster, or 0 when there is none. -/
theorem fatFindFreeCluster_ok (volume : ExactVolume vol)
    (returned : fatFindFreeCluster vol drive = .ok result) :
    (result = 0 ∧ ∀ cluster, vol.IsData cluster → fatEntry vol drive cluster.toNat ≠ 0) ∨
      (vol.IsData result ∧ fatEntry vol drive result.toNat = 0) := by
  have small := volume.words.clusters
  have bound : (fatClusterCount vol + 2).toNat = (fatClusterCount vol).toNat + 2 := by
    rw [BitVec.toNat_add, show (2 : BitVec 32).toNat = 2 from rfl, Nat.mod_eq_of_lt (by omega)]
  rw [fatFindFreeCluster, bound] at returned
  rcases freeClusterFrom_ok volume (by decide)
    (by rw [show (2 : BitVec 32).toNat = 2 from rfl]; omega) returned with ⟨none, all⟩ | found
  · exact .inl ⟨none, fun cluster data => all cluster data.1 data.2⟩
  · exact .inr found

/-- The loop of `FatFindFreeCluster` returns the first free cluster. -/
theorem freeClusterFrom_first (volume : ExactVolume vol) {rounds : Nat} {i : BitVec 32}
    (inTable : vol.InTable cluster) (reached : i.toNat ≤ cluster.toNat)
    (enough : cluster.toNat < i.toNat + rounds)
    (free : fatEntry vol drive cluster.toNat = 0)
    (taken : ∀ other : BitVec 32, i.toNat ≤ other.toNat → other.toNat < cluster.toNat →
      fatEntry vol drive other.toNat ≠ 0) :
    freeClusterFrom vol drive rounds i = .ok cluster := by
  have below := inTable
  unfold FATVolume.InTable at below
  have small := volume.words.clusters
  induction rounds generalizing i with
  | zero => omega
  | succ rounds ih =>
    have here : vol.InTable i := by
      unfold FATVolume.InTable
      omega
    rw [freeClusterFrom]
    refine except_bind_ok.mpr ⟨_, volume.fatNextCluster32_eq here, ?_⟩
    by_cases same : i = cluster
    · rw [same, if_pos free]
      rfl
    · have apart : i.toNat ≠ cluster.toNat := fun equal => same (BitVec.eq_of_toNat_eq equal)
      have next : (i + 1).toNat = i.toNat + 1 := by
        rw [BitVec.toNat_add, show (1 : BitVec 32).toNat = 1 from rfl, Nat.mod_eq_of_lt (by omega)]
      rw [if_neg (taken i (Nat.le_refl _) (by omega))]
      apply ih (by omega) (by omega)
      intro other above
      exact taken other (by omega)

/-- `FatFindFreeCluster` returns the first free cluster. -/
theorem fatFindFreeCluster_first (volume : ExactVolume vol) (isData : vol.IsData cluster)
    (free : fatEntry vol drive cluster.toNat = 0)
    (taken : ∀ other, vol.IsData other → other.toNat < cluster.toNat →
      fatEntry vol drive other.toNat ≠ 0) : fatFindFreeCluster vol drive = .ok cluster := by
  have small := volume.words.clusters
  have two : (2 : BitVec 32).toNat = 2 := rfl
  have bound : (fatClusterCount vol + 2).toNat = (fatClusterCount vol).toNat + 2 := by
    rw [BitVec.toNat_add, two, Nat.mod_eq_of_lt (by omega)]
  obtain ⟨low, high⟩ := isData
  rw [fatFindFreeCluster, bound]
  apply freeClusterFrom_first volume high (by omega) (by omega) free
  intro other above below
  exact taken other ⟨above, by omega⟩ below

/-- A cluster with data is not 0. -/
theorem FATVolume.IsData.ne_zero (data : vol.IsData cluster) : cluster ≠ 0 := by
  rintro rfl
  exact absurd data.1 (by decide)

/-- `FatSetCluster` on the drive. -/
theorem setCluster_ok {value : BitVec 32} {after : Drive} {result : Unit}
    (words : WordTable vol) (inTable : vol.InTable cluster)
    (returned : setCluster vol cluster value drive = .ok result after) :
    after = settingCluster vol drive cluster value := by
  simp only [setCluster, bind_ok, get_ok, ofExcept_ok, words.fatSetCluster_ok inTable,
    set_ok] at returned
  obtain ⟨_, _, ⟨rfl, rfl⟩, _, _, ⟨set, rfl⟩, rfl⟩ := returned
  exact (Except.ok.inj set).symm

/-- `FatSetCluster` on the drive returns. -/
theorem setCluster_of_words {value : BitVec 32} (words : WordTable vol)
    (inTable : vol.InTable cluster) :
    setCluster vol cluster value drive = .ok () (settingCluster vol drive cluster value) := by
  simp only [setCluster, bind_ok, get_ok, ofExcept_ok, set_ok]
  exact ⟨_, _, ⟨rfl, rfl⟩, _, _, ⟨words.fatSetCluster_ok inTable, rfl⟩, rfl⟩

/-- `FatAllocateCluster` takes the first free cluster. -/
theorem fatAllocateCluster_first (volume : ExactVolume vol) (isData : vol.IsData cluster)
    (free : fatEntry vol drive cluster.toNat = 0)
    (taken : ∀ other, vol.IsData other → other.toNat < cluster.toNat →
      fatEntry vol drive other.toNat ≠ 0) :
    fatAllocateCluster vol drive =
      .ok cluster (settingCluster vol drive cluster 0x0FFFFFF8) := by
  have find := fatFindFreeCluster_first volume isData free taken
  have found : reading (fatFindFreeCluster vol) drive = .ok cluster drive :=
    bind_ok.mpr ⟨drive, drive, rfl, ofExcept_ok.mpr ⟨find, rfl⟩⟩
  rw [fatAllocateCluster, bind_of_ok found, if_neg isData.ne_zero,
    bind_of_ok (setCluster_of_words volume.words isData.inTable)]
  rfl

/-- `FatAllocateCluster` returns 0 and changes nothing, or takes a free cluster. -/
theorem fatAllocateCluster_ok (volume : ExactVolume vol) {after : Drive}
    (returned : fatAllocateCluster vol drive = .ok result after) :
    (result = 0 ∧ after = drive ∧ fatFindFreeCluster vol drive = .ok 0) ∨
      (vol.IsData result ∧ fatEntry vol drive result.toNat = 0 ∧
        after = settingCluster vol drive result 0x0FFFFFF8) := by
  simp only [fatAllocateCluster, reading, bind_ok, get_ok, ofExcept_ok] at returned
  obtain ⟨free, _, ⟨_, _, ⟨rfl, rfl⟩, find, rfl⟩, rest⟩ := returned
  rcases ite_ok.mp rest with ⟨rfl, none⟩ | ⟨some, rest⟩
  · obtain ⟨rfl, rfl⟩ := pure_ok.mp none
    exact .inl ⟨rfl, rfl, find⟩
  · obtain ⟨_, _, set, rest⟩ := bind_ok.mp rest
    obtain ⟨rfl, rfl⟩ := pure_ok.mp rest
    obtain ⟨data, entry⟩ := (fatFindFreeCluster_ok volume find).resolve_left fun none =>
      some none.1
    exact .inr ⟨data, entry, setCluster_ok volume.words data.inTable set⟩

end Free

end Unarddeg.Fat
