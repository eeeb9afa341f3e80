import Unarddeg.Kernel.String
import Unarddeg.Library.Follow
import Unarddeg.Modules.Fat.Copies

/-!
# Reading a file

`FatLocateInDir` and `FatRead`. Their loops go from cluster to cluster until `FatNextCluster`
returns `0x0FFFFFF8` or more; the clusters they enter are returned beside their results. That is the
end mark of 32-bit entries only (`visits_iff`).

The drive does not change, so the functions are pure. The block that `kalloc` returned is large
enough for the file.
-/

namespace Unarddeg.Fat

open Library

/-- A `FATDirectory`, as its 32 bytes. -/
abbrev FATDirectory := Nat → BitVec 8

namespace FATDirectory

variable (entry : FATDirectory)

/-- `Name`. -/
def name : Nat → BitVec 8 := entry
/-- `Ext`. -/
def ext : Nat → BitVec 8 := slice entry 8
/-- `Flags`. -/
def flags : BitVec 8 := entry 11
/-- `EntryFirstClusterHigh`. -/
def firstClusterHigh : BitVec 16 := little 16 (slice entry 20)
/-- `EntryFirstClusterLow`. -/
def firstClusterLow : BitVec 16 := little 16 (slice entry 26)
/-- `Size`. -/
def size : BitVec 32 := little 32 (slice entry 28)

/-- `EntryFirstClusterHigh << 16 | EntryFirstClusterLow`. -/
def firstCluster : BitVec 32 :=
  entry.firstClusterHigh.setWidth 32 <<< 16 ||| entry.firstClusterLow.setWidth 32

end FATDirectory

/-- `FAT_DIRECTORY`. -/
def fatDirectory : BitVec 8 := 0x10
/-- `FAT_LONG_FILE_NAME`. -/
def fatLongFileName : BitVec 8 := 0x3F
/-- `FAT_UNUSED`. -/
def fatUnused : BitVec 8 := 0xE5

/-- `FATFileLocation`. -/
structure FATFileLocation where
  /-- `Dir`. -/
  dir : FATDirectory
  /-- `Cluster`. -/
  cluster : BitVec 32
  /-- `Offset`. -/
  offset : BitVec 32
  /-- `Index`. -/
  index : BitVec 32
  /-- `Found`. -/
  found : Bool

/-- `(FATFileLocation){0}`. -/
def FATFileLocation.zero : FATFileLocation := ⟨fun _ => 0, 0, 0, 0, false⟩

/-- Characters of a buffer. -/
def characters (count : Nat) (buffer : Nat → BitVec 8) : List UInt8 :=
  (List.range count).map fun index => .ofBitVec (buffer index)

/-- The first cluster of a directory, or of the root. -/
def directoryCluster (vol : FATVolume) : Option FATDirectory → BitVec 32
  | some parent => parent.firstCluster
  | none => fatRootCluster vol

/-- A parent that is no directory. -/
def refused : Option FATDirectory → Bool
  | some parent => parent.flags &&& fatDirectory = 0
  | none => false

/-- The loops go on below the end mark. -/
def inChain (cluster : BitVec 32) : Bool := cluster < 0x0FFFFFF8

/-- An entry of a sector of a directory. -/
def sectorEntry (sector : Nat → BitVec 8) (index : Nat) : FATDirectory := slice sector (32 * index)

/-- A name and an extension are those of an entry. -/
def entryMatches (name ext : Nat → BitVec 8) (entry : FATDirectory) : Prop :=
  strncmp (characters 8 entry.name) (characters 8 name) 8 = 0 ∧
    strncmp (characters 3 entry.ext) (characters 3 ext) 3 = 0

instance (name ext : Nat → BitVec 8) (entry : FATDirectory) :
    Decidable (entryMatches name ext entry) :=
  inferInstanceAs (Decidable (_ ∧ _))

/-- What `FatLocateInDir` does with an entry: the directory ends there, or it is the one, or the
loop goes on. -/
def examine (name ext : Nat → BitVec 8) (entry : FATDirectory) : Option Bool :=
  if entry.name 0 = 0 then some false
  else if entry.name 0 = fatUnused then none
  else if entry.flags = fatLongFileName then none
  else if entryMatches name ext entry then some true
  else none

/-- The sectors of a cluster and the entries of a sector, in the order of the loops. -/
def firstEntry {α : Type} (vol : FATVolume) (decide : Nat → Nat → Option α) : Option α :=
  (List.range vol.perCluster.toNat).findSome? fun offset =>
    (List.range (vol.bytes.toNat / 32)).findSome? fun index => decide offset index

/-- An entry of a cluster of a directory. -/
def clusterEntry (vol : FATVolume) (drive : Drive) (cluster : BitVec 32) (offset index : Nat) :
    FATDirectory :=
  sectorEntry (readSector vol drive (fatFirstSectorForCluster vol cluster + .ofNat 32 offset)) index

/-- The rounds of `FatLocateInDir` in a cluster: the result it returns there, if it does. -/
def locateInCluster (name ext : Nat → BitVec 8) (vol : FATVolume) (drive : Drive)
    (cluster : BitVec 32) : Option FATFileLocation :=
  firstEntry vol fun offset index =>
    let entry := clusterEntry vol drive cluster offset index
    (examine name ext entry).map fun found =>
      if found then ⟨entry, cluster, .ofNat 32 offset, .ofNat 32 index, true⟩ else .zero

/-- `FatLocateInDir`. -/
def fatLocateInDir (fuel : Nat) (name ext : Nat → BitVec 8) (vol : FATVolume) (drive : Drive)
    (parent : Option FATDirectory) : Except Stop (List (BitVec 32) × FATFileLocation) :=
  if refused parent then .ok ([], .zero)
  else do
    let (entered, found) ← scanChain inChain (fatNextCluster vol drive)
      (locateInCluster name ext vol drive) .hang fuel (directoryCluster vol parent)
    pure (entered, found.getD .zero)

/-- A `DWORD` as the `long` of a target. -/
def toLong (width : Nat) (value : BitVec 32) : Int := (value.setWidth width).toInt

/-- The variables of the loop of `FatRead`. -/
structure ReadState where
  /-- The block. -/
  data : Nat → BitVec 8
  /-- `p`, in the block. -/
  p : Nat
  /-- `remaining`. -/
  remaining : Nat

/-- A round of the inner loop of `FatRead`. -/
def readSectorOf (vol : FATVolume) (drive : Drive) (cluster : BitVec 32) (state : ReadState)
    (off : Nat) : ReadState :=
  if state.remaining > 0 then
    let sector := readSector vol drive (fatFirstSectorForCluster vol cluster + .ofNat 32 off)
    let chunk := min state.remaining vol.bytes.toNat
    ⟨overwrite state.data state.p chunk sector, state.p + chunk, state.remaining - chunk⟩
  else state

/-- A round of the outer loop of `FatRead`. -/
def readCluster (vol : FATVolume) (drive : Drive) (state : ReadState) (cluster : BitVec 32) :
    ReadState :=
  (List.range vol.perCluster.toNat).foldl (readSectorOf vol drive cluster) state

/-- `FatRead` into a block, on a target with a `long` of some width. The clusters are those entered
in the directory and in the file. -/
def fatRead (width fuel : Nat) (name ext : Nat → BitVec 8) (vol : FATVolume) (drive : Drive)
    (parent : Option FATDirectory) (block : Nat → BitVec 8) :
    Except Stop ((List (BitVec 32) × List (BitVec 32)) × Option (Nat → BitVec 8)) :=
  if refused parent then .ok (([], []), none)
  else do
    let (searched, location) ← fatLocateInDir fuel name ext vol drive parent
    if location.found then
      let data ← memset block 0 (toLong width (location.dir.size + 1))
      let (entered, last) ← foldChain inChain (fatNextCluster vol drive) (readCluster vol drive)
        .hang fuel location.dir.firstCluster ⟨data, 0, location.dir.size.toNat⟩
      pure ((searched, entered), some last.data)
    else pure ((searched, []), none)

/-! ## Chains -/

/-- The entry of a cluster on the drive. -/
def fatEntry (vol : FATVolume) (drive : Drive) (cluster : Nat) : BitVec 32 :=
  match fatIdentify vol with
  | .unknown => 0
  | .fat12 =>
    let word : BitVec 16 := little 16 (slice drive (fatStart vol + (cluster + cluster / 2)))
    (if cluster % 2 = 1 then word >>> 4 else word &&& 0xFFF).setWidth 32
  | .fat16 => (little 16 (slice drive (fatStart vol + 2 * cluster))).setWidth 32
  | .fat32 => maskedEntry drive (fatStart vol + 4 * cluster)

/-- The least end mark of a type. -/
def FATType.endMark : FATType → BitVec 32
  | .unknown => 0
  | .fat12 => 0xFF8
  | .fat16 => 0xFFF8
  | .fat32 => 0x0FFFFFF8

/-- The clusters of a chain: each has data, and its entry leads to the next one, at last to an end
mark. -/
def ClusterChain (vol : FATVolume) (drive : Drive) : BitVec 32 → List (BitVec 32) → Prop
  | start, [] => (fatIdentify vol).endMark ≤ start
  | start, cluster :: rest =>
    start = cluster ∧ vol.IsData cluster ∧
      ClusterChain vol drive (fatEntry vol drive cluster.toNat) rest

/-- The word at the 32-bit offset of the entry of a cluster. -/
def wrappedEntry (vol : FATVolume) (drive : Drive) (cluster : BitVec 32) : BitVec 32 :=
  maskedEntry (readSector vol drive (tableSector vol cluster)) (tablePlace vol cluster).toNat

/-- At the 32-bit offset of the entry of a cluster stands that entry, or both are end marks. -/
def Reached (vol : FATVolume) (drive : Drive) (cluster : BitVec 32) : Prop :=
  wrappedEntry vol drive cluster = fatEntry vol drive cluster.toNat ∨
    (inChain (wrappedEntry vol drive cluster) = false ∧
      inChain (fatEntry vol drive cluster.toNat) = false)

section Chains

variable {vol : FATVolume} {drive : Drive} {start stop cluster here : BitVec 32}
  {front behind links : List (BitVec 32)}

/-- Below 4 GiB every entry is reached. -/
theorem WordTable.wrappedEntry_eq (words : WordTable vol) (wide : fatIdentify vol = .fat32)
    (inTable : vol.InTable cluster) (low : fatStart vol + tableBase vol cluster < 2 ^ 32) :
    wrappedEntry vol drive cluster = fatEntry vol drive cluster.toNat := by
  have table : tableOffset vol cluster = fatStart vol + tableBase vol cluster :=
    (words.tableOffset_mod inTable).trans (Nat.mod_eq_of_lt low)
  rw [fatEntry, wide, wrappedEntry, readSector, ← tableOffset, table, maskedEntry, slice_slice,
    Nat.add_assoc, words.tableBase_add inTable]
  rfl

/-- A cluster with data is no end mark. -/
theorem Formatted.inChain_data (formatted : Formatted vol) (data : vol.IsData cluster) :
    inChain cluster = true := by
  have small := formatted.clusters
  have below := data.2
  rw [inChain, decide_eq_true_eq, BitVec.lt_def,
    show (0x0FFFFFF8 : BitVec 32).toNat = 0x0FFFFFF8 from rfl]
  omega

/-- An end mark of 32 bits stops the loops. -/
theorem inChain_endMark (mark : FATType.endMark .fat32 ≤ cluster) : inChain cluster = false :=
  decide_eq_false (BitVec.not_lt.mpr mark)

/-- `FatNextCluster` on 32 bits reads the word at the 32-bit offset. -/
theorem Formatted.fatNextCluster_wrapped (formatted : Formatted vol)
    (wide : fatIdentify vol = .fat32) (inTable : vol.InTable cluster) :
    fatNextCluster vol drive cluster = .ok (wrappedEntry vol drive cluster) :=
  formatted.words.fatNextCluster_ok wide inTable

/-- The last cluster of a chain has data, and its entry is an end mark. -/
theorem ClusterChain.last (chain : ClusterChain vol drive start (front ++ [here])) :
    vol.IsData here ∧ (fatIdentify vol).endMark ≤ fatEntry vol drive here.toNat := by
  induction front generalizing start with
  | nil => exact chain.2
  | cons cluster front ih => exact ih chain.2.2

/-- A cluster of a chain has data. -/
theorem ClusterChain.isData (chain : ClusterChain vol drive start (front ++ here :: behind)) :
    vol.IsData here := by
  induction front generalizing start with
  | nil => exact chain.2.1
  | cons cluster front ih => exact ih chain.2.2

/-- Where a chain goes on, the word at the 32-bit offset is the entry exactly when it is
reached. -/
theorem reached_iff_eq (formatted : Formatted vol)
    (data : vol.IsData (fatEntry vol drive cluster.toNat)) :
    Reached vol drive cluster ↔
      wrappedEntry vol drive cluster = fatEntry vol drive cluster.toNat := by
  refine ⟨fun reached => ?_, .inl⟩
  rcases reached with same | ⟨_, ends⟩
  · exact same
  · rw [formatted.inChain_data data] at ends
    cases ends

/-- The loops go along a part of a chain exactly when its entries are reached. -/
theorem path_front_iff (formatted : Formatted vol) (wide : fatIdentify vol = .fat32)
    (chain : ClusterChain vol drive start (front ++ here :: behind)) :
    Path inChain (fatNextCluster vol drive) start front here ↔
      ∀ cluster ∈ front, Reached vol drive cluster := by
  induction front generalizing start with
  | nil => simp [Library.Path, chain.1]
  | cons cluster front ih =>
    obtain ⟨rfl, data, chain⟩ := chain
    have next : fatNextCluster vol drive start = .ok (wrappedEntry vol drive start) :=
      formatted.fatNextCluster_wrapped wide data.inTable
    have later : vol.IsData (fatEntry vol drive start.toNat) := by
      cases front with
      | nil => exact chain.1 ▸ chain.2.1
      | cons second front => exact chain.1 ▸ chain.2.1
    rw [List.forall_mem_cons, reached_iff_eq formatted later, ← ih chain]
    constructor
    · rintro ⟨_, _, after, leads, path⟩
      obtain rfl := Except.ok.inj (next.symm.trans leads)
      have same : wrappedEntry vol drive start = fatEntry vol drive start.toNat := by
        cases front with
        | nil => exact path.trans chain.1.symm
        | cons second front => exact path.1.trans chain.1.symm
      exact ⟨same, same ▸ path⟩
    · rintro ⟨same, path⟩
      exact ⟨rfl, formatted.inChain_data data, _, next.trans (congrArg _ same), path⟩

/-- The loops go along a whole chain and stop at its end mark exactly when its entries are
reached. -/
theorem path_chain_iff (formatted : Formatted vol) (wide : fatIdentify vol = .fat32)
    (chain : ClusterChain vol drive start links) (nonempty : links ≠ []) :
    (∃ stop, Path inChain (fatNextCluster vol drive) start links stop ∧ inChain stop = false) ↔
      ∀ cluster ∈ links, Reached vol drive cluster := by
  obtain ⟨front, last, rfl⟩ := (List.eq_nil_or_concat' links).resolve_left nonempty
  obtain ⟨data, mark⟩ := chain.last
  rw [wide] at mark
  have ends := inChain_endMark mark
  have next : fatNextCluster vol drive last = .ok (wrappedEntry vol drive last) :=
    formatted.fatNextCluster_wrapped wide data.inTable
  simp only [List.mem_append, List.mem_singleton, or_imp, forall_and, forall_eq,
    ← path_front_iff formatted wide chain]
  constructor
  · rintro ⟨stop, whole, stops⟩
    obtain ⟨middle, path, rfl, _, after, leads, rfl⟩ := Path.append_iff.mp whole
    obtain rfl := Except.ok.inj (next.symm.trans leads)
    exact ⟨path, .inr ⟨stops, ends⟩⟩
  · rintro ⟨path, reached⟩
    refine ⟨wrappedEntry vol drive last, Path.append_iff.mpr ⟨last, path, rfl,
      formatted.inChain_data data, _, next, rfl⟩, ?_⟩
    rcases reached with same | ⟨stops, _⟩
    · rw [same, ends]
    · exact stops

/-- Entries of 12 or 16 bits never stop the loops. -/
theorem narrow_next (known : fatIdentify vol ≠ .unknown) (narrow : fatIdentify vol ≠ .fat32)
    (next : fatNextCluster vol drive cluster = .ok here) : inChain here = true := by
  have small : ∀ word : BitVec 16, inChain (word.setWidth 32) = true := by
    intro word
    have below := word.isLt
    rw [inChain, decide_eq_true_eq, BitVec.lt_def, BitVec.toNat_setWidth_of_le (by decide),
      show (0x0FFFFFF8 : BitVec 32).toNat = 0x0FFFFFF8 from rfl]
    omega
  rw [fatNextCluster] at next
  cases type : fatIdentify vol with
  | unknown => exact absurd type known
  | fat32 => exact absurd type narrow
  | fat12 =>
    rw [type] at next
    obtain ⟨word, _, same⟩ := except_bind_ok.mp next
    exact Except.ok.inj same ▸ small word
  | fat16 =>
    rw [type] at next
    obtain ⟨word, _, same⟩ := except_bind_ok.mp next
    exact Except.ok.inj same ▸ small word

end Chains

/-! ## Visits -/

section Visits

variable {vol : FATVolume} {drive : Drive} {width fuel : Nat} {name ext : Nat → BitVec 8}
  {parent : Option FATDirectory} {block data : Nat → BitVec 8} {here : BitVec 32}
  {front behind directory entered file : List (BitVec 32)} {location : FATFileLocation}

/-- A file is found at the end of a path through clusters without it. -/
theorem fatLocateInDir_found (accepted : refused parent = false)
    (returned : fatLocateInDir fuel name ext vol drive parent = .ok (entered, location))
    (found : location.found = true) :
    ∃ front here, entered = front ++ [here] ∧
      Path inChain (fatNextCluster vol drive) (directoryCluster vol parent) front here ∧
      inChain here = true ∧ locateInCluster name ext vol drive here = some location ∧
      ∀ cluster ∈ front, locateInCluster name ext vol drive cluster = none := by
  rw [fatLocateInDir, accepted] at returned
  obtain ⟨⟨visited, result⟩, scanned, same⟩ := except_bind_ok.mp returned
  obtain ⟨rfl, result_eq⟩ := Prod.mk.inj (Except.ok.inj same)
  cases result with
  | none =>
    obtain rfl : FATFileLocation.zero = location := result_eq
    cases found
  | some result =>
    obtain rfl : result = location := result_eq
    obtain ⟨front, here, rfl, path, goes, there, nothing⟩ := scanChain_some scanned
    exact ⟨front, here, rfl, path, goes, there, nothing⟩

/-- What is at the end of a path through clusters without it is found. -/
theorem fatLocateInDir_of_path (accepted : refused parent = false)
    (path : Path inChain (fatNextCluster vol drive) (directoryCluster vol parent) front here)
    (goes : inChain here = true) (there : locateInCluster name ext vol drive here = some location)
    (nothing : ∀ cluster ∈ front, locateInCluster name ext vol drive cluster = none)
    (enough : front.length < fuel) :
    fatLocateInDir fuel name ext vol drive parent = .ok (front ++ [here], location) := by
  rw [fatLocateInDir, accepted]
  exact except_bind_ok.mpr ⟨_, scanChain_of_path path goes there nothing enough, rfl⟩

/-- A search that returned returns the same with more rounds. -/
theorem fatLocateInDir_mono {more : Nat} (enough : fuel ≤ more)
    (returned : fatLocateInDir fuel name ext vol drive parent = .ok (entered, location)) :
    fatLocateInDir more name ext vol drive parent = .ok (entered, location) := by
  rw [fatLocateInDir] at returned ⊢
  by_cases refuses : refused parent = true
  · rw [if_pos refuses] at returned ⊢
    exact returned
  · rw [if_neg refuses] at returned ⊢
    obtain ⟨⟨visited, result⟩, scanned, same⟩ := except_bind_ok.mp returned
    exact except_bind_ok.mpr ⟨_, scanChain_mono enough scanned, same⟩

/-- Nothing is found in a parent that is no directory. -/
theorem accepted_of_found
    (returned : fatLocateInDir fuel name ext vol drive parent = .ok (entered, location))
    (found : location.found = true) : refused parent = false := by
  by_contra refuses
  rw [fatLocateInDir, if_pos (Bool.not_eq_false _ ▸ refuses)] at returned
  obtain rfl := (Prod.mk.inj (Except.ok.inj returned)).2
  cases found

/-- `FatRead` returned a block: it found the file, and collected the clusters of a whole path. -/
theorem fatRead_some (accepted : refused parent = false)
    (returned : fatRead width fuel name ext vol drive parent block =
      .ok ((entered, file), some data)) :
    ∃ location cleared stop, fatLocateInDir fuel name ext vol drive parent =
        .ok (entered, location) ∧
      location.found = true ∧ memset block 0 (toLong width (location.dir.size + 1)) = .ok cleared ∧
      Path inChain (fatNextCluster vol drive) location.dir.firstCluster file stop ∧
      inChain stop = false ∧
      data = (file.foldl (readCluster vol drive) ⟨cleared, 0, location.dir.size.toNat⟩).data := by
  rw [fatRead, accepted] at returned
  obtain ⟨⟨searched, location⟩, located, rest⟩ := except_bind_ok.mp returned
  dsimp only at rest
  cases found : location.found with
  | false =>
    rw [found] at rest
    cases rest
  | true =>
    rw [found] at rest
    obtain ⟨cleared, set, rest⟩ := except_bind_ok.mp rest
    obtain ⟨⟨visited, last⟩, folded, same⟩ := except_bind_ok.mp rest
    obtain ⟨entries, block_eq⟩ := Prod.mk.inj (Except.ok.inj same)
    obtain ⟨rfl, rfl⟩ := Prod.mk.inj entries
    obtain rfl := Option.some.inj block_eq
    obtain ⟨⟨stop, path, stops⟩, rfl⟩ := foldChain_ok folded
    exact ⟨location, cleared, stop, located, found, set, path, stops, rfl⟩

/-- `FatRead` of a file that is found collects the clusters of a whole path. -/
theorem fatRead_of_path {cleared : Nat → BitVec 8} {stop : BitVec 32}
    (accepted : refused parent = false)
    (located : fatLocateInDir fuel name ext vol drive parent = .ok (entered, location))
    (found : location.found = true)
    (set : memset block 0 (toLong width (location.dir.size + 1)) = .ok cleared)
    (path : Path inChain (fatNextCluster vol drive) location.dir.firstCluster file stop)
    (stops : inChain stop = false) (enough : file.length < fuel) :
    fatRead width fuel name ext vol drive parent block = .ok ((entered, file),
      some (file.foldl (readCluster vol drive) ⟨cleared, 0, location.dir.size.toNat⟩).data) := by
  rw [fatRead, accepted]
  refine except_bind_ok.mpr ⟨_, located, ?_⟩
  dsimp only
  rw [found]
  exact except_bind_ok.mpr ⟨_, set, except_bind_ok.mpr
    ⟨_, foldChain_of_path path stops enough, rfl⟩⟩

/-- The loops of narrow entries stop on no chain. -/
theorem wide_of_stop {start stop : BitVec 32} {links : List (BitVec 32)}
    (formatted : Formatted vol) (known : fatIdentify vol ≠ .unknown)
    (chain : ClusterChain vol drive start links) (nonempty : links ≠ [])
    (path : Path inChain (fatNextCluster vol drive) start links stop)
    (stops : inChain stop = false) : fatIdentify vol = .fat32 := by
  by_contra narrow
  cases links with
  | nil => exact nonempty rfl
  | cons cluster rest =>
    have goes := formatted.inChain_data chain.2.1
    rw [← chain.1] at goes
    have never := path.never_stops goes fun _ _ next => narrow_next known narrow next
    rw [stops] at never
    cases never

/-- A read that entered the clusters of a file up to its end mark followed 32-bit entries that its
offsets reach. -/
theorem fatRead_reached (formatted : Formatted vol) (known : fatIdentify vol ≠ .unknown)
    (accepted : refused parent = false)
    (chain : ClusterChain vol drive (directoryCluster vol parent) (front ++ here :: behind))
    (there : locateInCluster name ext vol drive here = some location)
    (fileChain : ClusterChain vol drive location.dir.firstCluster file) (someFile : file ≠ [])
    (returned : fatRead width fuel name ext vol drive parent block =
      .ok ((front ++ [here], file), some data)) :
    fatIdentify vol = .fat32 ∧ (∀ cluster ∈ front, Reached vol drive cluster) ∧
      (∀ cluster ∈ file, Reached vol drive cluster) ∧
      toLong width (location.dir.size + 1) ≤ 0x7FFFFFFF := by
  obtain ⟨location', cleared, stop, located, found', set, path, stops, rfl⟩ :=
    fatRead_some accepted returned
  obtain ⟨front', here', same, searched, _, there', _⟩ :=
    fatLocateInDir_found accepted located found'
  obtain ⟨rfl, ends⟩ := List.append_inj' same rfl
  obtain rfl := List.singleton_inj.mp ends
  obtain rfl := Option.some.inj (there.symm.trans there')
  have wide := wide_of_stop formatted known fileChain someFile path stops
  refine ⟨wide, (path_front_iff formatted wide chain).mp searched,
    (path_chain_iff formatted wide fileChain someFile).mp ⟨stop, path, stops⟩, ?_⟩
  by_contra long
  rw [memset, if_neg long] at set
  cases set

end Visits

/-! ## Samples -/

/-- The bytes of a directory entry of the file `A` of one byte in cluster 3, from an offset on. -/
def sampleEntry (offset : Nat) : List (Nat × BitVec 8) :=
  [(offset, 0x41), (offset + 1, 0x20), (offset + 2, 0x20), (offset + 3, 0x20), (offset + 4, 0x20),
    (offset + 5, 0x20), (offset + 6, 0x20), (offset + 7, 0x20), (offset + 8, 0x20),
    (offset + 9, 0x20), (offset + 10, 0x20), (offset + 11, 0x20), (offset + 26, 3),
    (offset + 28, 1)]

/-- A drive that is zero but for some bytes. -/
def driveOf (bytes : List (Nat × BitVec 8)) : Drive := fun position =>
  (bytes.lookup position).getD 0

/-- The name `A`. -/
def sampleName (index : Nat) : BitVec 8 := if index = 0 then 0x41 else 0x20

/-- The empty extension. -/
def sampleExt (_ : Nat) : BitVec 8 := 0x20

/-- The location of the file in a directory of one cluster. -/
def sampleLocation (vol : FATVolume) (drive : Drive) : FATFileLocation :=
  (locateInCluster sampleName sampleExt vol drive 2).getD .zero

/-- The file of a sample is found where it is. -/
theorem sampleLocation_eq {vol : FATVolume} {drive : Drive}
    (found : (locateInCluster sampleName sampleExt vol drive 2).isSome = true) :
    locateInCluster sampleName sampleExt vol drive 2 = some (sampleLocation vol drive) :=
  (Option.some_get found).symm.trans (congrArg some (Option.get_eq_getD _))

/-- The small volume with the file in its root. -/
def sampleDrive : Drive := driveOf
  ([(520, 0xF8), (521, 0xFF), (522, 0xFF), (523, 0x0F), (524, 0xF8), (525, 0xFF), (526, 0xFF),
    (527, 0x0F)] ++ sampleEntry 1536)

/-- The volume with 16-bit entries and the file in a directory. -/
def narrowDrive : Drive := driveOf
  ([(516, 0xF8), (517, 0xFF), (518, 0xF8), (519, 0xFF)] ++ sampleEntry 37376)

/-- The directory in cluster 2. -/
def narrowParent (index : Nat) : BitVec 8 :=
  if index = 11 then 0x10 else if index = 26 then 2 else 0

end Unarddeg.Fat
