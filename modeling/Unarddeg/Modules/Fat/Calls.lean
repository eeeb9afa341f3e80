import Unarddeg.Library.StoreProgram
import Unarddeg.Modules.Fat.RoundTrip

/-!
# The calls of the drive node

The functions of `modules/fat/main.c` once more, as programs that call `ReadFrom` and `WriteTo`
for each sector that the source reads or writes. Run on the bytes of the drive they are the
functions that were given the drive as a whole (`fatWrite_onBytes`, `fatRead_onBytes`), so what is
known of those holds of the calls. A buffer has the bytes of one sector; what the functions that
were given the drive see behind it they do not use.
-/

namespace Unarddeg.Fat

open Library

/-- A function that calls the drive node. -/
abbrev Calls (α : Type) : Type := StoreProgram Stop α

namespace Calls

/-- `ReadFrom` of a sector. -/
def readSector (vol : FATVolume) (sector : BitVec 32) : Calls (Nat → BitVec 8) :=
  StoreProgram.readFrom (fatSectorToOffset vol sector) vol.bytes.toNat

/-- `WriteTo` of a sector. -/
def writeSector (vol : FATVolume) (sector : BitVec 32) (source : Nat → BitVec 8) : Calls Unit :=
  StoreProgram.writeTo (fatSectorToOffset vol sector) vol.bytes.toNat source

/-- `FatNextCluster32`. -/
def fatNextCluster32 (vol : FATVolume) (cluster : BitVec 32) : Calls (BitVec 32) := do
  let fatOffset := cluster * 4
  let fatSector := fatFirstFat vol + fatOffset / vol.bytes
  let entOffset := fatOffset % vol.bytes
  let sector ← readSector vol fatSector
  let entry ← StoreProgram.ofExcept (sectorWord vol 32 sector entOffset)
  pure (entry &&& 0x0FFFFFFF)

/-- `FatNextCluster16`. -/
def fatNextCluster16 (vol : FATVolume) (cluster : BitVec 16) : Calls (BitVec 16) := do
  let fatOffset := cluster.setWidth 32 * 2
  let fatSector := fatFirstFat vol + fatOffset / vol.bytes
  let entOffset := fatOffset % vol.bytes
  let sector ← readSector vol fatSector
  StoreProgram.ofExcept (sectorWord vol 16 sector entOffset)

/-- `FatNextCluster12`. -/
def fatNextCluster12 (vol : FATVolume) (cluster : BitVec 16) : Calls (BitVec 16) := do
  let fatOffset := cluster.setWidth 32 + cluster.setWidth 32 / 2
  let fatSector := fatFirstFat vol + fatOffset / vol.bytes
  let entOffset := fatOffset % vol.bytes
  let sector ← readSector vol fatSector
  let entry ← StoreProgram.ofExcept (sectorWord vol 32 sector entOffset)
  pure ((if cluster &&& 1 ≠ 0 then entry >>> 4 else entry &&& 0x0FFF).setWidth 16)

/-- `FatNextCluster`. -/
def fatNextCluster (vol : FATVolume) (cluster : BitVec 32) : Calls (BitVec 32) :=
  match fatIdentify vol with
  | .unknown => pure 0xFFFFFFFF
  | .fat12 => return (← fatNextCluster12 vol (cluster.setWidth 16)).setWidth 32
  | .fat16 => return (← fatNextCluster16 vol (cluster.setWidth 16)).setWidth 32
  | .fat32 => fatNextCluster32 vol cluster

/-- The sectors of a cluster of a directory, each read before its entries are looked at, until one
gives something. -/
def firstEntry {α : Type} (vol : FATVolume) (cluster : BitVec 32)
    (decide : (offset index : Nat) → FATDirectory → Option α) :
    (sectors : List Nat) → Calls (Option α)
  | [] => pure none
  | offset :: rest => do
    let sector ← readSector vol (fatFirstSectorForCluster vol cluster + .ofNat 32 offset)
    match (List.range (vol.bytes.toNat / 32)).findSome? fun index =>
        decide offset index (sectorEntry sector index) with
    | some result => pure (some result)
    | none => firstEntry vol cluster decide rest

/-- The loop through the clusters of a directory, with those it entered. -/
def scanChain {α : Type} (vol : FATVolume) (find : BitVec 32 → Calls (Option α)) :
    (fuel : Nat) → BitVec 32 → Calls (List (BitVec 32) × Option α)
  | 0, _ => .stop .hang
  | fuel + 1, cluster =>
    if inChain cluster then do
      match ← find cluster with
      | some result => pure ([cluster], some result)
      | none => do
        let (entered, result) ← scanChain vol find fuel (← fatNextCluster vol cluster)
        pure (cluster :: entered, result)
    else pure ([], none)

/-- What `FatLocateInDir` returns for an entry; `Result.Dir` is a copy of its 32 bytes. -/
def located (name ext : Nat → BitVec 8) (cluster : BitVec 32) (offset index : Nat)
    (entry : FATDirectory) : Option FATFileLocation :=
  (examine name ext entry).map fun found =>
    if found then ⟨clip 32 entry, cluster, .ofNat 32 offset, .ofNat 32 index, true⟩ else .zero

/-- `FatLocateInDir`. -/
def fatLocateInDir (fuel : Nat) (name ext : Nat → BitVec 8) (vol : FATVolume)
    (parent : Option FATDirectory) : Calls (List (BitVec 32) × FATFileLocation) :=
  if refused parent then pure ([], .zero)
  else do
    let (entered, found) ← scanChain vol (fun cluster =>
      firstEntry vol cluster (located name ext cluster) (List.range vol.perCluster.toNat)) fuel
      (directoryCluster vol parent)
    pure (entered, found.getD .zero)

/-- A round of the inner loop of `FatRead`. -/
def readSectorOf (vol : FATVolume) (cluster : BitVec 32) (state : ReadState) (off : Nat) :
    Calls ReadState :=
  if state.remaining > 0 then do
    let sector ← readSector vol (fatFirstSectorForCluster vol cluster + .ofNat 32 off)
    let chunk := min state.remaining vol.bytes.toNat
    pure ⟨overwrite state.data state.p chunk sector, state.p + chunk, state.remaining - chunk⟩
  else pure state

/-- The outer loop of `FatRead`, with the clusters it entered. -/
def readClusters (vol : FATVolume) :
    (fuel : Nat) → BitVec 32 → ReadState → Calls (List (BitVec 32) × ReadState)
  | 0, _, _ => .stop .hang
  | fuel + 1, cluster, state =>
    if inChain cluster then do
      let state ← (List.range vol.perCluster.toNat).foldlM (readSectorOf vol cluster) state
      let (entered, last) ← readClusters vol fuel (← fatNextCluster vol cluster) state
      pure (cluster :: entered, last)
    else pure ([], state)

/-- `FatRead` into a block, on a target with a `long` of some width. -/
def fatRead (width fuel : Nat) (name ext : Nat → BitVec 8) (vol : FATVolume)
    (parent : Option FATDirectory) (block : Nat → BitVec 8) :
    Calls ((List (BitVec 32) × List (BitVec 32)) × Option (Nat → BitVec 8)) :=
  if refused parent then pure (([], []), none)
  else do
    let (searched, location) ← fatLocateInDir fuel name ext vol parent
    if location.found then
      let data ← StoreProgram.ofExcept (memset block 0 (toLong width (location.dir.size + 1)))
      let (entered, last) ← readClusters vol fuel location.dir.firstCluster
        ⟨data, 0, location.dir.size.toNat⟩
      pure ((searched, entered), some last.data)
    else pure ((searched, []), none)

/-- The loop of `FatFindFreeCluster`. -/
def freeClusterFrom (vol : FATVolume) : (rounds : Nat) → BitVec 32 → Calls (BitVec 32)
  | 0, _ => pure 0
  | rounds + 1, i => do
    let entry ← fatNextCluster32 vol i
    if entry = 0 then pure i else freeClusterFrom vol rounds (i + 1)

/-- `FatFindFreeCluster`. -/
def fatFindFreeCluster (vol : FATVolume) : Calls (BitVec 32) :=
  freeClusterFrom vol ((fatClusterCount vol + 2).toNat - 2) 2

/-- `FatSetCluster`. -/
def fatSetCluster (vol : FATVolume) (cluster value : BitVec 32) : Calls Unit := do
  let fatOffset := cluster * 4
  let fatSector := fatFirstFat vol + fatOffset / vol.bytes
  let entOffset := fatOffset % vol.bytes
  let sector ← readSector vol fatSector
  let entry ← StoreProgram.ofExcept (sectorWord vol 32 sector entOffset)
  let entry := (entry &&& 0xF0000000) ||| (value &&& 0x0FFFFFFF)
  let sector := overwrite sector entOffset.toNat 4 (byteAt entry)
  writeSector vol fatSector sector
  writeSector vol (fatSector + fatSize vol) sector

/-- `FatAllocateCluster`. -/
def fatAllocateCluster (vol : FATVolume) : Calls (BitVec 32) := do
  let freeCluster ← fatFindFreeCluster vol
  if freeCluster = 0 then pure 0
  else do
    fatSetCluster vol freeCluster 0x0FFFFFF8
    pure freeCluster

/-- The variables of the inner loop of `FatWriteData`: `ptr`, `remaining` and `writeSize`. -/
structure Progress where
  /-- `ptr`, in the data. -/
  ptr : Nat
  /-- `remaining`. -/
  remaining : Nat
  /-- `writeSize`. -/
  writeSize : Nat

/-- A round of the inner loop of `FatWriteData`. -/
def writeSectorOf (vol : FATVolume) (data : Nat → BitVec 8) (cluster : BitVec 32)
    (state : Progress) (i : Nat) : Calls Progress :=
  if state.writeSize > 0 then do
    let sectorSize := min state.writeSize vol.bytes.toNat
    writeSector vol (fatFirstSectorForCluster vol cluster + .ofNat 32 i) (slice data state.ptr)
    pure ⟨state.ptr + sectorSize, state.remaining - sectorSize, state.writeSize - sectorSize⟩
  else pure state

/-- The cluster in front, if there is one, is linked to a cluster. -/
def linkTo (vol : FATVolume) (prevCluster cluster : BitVec 32) : Calls Unit :=
  if prevCluster ≠ 0 then fatSetCluster vol prevCluster cluster else pure ()

/-- The outer loop of `FatWriteData`. -/
def writeClusters (vol : FATVolume) (data : Nat → BitVec 8) :
    (fuel : Nat) → (firstCluster prevCluster : BitVec 32) → (ptr remaining : Nat) →
      Calls (BitVec 32)
  | 0, _, _, _, _ => .stop .hang
  | fuel + 1, firstCluster, prevCluster, ptr, remaining =>
    if remaining = 0 then pure firstCluster
    else do
      let cluster ← fatAllocateCluster vol
      if cluster = 0 then pure 0
      else do
        linkTo vol prevCluster cluster
        let last ← (List.range vol.perCluster.toNat).foldlM (writeSectorOf vol data cluster)
          ⟨ptr, remaining, min remaining (vol.perCluster.toNat * vol.bytes.toNat)⟩
        writeClusters vol data fuel (if firstCluster = 0 then cluster else firstCluster) cluster
          last.ptr last.remaining

/-- `FatWriteData`. -/
def fatWriteData (vol : FATVolume) (fuel : Nat) (data : Nat → BitVec 8) (size : BitVec 32) :
    Calls (BitVec 32) :=
  writeClusters vol data fuel 0 0 0 size.toNat

/-- `FatFindFreeEntry`. -/
def fatFindFreeEntry (vol : FATVolume) (fuel : Nat) (dirCluster : BitVec 32) :
    Calls (BitVec 32) := do
  let (_, found) ← scanChain vol (fun cluster =>
    firstEntry vol cluster (fun s index entry =>
      if isFree entry then some (packLocation cluster s index) else none)
      (List.range vol.perCluster.toNat)) fuel dirCluster
  pure (found.getD 0)

/-- `FatWriteDirectoryEntry`. -/
def fatWriteDirectoryEntry (vol : FATVolume) (location : BitVec 32) (entry : FATDirectory) :
    Calls Unit := do
  let cluster := location >>> 16
  let s := (location >>> 8) &&& 0xFF
  let index := (location &&& 0xFF).toNat
  let sector := fatFirstSectorForCluster vol cluster + s
  let bytes ← readSector vol sector
  if 32 * index + 32 ≤ vol.bytes.toNat then
    writeSector vol sector (overwrite bytes (32 * index) 32 entry)
  else .stop .outOfBounds

/-- `FatWrite`. -/
def fatWrite (fuel : Nat) (path : List (BitVec 8)) (data : Nat → BitVec 8) (size : BitVec 32)
    (vol : FATVolume) (parent : Option FATDirectory) : Calls Int := do
  let parentCluster := directoryCluster vol parent
  let firstCluster ← fatWriteData vol fuel data size
  if firstCluster = 0 then pure (-1)
  else do
    let entry := fatCreateEntry path firstCluster size fatArchive
    let location ← fatFindFreeEntry vol fuel parentCluster
    if location = 0 then pure (-2)
    else do
      fatWriteDirectoryEntry vol location entry
      pure 0

/-! ## Sectors -/

section Sectors

variable {α β : Type} {vol : FATVolume} {drive : Drive} {sector other : Nat → BitVec 8}
  {cluster : BitVec 32} {program : Calls α} {read : Drive → Except Stop α}
  {next : α → Calls β} {rest : α → Drive → Except Stop β}

/-- A function that was given the drive returns or stops, and changes nothing. -/
theorem reading_apply (read : Drive → Except Stop α) (drive : Drive) :
    reading read drive = match read drive with
      | .ok value => .ok value drive
      | .error reason => .error reason drive := by
  show (ofExcept (read drive) : Kernel Drive α) drive = _
  cases read drive <;> rfl

/-- A function that was given the drive, at once. -/
theorem onBytes_ofExcept (result : Except Stop α) :
    (StoreProgram.ofExcept result : Calls α).onBytes = reading fun _ => result := by
  funext drive
  rw [StoreProgram.onBytes_ofExcept, reading_apply]
  cases result <;> rfl

/-- Calls of two functions one after the other. -/
theorem onBytes_bind_reading (first : program.onBytes = reading read)
    (second : ∀ value, (next value).onBytes = reading (rest value)) :
    (program >>= next).onBytes = reading fun drive => read drive >>= fun value =>
      rest value drive := by
  funext drive
  have head := congrFun first drive
  rw [reading_apply] at head
  rw [StoreProgram.onBytes_bind, reading_apply]
  cases found : read drive with
  | ok value =>
    rw [found] at head
    rw [bind_of_ok head, second, reading_apply]
    rfl
  | error reason =>
    rw [found] at head
    rw [bind_of_error head]
    rfl

/-- A sector that is read is that of the drive. -/
theorem onBytes_bind_readSector {number : BitVec 32} {next : (Nat → BitVec 8) → Calls β} :
    (readSector vol number >>= next).onBytes drive =
      (next (clip vol.bytes.toNat (Fat.readSector vol drive number))).onBytes drive :=
  StoreProgram.onBytes_bind_of_ok rfl

/-- A word of a sector lies in it. -/
theorem sectorWord_clip {width : Nat} {offset : BitVec 32} (whole : 8 ∣ width) :
    sectorWord vol width (clip vol.bytes.toNat sector) offset =
      sectorWord vol width sector offset := by
  unfold sectorWord
  split_ifs with inside
  · congr 1
    apply little_congr
    intro index small
    exact clip_inside (by omega)
  · rfl

/-- An entry of a sector lies in it. -/
theorem sectorEntry_clip {index place : Nat} (inside : index < vol.bytes.toNat / 32)
    (small : place < 32) : sectorEntry (clip vol.bytes.toNat sector) index place =
      sectorEntry sector index place := clip_inside (by omega)

/-- A sector that is written is that of the drive, and its bytes matter only. -/
theorem writeSector_congr {number : BitVec 32}
    (same : ∀ index < vol.bytes.toNat, sector index = other index) :
    Fat.writeSector vol drive number sector = Fat.writeSector vol drive number other :=
  overwrite_congr same

end Sectors

/-! ## Tables -/

section Tables

variable {vol : FATVolume}

/-- `FatNextCluster32` reads the sector of the drive. -/
theorem fatNextCluster32_onBytes (cluster : BitVec 32) :
    (fatNextCluster32 vol cluster).onBytes =
      reading fun drive => Fat.fatNextCluster32 vol drive cluster := by
  funext drive
  rw [fatNextCluster32, onBytes_bind_readSector, sectorWord_clip (by decide)]
  exact congrFun (onBytes_bind_reading (onBytes_ofExcept _) fun _ => onBytes_ofExcept (.ok _)) drive

/-- `FatNextCluster16` reads the sector of the drive. -/
theorem fatNextCluster16_onBytes (cluster : BitVec 16) :
    (fatNextCluster16 vol cluster).onBytes =
      reading fun drive => Fat.fatNextCluster16 vol drive cluster := by
  funext drive
  rw [fatNextCluster16, onBytes_bind_readSector, sectorWord_clip (by decide)]
  exact congrFun (onBytes_ofExcept _) drive

/-- `FatNextCluster12` reads the sector of the drive. -/
theorem fatNextCluster12_onBytes (cluster : BitVec 16) :
    (fatNextCluster12 vol cluster).onBytes =
      reading fun drive => Fat.fatNextCluster12 vol drive cluster := by
  funext drive
  rw [fatNextCluster12, onBytes_bind_readSector, sectorWord_clip (by decide)]
  exact congrFun (onBytes_bind_reading (onBytes_ofExcept _) fun _ => onBytes_ofExcept (.ok _)) drive

/-- `FatNextCluster` reads the sector of the drive. -/
theorem fatNextCluster_onBytes (cluster : BitVec 32) :
    (fatNextCluster vol cluster).onBytes =
      reading fun drive => Fat.fatNextCluster vol drive cluster := by
  unfold fatNextCluster Fat.fatNextCluster
  cases fatIdentify vol with
  | unknown => exact onBytes_ofExcept (.ok _)
  | fat12 =>
    exact onBytes_bind_reading (fatNextCluster12_onBytes _) fun _ => onBytes_ofExcept (.ok _)
  | fat16 =>
    exact onBytes_bind_reading (fatNextCluster16_onBytes _) fun _ => onBytes_ofExcept (.ok _)
  | fat32 => exact fatNextCluster32_onBytes cluster

/-- The loop of `FatFindFreeCluster` reads the sectors of the drive. -/
theorem freeClusterFrom_onBytes (rounds : Nat) (i : BitVec 32) :
    (freeClusterFrom vol rounds i).onBytes =
      reading fun drive => Fat.freeClusterFrom vol drive rounds i := by
  induction rounds generalizing i with
  | zero => exact onBytes_ofExcept (.ok _)
  | succ rounds ih =>
    unfold freeClusterFrom Fat.freeClusterFrom
    apply onBytes_bind_reading (fatNextCluster32_onBytes i)
    intro entry
    split_ifs with free
    · exact onBytes_ofExcept (.ok _)
    · exact ih (i + 1)

/-- `FatFindFreeCluster` reads the sectors of the drive. -/
theorem fatFindFreeCluster_onBytes :
    (fatFindFreeCluster vol).onBytes = reading (Fat.fatFindFreeCluster vol) :=
  freeClusterFrom_onBytes _ _

/-- `FatSetCluster` writes the sectors of the drive. -/
theorem fatSetCluster_onBytes (cluster value : BitVec 32) :
    (fatSetCluster vol cluster value).onBytes = setCluster vol cluster value := by
  funext drive
  have pure : setCluster vol cluster value drive =
      match Fat.fatSetCluster vol drive cluster value with
      | .ok after => .ok () after
      | .error reason => .error reason drive := by
    show ((Unarddeg.ofExcept (Fat.fatSetCluster vol drive cluster value) : Kernel Drive Drive) >>=
      set) drive = _
    cases Fat.fatSetCluster vol drive cluster value <;> rfl
  rw [pure, fatSetCluster, onBytes_bind_readSector, sectorWord_clip (by decide),
    Fat.fatSetCluster]
  cases word : sectorWord vol 32 (Fat.readSector vol drive
      (fatFirstFat vol + cluster * 4 / vol.bytes)) (cluster * 4 % vol.bytes) with
  | error reason => rfl
  | ok entry =>
    have same : ∀ index < vol.bytes.toNat,
        overwrite (clip vol.bytes.toNat (Fat.readSector vol drive
          (fatFirstFat vol + cluster * 4 / vol.bytes))) (cluster * 4 % vol.bytes).toNat 4
          (byteAt ((entry &&& 0xF0000000) ||| (value &&& 0x0FFFFFFF))) index =
        overwrite (Fat.readSector vol drive
          (fatFirstFat vol + cluster * 4 / vol.bytes)) (cluster * 4 % vol.bytes).toNat 4
          (byteAt ((entry &&& 0xF0000000) ||| (value &&& 0x0FFFFFFF))) index := by
      intro index small
      unfold overwrite
      split_ifs
      · rfl
      · exact clip_inside small
    show EStateM.Result.ok () (Fat.writeSector vol (Fat.writeSector vol drive _ _) _ _) = _
    rw [writeSector_congr same, writeSector_congr same]
    rfl

/-- `FatAllocateCluster` writes the sectors of the drive. -/
theorem fatAllocateCluster_onBytes :
    (fatAllocateCluster vol).onBytes = Fat.fatAllocateCluster vol := by
  unfold fatAllocateCluster Fat.fatAllocateCluster
  rw [StoreProgram.onBytes_bind, fatFindFreeCluster_onBytes]
  congr 1
  funext cluster
  split_ifs with none
  · rfl
  · rw [StoreProgram.onBytes_bind, fatSetCluster_onBytes]
    rfl

end Tables

/-! ## Directories -/

section Directories

variable {α : Type} {vol : FATVolume} {name ext : Nat → BitVec 8} {fuel : Nat}
  {parent : Option FATDirectory}

/-- Searches that agree on the items find the same. -/
theorem findSome?_agree {β : Type} {items : List β} {left right : β → Option α}
    (same : ∀ item ∈ items, left item = right item) :
    items.findSome? left = items.findSome? right := by
  induction items with
  | nil => rfl
  | cons item items ih =>
    rw [List.findSome?_cons, List.findSome?_cons, same item List.mem_cons_self,
      ih fun later member => same later (List.mem_cons_of_mem _ member)]

/-- The sectors of a cluster are those of the drive, if the search only depends on the bytes of
entries. -/
theorem firstEntry_onBytes {decide : Nat → Nat → FATDirectory → Option α}
    (congr : ∀ offset index (left right : FATDirectory),
      (∀ place < 32, left place = right place) →
        decide offset index left = decide offset index right)
    (cluster : BitVec 32) (sectors : List Nat) :
    (firstEntry vol cluster decide sectors).onBytes = reading fun drive =>
      .ok (sectors.findSome? fun offset =>
        (List.range (vol.bytes.toNat / 32)).findSome? fun index =>
          decide offset index (clusterEntry vol drive cluster offset index)) := by
  funext drive
  induction sectors with
  | nil => rfl
  | cons offset rest ih =>
    have same : ((List.range (vol.bytes.toNat / 32)).findSome? fun index =>
          decide offset index (sectorEntry (clip vol.bytes.toNat (Fat.readSector vol drive
            (fatFirstSectorForCluster vol cluster + .ofNat 32 offset))) index)) =
        (List.range (vol.bytes.toNat / 32)).findSome? fun index =>
          decide offset index (clusterEntry vol drive cluster offset index) :=
      findSome?_agree fun index member => congr _ _ _ _ fun place small =>
        sectorEntry_clip (List.mem_range.mp member) small
    rw [reading_apply] at ih ⊢
    rw [firstEntry, onBytes_bind_readSector, same, List.findSome?_cons]
    cases (List.range (vol.bytes.toNat / 32)).findSome? fun index =>
        decide offset index (clusterEntry vol drive cluster offset index) with
    | some result => rfl
    | none => exact ih

/-- The loop through the clusters goes along the chain on the drive. -/
theorem scanChain_onBytes {find : BitVec 32 → Calls (Option α)}
    {found : Drive → BitVec 32 → Option α}
    (same : ∀ cluster, (find cluster).onBytes = reading fun drive => .ok (found drive cluster))
    (cluster : BitVec 32) :
    (scanChain vol find fuel cluster).onBytes = reading fun drive =>
      Library.scanChain inChain (Fat.fatNextCluster vol drive) (found drive) .hang fuel
        cluster := by
  induction fuel generalizing cluster with
  | zero => exact onBytes_ofExcept (.error _)
  | succ fuel ih =>
    funext drive
    unfold scanChain Library.scanChain
    by_cases goes : inChain cluster = true
    · have here := congrFun (same cluster) drive
      rw [reading_apply] at here
      rw [if_pos goes, reading_apply, if_pos goes, StoreProgram.onBytes_bind_of_ok here]
      cases found drive cluster with
      | some result => rfl
      | none =>
        have step := onBytes_bind_reading (@fatNextCluster_onBytes vol cluster) fun next =>
          onBytes_bind_reading (ih next) fun result =>
            onBytes_ofExcept (.ok (cluster :: result.1, result.2))
        exact (congrFun step drive).trans (reading_apply _ drive)
    · rw [if_neg goes, reading_apply, if_neg goes]
      rfl

/-- A location with a copy of the bytes of its entry. -/
def copied (location : FATFileLocation) : FATFileLocation :=
  { location with dir := clip 32 location.dir }

/-- No location is its own copy. -/
theorem copied_zero : copied .zero = .zero := by
  have zero : clip 32 (fun _ => 0) = fun _ => 0 := by
    funext place
    unfold clip overwrite
    split_ifs <;> rfl
  show FATFileLocation.mk (clip 32 fun _ => 0) 0 0 0 false = _
  rw [zero]
  rfl

/-- The search in a cluster finds the copy of the location on the drive. -/
theorem located_onBytes (cluster : BitVec 32) :
    (firstEntry vol cluster (located name ext cluster) (List.range vol.perCluster.toNat)).onBytes =
      reading fun drive => .ok ((locateInCluster name ext vol drive cluster).map copied) := by
  have congr : ∀ offset index (left right : FATDirectory),
      (∀ place < 32, left place = right place) →
        located name ext cluster offset index left =
          located name ext cluster offset index right := by
    intro offset index left right same
    unfold located
    rw [examine_congr same, clip_congr same]
  rw [firstEntry_onBytes congr]
  congr 1
  funext drive
  unfold locateInCluster Fat.firstEntry
  rw [List.map_findSome?]
  congr 2
  funext offset
  rw [Function.comp_apply, List.map_findSome?]
  congr 1
  funext index
  unfold located
  rw [Function.comp_apply, Option.map_map]
  congr 1
  funext found
  cases found with
  | true => rfl
  | false => exact copied_zero.symm

/-- `FatLocateInDir` finds the copy of the location on the drive. -/
theorem fatLocateInDir_onBytes : (fatLocateInDir fuel name ext vol parent).onBytes =
    reading fun drive => (Fat.fatLocateInDir fuel name ext vol drive parent).map fun result =>
      (result.1, copied result.2) := by
  unfold fatLocateInDir Fat.fatLocateInDir
  by_cases refuses : refused parent = true
  · rw [if_pos refuses]
    simp only [if_pos refuses, Except.map, copied_zero]
    exact onBytes_ofExcept (.ok _)
  · have scanned := @scanChain_onBytes FATFileLocation vol fuel _ _ (@located_onBytes vol name ext)
      (directoryCluster vol parent)
    have step := onBytes_bind_reading scanned fun result =>
      onBytes_ofExcept (.ok (result.1, result.2.getD .zero))
    rw [if_neg refuses]
    refine (step : _ = _).trans ?_
    congr 1
    funext drive
    rw [if_neg refuses, scanChain_map]
    cases Library.scanChain inChain (Fat.fatNextCluster vol drive)
        (locateInCluster name ext vol drive) .hang fuel (directoryCluster vol parent) with
    | error reason => rfl
    | ok result =>
      obtain ⟨entered, found⟩ := result
      cases found with
      | none => exact congrArg (fun last => Except.ok (entered, last)) copied_zero.symm
      | some location => rfl

/-- The search for a free entry in a cluster is that on the drive. -/
theorem freeInCluster_onBytes (cluster : BitVec 32) :
    (firstEntry vol cluster (fun s index entry =>
      if isFree entry then some (packLocation cluster s index) else none)
      (List.range vol.perCluster.toNat)).onBytes =
      reading fun drive => .ok (freeInCluster vol drive cluster) := by
  apply firstEntry_onBytes
  intro s index left right same
  have first : left.name 0 = right.name 0 := same 0 (by decide)
  unfold isFree
  rw [first]

/-- `FatFindFreeEntry` finds the free entry on the drive. -/
theorem fatFindFreeEntry_onBytes (dirCluster : BitVec 32) :
    (fatFindFreeEntry vol fuel dirCluster).onBytes =
      reading (Fat.fatFindFreeEntry vol fuel dirCluster) :=
  onBytes_bind_reading (scanChain_onBytes freeInCluster_onBytes dirCluster) fun _ =>
    onBytes_ofExcept (.ok _)

end Directories

/-! ## Files -/

section Files

variable {vol : FATVolume} {name ext : Nat → BitVec 8} {fuel width : Nat}
  {parent : Option FATDirectory} {data : Nat → BitVec 8}

/-- The inner loop of `FatRead` reads the sectors of the drive. -/
theorem readSectors_onBytes (cluster : BitVec 32) (sectors : List Nat) (state : ReadState) :
    (sectors.foldlM (readSectorOf vol cluster) state).onBytes = reading fun drive =>
      .ok (sectors.foldl (Fat.readSectorOf vol drive cluster) state) := by
  induction sectors generalizing state with
  | nil => exact onBytes_ofExcept (.ok _)
  | cons off rest ih =>
    rw [List.foldlM_cons]
    have first : (readSectorOf vol cluster state off).onBytes = reading fun drive =>
        .ok (Fat.readSectorOf vol drive cluster state off) := by
      funext drive
      unfold readSectorOf Fat.readSectorOf
      rw [reading_apply]
      split_ifs with more
      · rw [onBytes_bind_readSector]
        dsimp only
        rw [overwrite_clip (Nat.min_le_right _ _)]
        rfl
      · rfl
    exact onBytes_bind_reading first fun next => ih next

/-- The outer loop of `FatRead` goes along the chain on the drive. -/
theorem readClusters_onBytes (cluster : BitVec 32) (state : ReadState) :
    (readClusters vol fuel cluster state).onBytes = reading fun drive =>
      foldChain inChain (Fat.fatNextCluster vol drive) (readCluster vol drive) .hang fuel cluster
        state := by
  induction fuel generalizing cluster state with
  | zero => exact onBytes_ofExcept (.error _)
  | succ fuel ih =>
    unfold readClusters foldChain
    by_cases goes : inChain cluster = true
    · have step := onBytes_bind_reading (@readSectors_onBytes vol cluster
        (List.range vol.perCluster.toNat) state) fun next =>
          onBytes_bind_reading (@fatNextCluster_onBytes vol cluster) fun link =>
            onBytes_bind_reading (ih link next) fun result =>
              onBytes_ofExcept (.ok (cluster :: result.1, result.2))
      rw [if_pos goes]
      refine (step : _ = _).trans ?_
      congr 1
      funext drive
      rw [if_pos goes]
      rfl
    · rw [if_neg goes]
      refine (onBytes_ofExcept (.ok ([], state)) : _ = _).trans ?_
      congr 1
      funext drive
      rw [if_neg goes]

/-- **Reading over calls.** Run on the bytes of a drive, `FatRead` over the calls of the drive node
is `FatRead` of the drive. -/
theorem fatRead_onBytes (block : Nat → BitVec 8) :
    (fatRead width fuel name ext vol parent block).onBytes = reading fun drive =>
      Fat.fatRead width fuel name ext vol drive parent block := by
  unfold fatRead Fat.fatRead
  by_cases refuses : refused parent = true
  · rw [if_pos refuses]
    simp only [if_pos refuses]
    exact onBytes_ofExcept (.ok _)
  · have load : ∀ searched (location : FATFileLocation),
        (if location.found then do
          let data ← StoreProgram.ofExcept (memset block 0 (toLong width (location.dir.size + 1)))
          let (entered, last) ← readClusters vol fuel location.dir.firstCluster
            ⟨data, 0, location.dir.size.toNat⟩
          pure ((searched, entered), some last.data)
        else pure ((searched, []), none) :
          Calls ((List (BitVec 32) × List (BitVec 32)) × Option (Nat → BitVec 8))).onBytes =
        reading fun drive => if location.found then do
          let data ← memset block 0 (toLong width (location.dir.size + 1))
          let (entered, last) ← foldChain inChain (Fat.fatNextCluster vol drive)
            (readCluster vol drive) .hang fuel location.dir.firstCluster
            ⟨data, 0, location.dir.size.toNat⟩
          pure ((searched, entered), some last.data)
        else pure ((searched, []), none) := by
      intro searched location
      by_cases found : location.found = true
      · simp only [if_pos found]
        exact onBytes_bind_reading (onBytes_ofExcept _) fun data =>
          onBytes_bind_reading (readClusters_onBytes _ _) fun result =>
            onBytes_ofExcept (.ok ((searched, result.1), some result.2.data))
      · simp only [if_neg found]
        exact onBytes_ofExcept (.ok _)
    have step := onBytes_bind_reading (@fatLocateInDir_onBytes vol name ext fuel parent)
      fun result => load result.1 result.2
    rw [if_neg refuses]
    refine (step : _ = _).trans ?_
    congr 1
    funext drive
    rw [if_neg refuses]
    cases Fat.fatLocateInDir fuel name ext vol drive parent with
    | error reason => rfl
    | ok result =>
      obtain ⟨firstCluster, size⟩ := @entry_congr (clip 32 result.2.dir) result.2.dir
        fun place small => clip_inside small
      show (if result.2.found then _ else _) = if result.2.found then _ else _
      simp only [copied, firstCluster, size]

/-- The inner loop of `FatWriteData` writes the sectors of the drive. -/
theorem writeSectors_onBytes (cluster : BitVec 32) (rounds : List Nat) (state : Progress)
    (drive : Drive) :
    (rounds.foldlM (writeSectorOf vol data cluster) state).onBytes drive =
      let last := rounds.foldl (Fat.writeSectorOf vol data cluster)
        ⟨drive, state.ptr, state.remaining, state.writeSize⟩
      .ok ⟨last.ptr, last.remaining, last.writeSize⟩ last.drive := by
  induction rounds generalizing state drive with
  | nil => rfl
  | cons i rest ih =>
    rw [List.foldlM_cons, List.foldl_cons]
    have first : (writeSectorOf vol data cluster state i).onBytes drive =
        let next := Fat.writeSectorOf vol data cluster
          ⟨drive, state.ptr, state.remaining, state.writeSize⟩ i
        .ok ⟨next.ptr, next.remaining, next.writeSize⟩ next.drive := by
      unfold writeSectorOf Fat.writeSectorOf
      split_ifs <;> rfl
    rw [StoreProgram.onBytes_bind_of_ok first]
    exact ih _ _

/-- The link is written to the drive. -/
theorem linkTo_onBytes (prevCluster cluster : BitVec 32) :
    (linkTo vol prevCluster cluster).onBytes =
      onlyIf (prevCluster ≠ 0) (setCluster vol prevCluster cluster) := by
  unfold linkTo onlyIf
  split_ifs
  · exact fatSetCluster_onBytes prevCluster cluster
  · rfl

/-- The outer loop of `FatWriteData` writes the sectors of the drive. -/
theorem writeClusters_onBytes (firstCluster prevCluster : BitVec 32) (ptr remaining : Nat) :
    (writeClusters vol data fuel firstCluster prevCluster ptr remaining).onBytes =
      Fat.writeClusters vol data fuel firstCluster prevCluster ptr remaining := by
  induction fuel generalizing firstCluster prevCluster ptr remaining with
  | zero => rfl
  | succ fuel ih =>
    unfold writeClusters Fat.writeClusters
    by_cases done : remaining = 0
    · rw [if_pos done, if_pos done]
      rfl
    rw [if_neg done, if_neg done, StoreProgram.onBytes_bind, fatAllocateCluster_onBytes]
    congr 1
    funext cluster
    by_cases none : cluster = 0
    · rw [if_pos none, if_pos none]
      rfl
    rw [if_neg none, if_neg none, StoreProgram.onBytes_bind, linkTo_onBytes]
    congr 1
    funext _ drive
    rw [StoreProgram.onBytes_bind_of_ok (writeSectors_onBytes cluster _ _ drive), ih]
    rfl

/-- `FatWriteData` writes the sectors of the drive. -/
theorem fatWriteData_onBytes (size : BitVec 32) :
    (fatWriteData vol fuel data size).onBytes = Fat.fatWriteData vol fuel data size :=
  writeClusters_onBytes 0 0 0 size.toNat

/-- `FatWriteDirectoryEntry` writes the sector of the drive. -/
theorem fatWriteDirectoryEntry_onBytes (location : BitVec 32) (entry : FATDirectory) :
    (fatWriteDirectoryEntry vol location entry).onBytes =
      Fat.fatWriteDirectoryEntry vol location entry := by
  funext drive
  unfold fatWriteDirectoryEntry Fat.fatWriteDirectoryEntry
  rw [onBytes_bind_readSector,
    bind_of_ok (rfl : (get : Kernel Drive Drive) drive = .ok drive drive)]
  split_ifs with inside
  · refine congrArg (EStateM.Result.ok ()) (writeSector_congr fun index small => ?_)
    unfold overwrite
    split_ifs
    · rfl
    · exact clip_inside small
  · rfl

/-- **Writing over calls.** Run on the bytes of a drive, `FatWrite` over the calls of the drive
node is `FatWrite` of the drive. -/
theorem fatWrite_onBytes (path : List (BitVec 8)) (size : BitVec 32) :
    (fatWrite fuel path data size vol parent).onBytes =
      Fat.fatWrite fuel path data size vol parent := by
  unfold fatWrite Fat.fatWrite
  rw [StoreProgram.onBytes_bind, fatWriteData_onBytes]
  congr 1
  funext firstCluster
  split_ifs with full
  · rfl
  rw [StoreProgram.onBytes_bind, fatFindFreeEntry_onBytes]
  congr 1
  funext location
  split_ifs with none
  · rfl
  rw [StoreProgram.onBytes_bind, fatWriteDirectoryEntry_onBytes]
  rfl

end Files

end Calls

end Unarddeg.Fat
