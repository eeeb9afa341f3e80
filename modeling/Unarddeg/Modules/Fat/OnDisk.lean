import Unarddeg.Modules.Fat.Inside
import Unarddeg.Modules.Fat.Room
import Unarddeg.Modules.Ide.Nodes

/-!
# Files on a disk

The functions of `modules/fat/main.c` on the node of a disk that `modules/ide/main.c` drives:
`ReadFrom` and `WriteTo` set `FileOffset` and call `IDEReadFunction` and `IDEWriteFunction`, with
the devices behind their ports. The disk serves the calls inside the volume as its bytes, so what is
known of the files of a volume holds of the disk, however long its device is busy
(`files_on_disk`).
-/

namespace Unarddeg.Fat

open Library

/-! ## Sessions -/

namespace Calls

/-- Calls of `FatWrite` one after the other: their codes. -/
def writeFiles (fuel : Nat) (vol : FATVolume) : List FileRequest → Calls (List Int)
  | [] => pure []
  | request :: requests => do
    let code ← fatWrite fuel request.path request.file.data request.file.size vol request.parent
    let codes ← writeFiles fuel vol requests
    pure (code :: codes)

/-- Calls of `FatWrite`, and one of `FatRead` behind them. -/
def session (width fuel : Nat) (vol : FATVolume) (requests : List FileRequest)
    (parent : Option FATDirectory) (path : List (BitVec 8)) (block : Nat → BitVec 8) :
    Calls (List Int × Option (Nat → BitVec 8)) := do
  let codes ← writeFiles fuel vol requests
  let (_, contents) ←
    fatRead width fuel (fatConvert83 path).1 (fatConvert83 path).2 vol parent block
  pure (codes, contents)

end Calls

/-- What a path holds behind requests that returned codes: the file from before, or else the first
that was written. -/
def heldBehind (vol : FATVolume) (files : FileKey → Option File) (requests : List FileRequest)
    (codes : List Int) (key : FileKey) : Option File :=
  (files key).or ((written vol (List.zipWith FileRequest.returned requests codes)).lookup key)

namespace Calls

section Sessions

variable {vol : FATVolume} {drive : Drive} {chain : BitVec 32 → List (BitVec 32)}
  {starts : List (BitVec 32)} {files : FileKey → Option File} {requests : List FileRequest}
  {parent : Option FATDirectory} {path : List (BitVec 8)} {width : Nat}

/-- What a request wrote comes in front of what the later ones wrote. -/
theorem written_cons (request : FileRequest) (code : Int) (codes : List Int) :
    written vol (List.zipWith FileRequest.returned (request :: requests) (code :: codes)) =
      written vol [request.returned code] ++
        written vol (List.zipWith FileRequest.returned requests codes) := by
  rw [List.zipWith_cons_cons, ← List.singleton_append, written, List.filterMap_append]
  rfl

/-- What a path holds was there before, or is the file of a request. -/
theorem held_cases {codes : List Int} {key : FileKey} {file : File}
    (held : file ∈ heldBehind vol files requests codes key) :
    file ∈ files key ∨ ∃ request ∈ requests, request.file = file := by
  rcases Option.or_eq_some_iff.mp held with here | ⟨_, later⟩
  · exact .inl here
  · obtain ⟨front, behind, split, _⟩ := List.lookup_eq_some_iff.mp later
    have member : (key, file) ∈ written vol
        (List.zipWith FileRequest.returned requests codes) := by
      simp [split]
    obtain ⟨write, there, wrote⟩ := List.mem_filterMap.mp member
    rw [← List.map_uncurry_zip_eq_zipWith] at there
    obtain ⟨⟨request, code⟩, pair, rfl⟩ := List.mem_map.mp there
    refine .inr ⟨request, (List.of_mem_zip pair).1, ?_⟩
    split_ifs at wrote
    exact congrArg Prod.snd (Option.some.inj wrote)

/-- Calls of `FatWrite` to directories return, and insert the files that they wrote. -/
theorem writeFiles_returns (volume : LowVolume vol)
    (directories : Directories vol drive chain starts)
    (stores : Stores vol drive chain starts files)
    (known : ∀ request ∈ requests, directoryCluster vol request.parent ∈ starts) :
    ∃ enough codes after, codes.length = requests.length ∧
      Directories vol after chain starts ∧
      Stores vol after chain starts (insertAll files
        (written vol (List.zipWith FileRequest.returned requests codes))) ∧
      ∀ more, enough < more → (writeFiles more vol requests).onBytes drive = .ok codes after := by
  induction requests generalizing drive files with
  | nil => exact ⟨0, [], drive, rfl, directories, stores, fun _ _ => rfl⟩
  | cons request requests ih =>
    have there := known request List.mem_cons_self
    obtain ⟨middle, writes⟩ := fatWrite_returns volume (directories.chains _ there)
      (directories.near _ there) request.path request.file.data request.file.size
    generalize writeCode vol drive _ _ = code at writes
    have step : WriteStep vol drive (request.returned code) middle :=
      ⟨_, writes (max request.file.size.toNat _ + 1) (by omega)
        (Nat.lt_succ_of_le (le_max_right ..))⟩
    obtain ⟨nextDirectories, nextStores⟩ := stores.step volume directories
      (show (request.returned code).start vol ∈ starts from there) step
    obtain ⟨enough, codes, after, length, lastDirectories, lastStores, rest⟩ :=
      ih nextDirectories nextStores fun later member => known later (List.mem_cons_of_mem _ member)
    refine ⟨max enough (max request.file.size.toNat
      (chain (directoryCluster vol request.parent)).length), code :: codes, after,
      congrArg Nat.succ length, lastDirectories, ?_, fun more large => ?_⟩
    · rw [written_cons, insertAll_append]
      exact lastStores
    · have first : (fatWrite more request.path request.file.data request.file.size vol
          request.parent).onBytes drive = .ok code middle := by
        rw [fatWrite_onBytes]
        exact writes more (by omega) (by omega)
      rw [writeFiles, StoreProgram.onBytes_bind_of_ok first,
        StoreProgram.onBytes_bind_of_ok (rest more (by omega))]
      rfl

/-- Calls of `FatWrite` to directories read and write sectors of the volume. -/
theorem writeFiles_inside (volume : LowVolume vol) {fuel : Nat}
    (directories : Directories vol drive chain starts)
    (stores : Stores vol drive chain starts files)
    (known : ∀ request ∈ requests, directoryCluster vol request.parent ∈ starts) :
    (writeFiles fuel vol requests).Inside vol drive := by
  induction requests generalizing drive files with
  | nil => trivial
  | cons request requests ih =>
    have there := known request List.mem_cons_self
    refine .bind (fatWrite_inside volume (directories.chains _ there) (directories.near _ there))
      fun code middle wrote => ?_
    rw [fatWrite_onBytes] at wrote
    have step : WriteStep vol drive (request.returned code) middle := ⟨fuel, wrote⟩
    obtain ⟨nextDirectories, nextStores⟩ := stores.step volume directories
      (show (request.returned code).start vol ∈ starts from there) step
    exact .bind (ih nextDirectories nextStores fun later member =>
      known later (List.mem_cons_of_mem _ member)) fun _ _ _ => trivial

/-- `FatRead` of what a directory holds reads sectors of the volume. -/
theorem fatRead_inside (volume : LowVolume vol) (accepted : refused parent = false)
    (links : ClusterChain vol drive (directoryCluster vol parent)
      (chain (directoryCluster vol parent))) {expected : Option File}
    (holds : HoldsUnder vol drive chain starts (directoryCluster vol parent) path expected)
    (block : Nat → BitVec 8) : ∃ enough, ∀ more, enough < more →
      (fatRead width more (fatConvert83 path).1 (fatConvert83 path).2 vol parent block).Inside vol
        drive := by
  cases expected with
  | some file =>
    obtain ⟨front, slot, clusters, filed, _⟩ := holds
    exact ⟨_, fun more enough => fatRead_filed_inside volume accepted links filed enough⟩
  | none =>
    have absent : Absent vol drive (chain (directoryCluster vol parent)) (fatConvert83 path).1
        (fatConvert83 path).2 := holds
    exact ⟨_, fun more enough => fatRead_absent_inside volume accepted links absent enough⟩

/-- A session returns on the bytes of the drive, with the file that the path holds, and its calls
are inside the volume. -/
theorem session_returns (volume : LowVolume vol)
    (directories : Directories vol drive chain starts)
    (stores : Stores vol drive chain starts files)
    (known : ∀ request ∈ requests, directoryCluster vol request.parent ∈ starts)
    (accepted : refused parent = false) (there : directoryCluster vol parent ∈ starts)
    (mark : path.head? ≠ some fatUnused)
    (short : ∀ request ∈ requests, toLong width (request.file.size + 1) ≤ 0x7FFFFFFF)
    (before : ∀ file ∈ files (fileKey (directoryCluster vol parent) path),
      toLong width (file.size + 1) ≤ 0x7FFFFFFF)
    (block : Nat → BitVec 8) :
    ∃ enough codes contents after, codes.length = requests.length ∧
      Returns (heldBehind vol files requests codes (fileKey (directoryCluster vol parent) path))
        contents ∧
      ∀ more, enough < more →
        (session width more vol requests parent path block).onBytes drive =
            .ok (codes, contents) after ∧
          (session width more vol requests parent path block).Inside vol drive := by
  obtain ⟨enough, codes, after, length, lastDirectories, lastStores, writes⟩ :=
    writeFiles_returns volume directories stores known
  have links := lastDirectories.chains _ there
  have holds := lastStores _ there path mark
  rw [insertAll_apply] at holds
  obtain ⟨long, visited, contents, same, reads⟩ :=
    holds.read volume accepted links (fun file member => (held_cases member).elim (before file)
      fun ⟨request, inside, same⟩ => same ▸ short request inside) block
  obtain ⟨far, inside⟩ := @fatRead_inside vol after chain starts parent path width volume accepted
    links _ holds block
  refine ⟨max enough (max long far), codes, contents, after, length, same, fun more large => ?_⟩
  have wrote := writes more (by omega)
  have read : (fatRead width more (fatConvert83 path).1 (fatConvert83 path).2 vol parent
      block).onBytes after = .ok (visited, contents) after := by
    rw [fatRead_onBytes, reading_apply, reads more (by omega)]
  constructor
  · rw [session, StoreProgram.onBytes_bind_of_ok wrote, StoreProgram.onBytes_bind_of_ok read]
    rfl
  · refine .bind (writeFiles_inside volume directories stores known) fun other last returned => ?_
    cases wrote.symm.trans returned
    exact .bind (inside more (by omega)) fun _ _ _ => trivial

end Sessions

end Calls

/-! ## The node of a disk -/

open Ide

/-- The node of a disk, as `ReadFrom` and `WriteTo` call it. What the buffer and the stack hold
before a call may depend on its number. -/
def diskNode (width : Nat) (disk : Fin 4) (dest : Nat → Nat → BitVec 8)
    (stale : Nat → Nat → Nat → BitVec 8) (fuel : Nat) : StoreProgram.Device Stop Bus where
  read call offset count := do
    let (_, buffer, _) ← NodeCall.perform fuel
      (.read disk (.ofNat width offset) (.ofNat width count) 1 (dest call) (stale call))
    pure buffer
  write call offset count source := do
    let _ ← NodeCall.perform fuel
      (.write disk (.ofNat width offset) (.ofNat width count) 1 source (stale call))
    pure ()

/-- The devices look like drives with the entries of others; a disk has some bytes, and the other
drives have theirs. -/
def OnDisk (media : Fin 4 → Option Medium) (first : Drives) (disk : Fin 4) (bus : Bus)
    (bytes : Drive) : Prop :=
  ∃ drives, Matches media bus drives ∧ drives.ideDev = first.ideDev ∧
    drives.status = first.status ∧ content drives = Function.update (content first) disk bytes

section Disks

variable {width : Nat} {media : Fin 4 → Option Medium} {first : Drives} {disk : Fin 4}
  {vol : FATVolume} {dest : Nat → Nat → BitVec 8} {stale : Nat → Nat → Nat → BitVec 8}
  {offset count : Nat}

/-- The range of a call inside the volume, in the words of the node. -/
theorem InVolume.toNat (inside : InVolume vol offset count) (wide : 32 ≤ width)
    (short : sectorStart vol (fatTotalSectors vol).toNat < 2 ^ width) :
    (BitVec.ofNat width offset).toNat = offset ∧
      (BitVec.ofNat width count).toNat * (1 : BitVec width).toNat = count ∧
      Fits (BitVec.ofNat width offset) (BitVec.ofNat width count) 1 := by
  have last := inside.2
  have room : 2 ^ 32 ≤ 2 ^ width := Nat.pow_le_pow_right (by decide) wide
  have one : (1 : BitVec width).toNat = 1 := Nat.mod_eq_of_lt (show 1 < 2 ^ width by omega)
  have offsetIs : (BitVec.ofNat width offset).toNat = offset := Nat.mod_eq_of_lt (by omega)
  have countIs : (BitVec.ofNat width count).toNat = count := Nat.mod_eq_of_lt (by omega)
  rw [Fits, one, offsetIs, countIs, Nat.mul_one]
  exact ⟨rfl, rfl, by omega⟩

/-- The node serves calls inside the volume as the bytes of its disk. -/
theorem diskNode_serves (wide : 32 ≤ width) (sound : Sound media first disk)
    (fits : sectorStart vol (fatTotalSectors vol).toNat ≤ byteCount first disk)
    (short : sectorStart vol (fatTotalSectors vol).toNat < 2 ^ width) :
    StoreProgram.Serves (diskNode width disk dest stale) (InVolume vol)
      (OnDisk media first disk) where
  read := by
    intro bus bytes offset count ⟨drives, is, ideDev, status, contents⟩ inside call
    obtain ⟨offsetIs, countIs, range⟩ := inside.toNat wide short
    obtain ⟨result, next, returned, buffer, now, nextDev, nextStatus⟩ :=
      NodeCall.answer_bytes (.read disk (.ofNat width offset) (.ofNat width count) 1 (dest call)
        (stale call)) wide (sound.keeps ideDev status) range
    obtain ⟨after, settles, last⟩ := NodeCall.perform_matches _ wide is returned
    refine ⟨result.2.1, after, .bind settles .returns, ⟨next, last, nextDev.trans ideDev,
      nextStatus.trans status, now.trans contents⟩, fun index below => ?_⟩
    rw [buffer, NodeCall.buffer, countIs, offsetIs, contents, Function.update_self]
    have here := @overwrite_inside (dest call) (slice bytes offset) 0 count index below
    rwa [Nat.zero_add] at here
  write := by
    intro bus bytes offset count ⟨drives, is, ideDev, status, contents⟩ inside call source
    obtain ⟨offsetIs, countIs, range⟩ := inside.toNat wide short
    obtain ⟨result, next, returned, _, now, nextDev, nextStatus⟩ :=
      NodeCall.answer_bytes (.write disk (.ofNat width offset) (.ofNat width count) 1 source
        (stale call)) wide (sound.keeps ideDev status) range
    obtain ⟨after, settles, last⟩ := NodeCall.perform_matches _ wide is returned
    refine ⟨after, .bind settles .returns, next, last, nextDev.trans ideDev,
      nextStatus.trans status, ?_⟩
    have below : overwriteBelow (byteCount first disk) bytes offset count source =
        overwrite bytes offset count source := by
      funext position
      have last := inside.2
      unfold overwriteBelow
      split_ifs with inDisk
      · rfl
      · exact (overwrite_outside (by omega)).symm
    rw [now, NodeCall.arrays, countIs, offsetIs, contents, Function.update_self,
      Function.update_idem, byteCount_congr ideDev, below]

end Disks

/-! ## Files -/

section Files

variable {width : Nat} {vol : FATVolume} {bus : Bus} {drives : Drives} {disk : Fin 4}
  {chain : BitVec 32 → List (BitVec 32)} {starts : List (BitVec 32)}
  {files : FileKey → Option File} {requests : List FileRequest} {parent : Option FATDirectory}
  {path : List (BitVec 8)}

end Files

/-- A disk that holds the small volume with an empty root. -/
def emptyDisk : AtaDevice :=
  { Bus.sampleDevice false false with sectors := fun lba place => emptyDrive (512 * lba + place) }

/-- The disk at the first place of the first channel. -/
def diskBus : Bus :=
  { Bus.sampleBus false with
    channel := fun channel =>
      { device := fun place => if place = 0 ∧ channel = 0 then some emptyDisk else none
        selected := 0, absent := 0xFF }
    ideDev := fun drive =>
      { (Bus.sampleBus false).ideDev drive with
        reserved := if drive = 0 then 1 else 0
        size := 103 } }

/-- The drives that these channels make. -/
def diskDrives : Drives where
  ideDev := fun drive => (diskBus.ideDev drive).toIDEDev
  status := fun _ => 0x50
  sector := fun _ lba place => emptyDrive (512 * lba.toNat + place)
  package := 0

/-- Only the disk has an entry. -/
theorem diskBus_entry {drive : Fin 4} (reserved : (diskBus.ideDev drive).reserved ≠ 0) :
    drive = 0 := by
  revert reserved
  revert drive
  exact (by decide : ∀ drive : Fin 4, (if drive = 0 then (1 : BitVec 8) else 0) ≠ 0 → drive = 0)

/-- The channels and the entries belong together. -/
theorem diskBus_wired : diskBus.Wired where
  apart drive other reserved otherReserved _ :=
    (diskBus_entry reserved).trans (diskBus_entry otherReserved).symm
  absent _ := .inl rfl
  type drive medium sectors reserved there := by
    obtain rfl := diskBus_entry reserved
    cases there
    exact .inl ⟨rfl, rfl⟩
  addressable _ := .inl (by decide : (0x200 : BitVec 16) &&& 0x200 ≠ 0)

/-- The device holds what the drive holds. -/
theorem diskBus_shows : diskBus.Shows diskDrives where
  ideDev _ := rfl
  package := rfl
  free := by
    intro channel place device there
    have is : (if place = 0 ∧ channel = 0 then some emptyDisk else none) = some device := there
    split_ifs at is
    cases is
    rfl
  holds drive reserved := by
    obtain rfl := diskBus_entry reserved
    exact ⟨(by decide : ¬ ((0x50 : BitVec 8) = 0xFF ∨ (0x50 : BitVec 8) = 0x00)), fun _ => rfl⟩

/-- The disk has no faults. -/
theorem diskBus_sound : Sound diskBus.medium diskDrives 0 where
  ready := ⟨(by decide : (1 : BitVec 8) ≠ 0),
    (by decide : ¬ ((0x50 : BitVec 8) = 0xFF ∨ (0x50 : BitVec 8) = 0x00)), rfl⟩
  faultless medium made lba := by
    cases made
    exact Bus.sampleDevice_sound false lba

/-- The bytes of the disk are those of the empty volume. -/
theorem diskDrives_content : content diskDrives 0 = emptyDrive := by
  funext position
  have size : byteCount diskDrives 0 = 52736 := rfl
  rw [content, size]
  split_ifs with inside
  · have sector : (BitVec.ofNat 32 (position / 512)).toNat = position / 512 :=
      Nat.mod_eq_of_lt (by omega)
    show emptyDrive (512 * (BitVec.ofNat 32 (position / 512)).toNat + position % 512) = _
    rw [sector, Nat.div_add_mod]
  · have low : ∀ entry ∈ [(520, (0xF8 : BitVec 8)), (521, 0xFF), (522, 0xFF), (523, 0x0F)],
        entry.1 < 52736 := by
      decide
    rw [emptyDrive, driveOf, List.lookup_eq_none_iff.mpr fun entry member => bne_iff_ne.mpr (by
      have below := low entry member
      omega)]
    rfl

end Unarddeg.Fat
