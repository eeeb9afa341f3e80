import Unarddeg.Library.WriteOnce
import Unarddeg.Modules.Fat.Search

/-!
# The files of a volume

`FatWrite` and `FatRead` of `modules/fat/main.c` as a store of files. A write fills the first free
slot of its directory and takes free clusters, so it keeps the entries of the clusters in use, their
bytes outside the directory and the other slots (`Kept`). It does not look for an entry with the
name; a second write of a name fills a slot behind the first one, which a read takes. So the
directories are a store that is written once: after any calls of `FatWrite`, with whatever codes, a
read of a name returns the data of the first write of that name to the directory that succeeded, or
what was there before (`files_refine`).
-/

namespace Unarddeg.Fat

open Library

/-- A directory and a name: the first cluster, and the characters that are compared. -/
abbrev FileKey := BitVec 32 × List UInt8 × List UInt8

/-- The key of a path in a directory. -/
def fileKey (start : BitVec 32) (path : List (BitVec 8)) : FileKey :=
  (start, characters 8 (fatConvert83 path).1, characters 3 (fatConvert83 path).2)

/-- A file: its size, and data that begin with its bytes. -/
structure File where
  /-- The size. -/
  size : BitVec 32
  /-- The data. -/
  data : Nat → BitVec 8

/-- A call of `FatWrite` that returned. -/
structure FileWrite where
  /-- `Parent`. -/
  parent : Option FATDirectory
  /-- `path`. -/
  path : List (BitVec 8)
  /-- `data` and `size`. -/
  file : File
  /-- The code that was returned. -/
  code : Int

/-- The directory that a write is to. -/
def FileWrite.start (vol : FATVolume) (write : FileWrite) : BitVec 32 :=
  directoryCluster vol write.parent

/-- A call of `FatWrite`. -/
def WriteStep (vol : FATVolume) (before : Drive) (write : FileWrite) (after : Drive) : Prop :=
  ∃ fuel, fatWrite fuel write.path write.file.data write.file.size vol write.parent before =
    .ok write.code after

/-- The files that the calls that succeeded wrote, in their order. -/
def written (vol : FATVolume) (run : List FileWrite) : List (FileKey × File) :=
  run.filterMap fun write =>
    if write.code = 0 then some (fileKey (write.start vol) write.path, write.file) else none

/-- The chains of directories. -/
structure Directories (vol : FATVolume) (drive : Drive) (chain : BitVec 32 → List (BitVec 32))
    (starts : List (BitVec 32)) : Prop where
  /-- Each directory has its chain. -/
  chains : ∀ start ∈ starts, ClusterChain vol drive start (chain start)
  /-- Different directories have no cluster in common. -/
  apart : ∀ start ∈ starts, ∀ other ∈ starts, other ≠ start → (chain start).Disjoint (chain other)
  /-- The numbers of their clusters have 16 bits. -/
  near : ∀ start ∈ starts, ∀ cluster ∈ chain start, cluster.toNat < 2 ^ 16

/-- What a write keeps, with the slot that it fills. -/
structure Kept (vol : FATVolume) (before after : Drive) (directory : List (BitVec 32))
    (filled : Option Slot) : Prop where
  /-- The entries of the clusters in use. -/
  entries : ∀ cluster, vol.IsData cluster → fatEntry vol before cluster.toNat ≠ 0 →
    fatEntry vol after cluster.toNat = fatEntry vol before cluster.toNat
  /-- The slot is a free one of the directory. -/
  target : ∀ slot ∈ filled, slot.cluster ∈ directory ∧ slot.Free vol before
  /-- The other slots of the clusters in use. -/
  slots : ∀ slot : Slot, vol.IsData slot.cluster → fatEntry vol before slot.cluster.toNat ≠ 0 →
    slot.Inside vol → slot ∉ filled → ∀ place < 32,
      slotEntry vol after slot place = slotEntry vol before slot place
  /-- The bytes of the clusters in use outside the directory. -/
  bytes : ∀ cluster, vol.IsData cluster → fatEntry vol before cluster.toNat ≠ 0 →
    cluster ∉ directory → ∀ index < clusterBytes vol,
      after (clusterStart vol cluster + index) = before (clusterStart vol cluster + index)

/-- A slot is in front of another one of a directory. -/
def Slot.Ahead (vol : FATVolume) (front : List (BitVec 32)) (slot other : Slot) : Prop :=
  other.Inside vol ∧ (other.cluster ∈ front ∨ other.cluster = slot.cluster ∧ other.Before slot)

/-- A directory has a file with a name: its entry is in a slot, with no free slot and no entry of
the name in front of it, and its clusters hold the data. -/
structure Filed (vol : FATVolume) (drive : Drive) (directory : List (BitVec 32))
    (name ext : Nat → BitVec 8) (file : File) (front : List (BitVec 32)) (slot : Slot)
    (clusters : List (BitVec 32)) : Prop where
  /-- The clusters of the directory in front of that of the slot. -/
  split : ∃ behind, directory = front ++ slot.cluster :: behind
  /-- The slot is one of its cluster. -/
  inside : slot.Inside vol
  /-- Its entry has the name. -/
  named : examine name ext (slotEntry vol drive slot) = some true
  /-- Its entry has the size. -/
  size : (slotEntry vol drive slot).size = file.size
  /-- No slot in front of it is free, or has the name. -/
  ahead : ∀ other, slot.Ahead vol front other → ¬ other.Free vol drive ∧
    examine name ext (slotEntry vol drive other) ≠ some true
  /-- The clusters are the chain of the entry. -/
  chain : ClusterChain vol drive (slotEntry vol drive slot).firstCluster clusters
  /-- They have room for the data. -/
  fit : file.size.toNat ≤ clusters.length * clusterBytes vol
  /-- They begin with the data. -/
  contents : ∀ index < file.size.toNat, chainByte vol drive clusters index = file.data index

/-- No entry of a directory has a name. -/
def Absent (vol : FATVolume) (drive : Drive) (directory : List (BitVec 32))
    (name ext : Nat → BitVec 8) : Prop :=
  ∀ slot ∈ slotsOf vol directory, examine name ext (slotEntry vol drive slot) ≠ some true

/-- What a directory holds under a path: a file in clusters that are no directory's, or no entry of
the name. -/
def HoldsUnder (vol : FATVolume) (drive : Drive) (chain : BitVec 32 → List (BitVec 32))
    (starts : List (BitVec 32)) (start : BitVec 32) (path : List (BitVec 8)) :
    Option File → Prop
  | some file => ∃ front slot clusters,
    Filed vol drive (chain start) (fatConvert83 path).1 (fatConvert83 path).2 file front slot
      clusters ∧ ∀ other ∈ starts, (chain other).Disjoint clusters
  | none => Absent vol drive (chain start) (fatConvert83 path).1 (fatConvert83 path).2

/-- Directories hold the files of a store, and no others. -/
def Stores (vol : FATVolume) (drive : Drive) (chain : BitVec 32 → List (BitVec 32))
    (starts : List (BitVec 32)) (files : FileKey → Option File) : Prop :=
  ∀ start ∈ starts, ∀ path, path.head? ≠ some fatUnused →
    HoldsUnder vol drive chain starts start path (files (fileKey start path))

/-- A block begins with a file, or there is neither. -/
def Returns : Option File → Option (Nat → BitVec 8) → Prop
  | some file, some block => ∀ index < file.size.toNat, block index = file.data index
  | none, none => True
  | _, _ => False

/-! ## Names -/

section Names

variable {path other : List (BitVec 8)} {start : BitVec 32} {cluster size : BitVec 32}
  {attributes : BitVec 8} {text : List (BitVec 8)} {count : Nat} {left right : Nat → BitVec 8}

/-- The characters of a buffer say what is in it. -/
theorem characters_inj (same : characters count left = characters count right) :
    ∀ place < count, left place = right place := by
  intro place small
  have bytes := List.map_inj_left.mp same place (List.mem_range.mpr small)
  exact congrArg UInt8.toBitVec bytes

/-- Paths with one key have the same fields. -/
theorem fatConvert83_of_key (same : fileKey start path = fileKey start other) :
    fatConvert83 path = fatConvert83 other := by
  obtain ⟨_, fields⟩ := Prod.mk.inj same
  obtain ⟨names, exts⟩ := Prod.mk.inj fields
  apply Prod.ext
  · funext place
    by_cases small : place < 8
    · exact characters_inj names place small
    · exact (if_neg small).trans (if_neg small).symm
  · funext place
    by_cases small : place < 3
    · exact characters_inj exts place small
    · exact (if_neg small).trans (if_neg small).symm

/-- If a path does not begin with the mark of unused entries, none with its fields does. -/
theorem unmarked_of_fields (mark : path.head? ≠ some fatUnused)
    (same : fatConvert83 path = fatConvert83 other) : other.head? ≠ some fatUnused := by
  intro marked
  have first := (created_first mark).2
  rw [same] at first
  cases other with
  | nil => cases marked
  | cons char rest =>
    obtain rfl : char = fatUnused := Option.some.inj marked
    apply first
    have characters : nameCharacters (fatUnused :: rest) = fatUnused ::
        (rest.takeWhile fun char => char ≠ 0 ∧ char ≠ 0x2E).take 7 := by
      rw [nameCharacters, List.takeWhile_cons, if_pos (by decide), List.take_succ_cons]
    rw [fatConvert83, characters]
    rfl

/-- Padding adds no zero byte. -/
theorem padded_plain (plain : ∀ char ∈ text, char ≠ 0) :
    ∀ byte ∈ characters count (padded count text), byte ≠ 0 := by
  intro byte member
  obtain ⟨place, inside, rfl⟩ := List.mem_map.mp member
  have small := List.mem_range.mp inside
  have nonzero : padded count text place ≠ 0 := by
    rw [padded, if_pos small]
    by_cases short : place < text.length
    · rw [List.getD_eq_getElem _ _ short]
      exact plain _ (List.getElem_mem short)
    · rw [List.getD_eq_default _ _ (by omega)]
      decide
  exact fun zero => nonzero (congrArg UInt8.toBitVec zero)

/-- The fields of a path have no zero byte. -/
theorem fields_plain : (∀ byte ∈ characters 8 (fatConvert83 path).1, byte ≠ 0) ∧
    ∀ byte ∈ characters 3 (fatConvert83 path).2, byte ≠ 0 := by
  constructor
  · apply padded_plain
    intro char member
    have passed := List.mem_takeWhile_imp (List.mem_of_mem_take member)
    exact (of_decide_eq_true passed).1
  · apply padded_plain
    intro char member
    have passed := List.mem_takeWhile_imp (List.mem_of_mem_take member)
    exact (of_decide_eq_true passed).1

/-- The end mark is not taken for a name, and what is compares equal to it. -/
theorem matches_of_examine {entry : FATDirectory} {name ext : Nat → BitVec 8}
    (taken : examine name ext entry = some true) :
    entry.name 0 ≠ 0 ∧ Taken name ext entry := by
  have live : entry.name 0 ≠ 0 := by
    intro zero
    rw [examine_end zero] at taken
    cases taken
  refine ⟨live, ?_⟩
  by_contra refuses
  rw [examine_other live refuses] at taken
  cases taken

/-- A field of a made entry that compares equal to one of a path is the same. -/
theorem characters_of_compare {field : Nat → BitVec 8}
    (plain : ∀ byte ∈ characters count right, byte ≠ 0)
    (fields : ∀ place < count, field place = left place)
    (compares : strncmp (characters count field) (characters count right) count = 0) :
    characters count left = characters count right := by
  have length : ∀ buffer, (characters count buffer).length = count := by
    intro buffer
    rw [characters, List.length_map, List.length_range]
  have same : characters count field = characters count left := by
    apply List.map_congr_left
    intro place member
    rw [fields place (List.mem_range.mp member)]
  have equal := @strncmp_eq_zero (characters count field) (characters count right)
    ((length _).trans (length _).symm) plain
  rw [length] at equal
  exact same ▸ equal.mp compares

/-- An entry that `FatCreateEntry` made for a path is taken for those with its key only. -/
theorem key_of_created (taken : examine (fatConvert83 path).1 (fatConvert83 path).2
      (fatCreateEntry other cluster size attributes) = some true) :
    fileKey start other = fileKey start path := by
  obtain ⟨names, exts⟩ := (matches_of_examine taken).2.compares
  have name : characters 8 (fatConvert83 other).1 = characters 8 (fatConvert83 path).1 :=
    characters_of_compare fields_plain.1 (fun place small => if_pos small) names
  have ext : characters 3 (fatConvert83 other).2 = characters 3 (fatConvert83 path).2 := by
    apply characters_of_compare fields_plain.2 _ exts
    intro place small
    have here : fatCreateEntry other cluster size attributes (8 + place) =
        (fatConvert83 other).2 (8 + place - 8) :=
      (if_neg (by omega)).trans (if_pos (by omega))
    rwa [Nat.add_sub_cancel_left] at here
  unfold fileKey
  rw [name, ext]

end Names

/-! ## What a write does -/

section Writing

variable {vol : FATVolume} {drive stored after : Drive} {directory : List (BitVec 32)}
  {parent : Option FATDirectory} {path : List (BitVec 8)} {data : Nat → BitVec 8}
  {size : BitVec 32} {fuel count : Nat} {code : Int} {start : BitVec 32}
  {clusters : List (BitVec 32)}

/-- Storing data keeps what is in use. -/
theorem Written.kept (volume : PairedVolume vol)
    (written : Written vol drive stored data clusters count) :
    Kept vol drive stored directory none := by
  have outside : ∀ cluster, fatEntry vol drive cluster.toNat ≠ 0 → cluster ∉ clusters :=
    fun cluster taken member => taken (written.fresh cluster member).2
  -- The bytes of a cluster in use are behind the tables and outside the new clusters.
  have bytes : ∀ cluster, vol.IsData cluster → fatEntry vol drive cluster.toNat ≠ 0 →
      ∀ index < clusterBytes vol,
        stored (clusterStart vol cluster + index) = drive (clusterStart vol cluster + index) := by
    intro cluster isData taken index small
    have tables := volume.tables_before cluster
    apply written.frame _ (by omega)
    intro other member
    have apart := clusters_apart (written.fresh other member).1 isData fun same =>
      outside cluster taken (same ▸ member)
    omega
  exact {
    entries := fun cluster isData taken =>
      written.others cluster isData.inTable (outside cluster taken)
    target := fun slot none => by cases none
    slots := fun slot isData taken inside _ place small => by
      have within := inside.within
      unfold slotEntry
      rw [volume.exact.clusterEntry_eq isData inside, volume.exact.clusterEntry_eq isData inside]
      have here := bytes slot.cluster isData taken
        (slotStart vol slot + place - clusterStart vol slot.cluster) (by omega)
      rwa [Nat.add_sub_cancel' (by omega)] at here
    bytes := fun cluster isData taken _ index small => bytes cluster isData taken index small }

/-- Filling a free slot of the directory keeps the rest. -/
theorem Kept.fill (volume : ExactVolume vol) (kept : Kept vol drive stored directory none)
    {slot : Slot} {entry : FATDirectory} (isData : vol.IsData slot.cluster)
    (member : slot.cluster ∈ directory) (free : slot.Free vol drive)
    (wrote : after = overwrite stored (slotStart vol slot) 32 entry) :
    Kept vol drive after directory (some slot) := by
  have inside := free.1
  have within := inside.within
  exact {
    entries := fun cluster clusterData taken =>
      (volume.fatEntry_write wrote inside clusterData.inTable).trans
        (kept.entries cluster clusterData taken)
    target := fun other same => by
      obtain rfl := Option.some.inj same
      exact ⟨member, free⟩
    slots := fun other otherData taken otherInside apart place small => by
      have different : other ≠ slot := fun same => apart (congrArg some same.symm)
      have same := volume.clusterEntry_write wrote isData otherData inside otherInside small
      rw [if_neg different] at same
      exact same.trans (kept.slots other otherData taken otherInside (by simp) place small)
    bytes := fun cluster clusterData taken outside index small => by
      have apart := clusters_apart isData clusterData fun same => outside (same ▸ member)
      rw [← kept.bytes cluster clusterData taken outside index small, wrote]
      exact overwrite_outside (by omega) }

/-- A write that fails keeps all that is in use. -/
theorem fatWrite_kept (volume : LowVolume vol)
    (wrote : fatWrite fuel path data size vol parent drive = .ok code after) (failed : code ≠ 0) :
    Kept vol drive after directory none := by
  obtain ⟨result, stores⟩ := fatWrite_failed wrote failed
  obtain ⟨clusters, count, written, _⟩ :=
    fatWriteData_ok volume.paired volume.formatted.linkable stores
  exact written.kept volume.paired

/-- The index of a slot has eight bits. -/
theorem Formatted.index_small (formatted : Formatted vol) {slot : Slot}
    (inside : slot.Inside vol) : slot.index < 2 ^ 8 := by
  have bytes : ∀ size ∈ [512, 1024, 2048, 4096], size / 32 ≤ 2 ^ 8 := by
    decide
  exact Nat.lt_of_lt_of_le inside.2 (bytes _ formatted.sectorSize)

/-- A write that succeeds fills the first free slot of its directory with an entry of free clusters
that hold the data. -/
theorem fatWrite_fills (volume : LowVolume vol)
    (chain : ClusterChain vol drive (directoryCluster vol parent) directory)
    (near : ∀ cluster ∈ directory, cluster.toNat < 2 ^ 16)
    (wrote : fatWrite fuel path data size vol parent drive = .ok 0 after) :
    ∃ front slot cluster clusters, Kept vol drive after directory (some slot) ∧
      FirstFree vol drive (directoryCluster vol parent) front slot ∧
      (∃ behind, directory = front ++ slot.cluster :: behind) ∧
      (∀ place < 32, slotEntry vol after slot place =
        fatCreateEntry path cluster size fatArchive place) ∧
      ClusterChain vol after cluster clusters ∧
      (∀ other ∈ clusters, fatEntry vol drive other.toNat = 0) ∧
      size.toNat ≤ clusters.length * clusterBytes vol ∧
      ∀ index < size.toNat, chainByte vol after clusters index = data index := by
  have paired := volume.paired
  obtain ⟨cluster, rest, stored, front, slot, written, first, _, enters⟩ :=
    fatWrite_entered paired volume.formatted.linkable chain wrote
  obtain ⟨behind, split⟩ := chain.entered paired.exact first.path first.goes
  have member : slot.cluster ∈ directory := by simp [split]
  have isData := chain.allData _ member
  have inside := first.free.1
  -- The slot arrives, so its 32 bytes are all that the entry changes.
  rw [(slotAt_location_iff inside).mpr ⟨near _ member, volume.formatted.index_small inside⟩]
    at enters
  have wroteSlot := paired.exact.writeSlot_ok isData inside enters
  have fileData : ∀ other ∈ cluster :: rest, vol.IsData other := fun other member =>
    (written.fresh other member).1
  have outside : slot.cluster ∉ cluster :: rest := fun there =>
    chain.taken paired.exact.wide _ member (written.fresh _ there).2
  refine ⟨front, slot, cluster, cluster :: rest, ?_, first, ⟨behind, split⟩, ?_, ?_, ?_,
    written.fit, ?_⟩
  · exact (written.kept paired).fill paired.exact isData member first.free wroteSlot
  · intro place below
    exact (paired.exact.clusterEntry_write wroteSlot isData isData inside inside below).trans
      (if_pos rfl)
  · apply (written.linked.chain paired.exact fileData).congr
    intro other there
    exact paired.exact.fatEntry_write wroteSlot inside (fileData other there).inTable
  · exact fun other there => (written.fresh other there).2
  · intro index below
    have fit := written.fit
    rw [paired.exact.chainByte_write wroteSlot isData inside fileData outside (by omega)]
    exact written.chainByte paired.exact below

end Writing

/-! ## Files and writes -/

section Files

variable {vol : FATVolume} {drive after : Drive} {chain : BitVec 32 → List (BitVec 32)}
  {starts front clusters directory : List (BitVec 32)} {start other : BitVec 32} {slot : Slot}
  {filled : Option Slot} {name ext : Nat → BitVec 8} {file : File}
  {files : FileKey → Option File} {write : FileWrite}

/-- The clusters of a directory have data and are in use. -/
theorem Directories.inUse (volume : ExactVolume vol)
    (directories : Directories vol drive chain starts) (known : start ∈ starts)
    {cluster : BitVec 32} (member : cluster ∈ chain start) :
    vol.IsData cluster ∧ fatEntry vol drive cluster.toNat ≠ 0 := by
  have there := directories.chains start known
  exact ⟨there.allData cluster member, there.taken volume.wide cluster member⟩

/-- A write keeps the directories. -/
theorem Directories.kept (volume : ExactVolume vol)
    (directories : Directories vol drive chain starts)
    (kept : Kept vol drive after directory filled) : Directories vol after chain starts where
  chains := fun start known => (directories.chains start known).congr fun cluster member => by
    obtain ⟨isData, taken⟩ := directories.inUse volume known member
    exact kept.entries cluster isData taken
  apart := directories.apart
  near := directories.near

/-- Whether a slot is free depends on its bytes. -/
theorem Slot.Free.congr (free : slot.Free vol after)
    (same : ∀ place < 32, slotEntry vol after slot place = slotEntry vol drive slot place) :
    slot.Free vol drive := by
  have first : (slotEntry vol after slot).name 0 = (slotEntry vol drive slot).name 0 :=
    same 0 (by decide)
  have empty : isFree (slotEntry vol after slot) = true := free.2
  unfold isFree at empty
  rw [first] at empty
  exact ⟨free.1, empty⟩

/-- The slot of a file is not free. -/
theorem not_free_of_examine (taken : examine name ext (slotEntry vol drive slot) = some true) :
    ¬ slot.Free vol drive := by
  intro ⟨_, empty⟩
  obtain ⟨live, named⟩ := matches_of_examine taken
  unfold isFree at empty
  rcases of_decide_eq_true empty with zero | unused
  · exact live zero
  · exact named.used unused

/-- A slot in front of another one of a directory is one of that directory. -/
theorem Slot.Ahead.mem {other : Slot} {behind : List (BitVec 32)}
    (ahead : slot.Ahead vol front other) (split : directory = front ++ slot.cluster :: behind) :
    other.cluster ∈ directory := by
  rw [split]
  rcases ahead.2 with before | ⟨here, _⟩
  · exact List.mem_append_left _ before
  · rw [here]
    exact List.mem_append_right _ List.mem_cons_self

/-- A write keeps a file of a directory: its slot and those in front of it are not free, and its
clusters are in use and no directory's. -/
theorem Filed.kept (volume : ExactVolume vol) (directories : Directories vol drive chain starts)
    (known : start ∈ starts) (kept : Kept vol drive after directory filled)
    (apart : directory.Disjoint clusters)
    (filed : Filed vol drive (chain start) name ext file front slot clusters) :
    Filed vol after (chain start) name ext file front slot clusters := by
  obtain ⟨behind, split⟩ := filed.split
  have same : ∀ other : Slot, other.cluster ∈ chain start → other.Inside vol →
      ¬ other.Free vol drive → ∀ place < 32,
        slotEntry vol after other place = slotEntry vol drive other place := by
    intro other member inside used
    obtain ⟨isData, taken⟩ := directories.inUse volume known member
    exact kept.slots other isData taken inside fun filling => used (kept.target other filling).2
  have member : slot.cluster ∈ chain start := by simp [split]
  have here := same slot member filed.inside (not_free_of_examine filed.named)
  obtain ⟨firstCluster, size⟩ := entry_congr here
  have entries : ∀ cluster ∈ clusters,
      vol.IsData cluster ∧ fatEntry vol drive cluster.toNat ≠ 0 := fun cluster member =>
    ⟨filed.chain.allData cluster member, filed.chain.taken volume.wide cluster member⟩
  exact {
    split := filed.split
    inside := filed.inside
    named := (examine_congr here).trans filed.named
    size := size.trans filed.size
    ahead := fun other ahead => by
      obtain ⟨used, unnamed⟩ := filed.ahead other ahead
      have bytes := same other (ahead.mem split) ahead.1 used
      exact ⟨fun free => used (free.congr bytes), (examine_congr bytes).symm ▸ unnamed⟩
    chain := by
      rw [firstCluster]
      exact filed.chain.congr fun cluster member =>
        kept.entries cluster (entries cluster member).1 (entries cluster member).2
    fit := filed.fit
    contents := fun index small => by
      have fit := filed.fit
      have below : index / clusterBytes vol < clusters.length :=
        (Nat.div_lt_iff_lt_mul volume.clusterBytes_pos).mpr (by omega)
      have there : clusters.getD (index / clusterBytes vol) 0 ∈ clusters := by
        rw [List.getD_eq_getElem _ _ below]
        exact List.getElem_mem below
      obtain ⟨isData, taken⟩ := entries _ there
      rw [← filed.contents index small, volume.chainByte_eq isData, volume.chainByte_eq isData]
      exact kept.bytes _ isData taken (fun inside => apart inside there) _
        (Nat.mod_lt _ volume.clusterBytes_pos) }

/-- A name stays absent in a directory when no slot of it is filled with it. -/
theorem Absent.kept (volume : ExactVolume vol) (directories : Directories vol drive chain starts)
    (known : start ∈ starts) (kept : Kept vol drive after directory filled)
    (absent : Absent vol drive (chain start) name ext)
    (hidden : ∀ slot ∈ filled, slot.cluster ∈ chain start →
      examine name ext (slotEntry vol after slot) ≠ some true) :
    Absent vol after (chain start) name ext := by
  intro slot member
  obtain ⟨there, inside⟩ := mem_slotsOf.mp member
  by_cases here : slot ∈ filled
  · exact hidden slot here there
  · obtain ⟨isData, taken⟩ := directories.inUse volume known there
    rw [examine_congr (kept.slots slot isData taken inside here)]
    exact absent slot member

/-- The write of an absent name that succeeds enters the file, in clusters of its own. -/
theorem WriteStep.entered (volume : LowVolume vol)
    (directories : Directories vol drive chain starts) (known : write.start vol ∈ starts)
    (step : WriteStep vol drive write after) (success : write.code = 0) :
    ∃ slot, Kept vol drive after (chain (write.start vol)) (some slot) ∧
      (∃ cluster, ∀ place < 32, slotEntry vol after slot place =
        fatCreateEntry write.path cluster write.file.size fatArchive place) ∧
      (write.path.head? ≠ some fatUnused →
        Absent vol drive (chain (write.start vol)) (fatConvert83 write.path).1
          (fatConvert83 write.path).2 →
        ∃ front clusters, Filed vol after (chain (write.start vol)) (fatConvert83 write.path).1
          (fatConvert83 write.path).2 write.file front slot clusters ∧
          ∀ other ∈ starts, (chain other).Disjoint clusters) := by
  obtain ⟨fuel, wrote⟩ := step
  rw [success] at wrote
  obtain ⟨front, slot, cluster, clusters, kept, first, ⟨behind, split⟩, entry, links, fresh, fit,
    contents⟩ := fatWrite_fills volume (directories.chains _ known) (directories.near _ known) wrote
  refine ⟨slot, kept, ⟨cluster, entry⟩, fun mark absent => ⟨front, clusters, ?_, ?_⟩⟩
  · obtain ⟨firstCluster, size⟩ := entry_congr entry
    rw [created_firstCluster] at firstCluster
    rw [created_size] at size
    exact {
      split := ⟨behind, split⟩
      inside := first.free.1
      named := (examine_congr entry).trans (created_named mark)
      size := size
      ahead := fun other ahead => by
        have member : other.cluster ∈ chain (write.start vol) := ahead.mem split
        have used : ¬ other.Free vol drive := by
          rcases ahead.2 with before | ⟨here, before⟩
          · exact first.full other before
          · exact first.first other here before
        obtain ⟨isData, taken⟩ := directories.inUse volume.paired.exact known member
        have apart : other ∉ some slot := by
          intro same
          obtain rfl := Option.some.inj same
          exact used first.free
        have bytes := kept.slots other isData taken ahead.1 apart
        have unnamed := absent other (mem_slotsOf.mpr ⟨member, ahead.1⟩)
        exact ⟨fun free => used (free.congr bytes), (examine_congr bytes).symm ▸ unnamed⟩
      chain := firstCluster ▸ links
      fit := fit
      contents := contents }
  · intro other member cluster there inside
    exact (directories.inUse volume.paired.exact member there).2 (fresh cluster inside)

/-- A write keeps what a directory holds, unless it fills a slot of it with a name that is
absent. -/
theorem HoldsUnder.kept (volume : ExactVolume vol)
    (directories : Directories vol drive chain starts) (known : start ∈ starts)
    (kept : Kept vol drive after (chain other) filled)
    (otherKnown : other ∈ starts) {path : List (BitVec 8)} {held : Option File}
    (hidden : held = none → ∀ slot ∈ filled, slot.cluster ∈ chain start →
      examine (fatConvert83 path).1 (fatConvert83 path).2 (slotEntry vol after slot) ≠ some true)
    (holds : HoldsUnder vol drive chain starts start path held) :
    HoldsUnder vol after chain starts start path held := by
  cases held with
  | some file =>
    obtain ⟨front, slot, clusters, filed, apart⟩ := holds
    exact ⟨front, slot, clusters,
      filed.kept volume directories known kept (apart other otherKnown), apart⟩
  | none =>
    have absent : Absent vol drive (chain start) (fatConvert83 path).1 (fatConvert83 path).2 :=
      holds
    exact absent.kept volume directories known kept (hidden rfl)

/-- A write that succeeds is an insertion into the store. -/
theorem Stores.inserted (volume : LowVolume vol)
    (directories : Directories vol drive chain starts)
    (stores : Stores vol drive chain starts files) (known : write.start vol ∈ starts)
    (step : WriteStep vol drive write after) (success : write.code = 0) :
    Directories vol after chain starts ∧ Stores vol after chain starts
      (insertNew files (fileKey (write.start vol) write.path) write.file) := by
  have exactVolume := volume.paired.exact
  obtain ⟨slot, kept, ⟨cluster, entry⟩, enters⟩ := step.entered volume directories known success
  refine ⟨directories.kept exactVolume kept, fun start member path mark => ?_⟩
  have before := stores start member path mark
  by_cases same : fileKey start path = fileKey (write.start vol) write.path
  · obtain rfl : start = write.start vol := congrArg Prod.fst same
    cases held : files (fileKey (write.start vol) path) with
    | some file =>
      rw [held] at before
      rw [insertNew_held held]
      exact before.kept exactVolume directories known kept known fun none => by cases none
    | none =>
      rw [held] at before
      have fields := fatConvert83_of_key same
      have absent : Absent vol drive (chain (write.start vol)) (fatConvert83 write.path).1
          (fatConvert83 write.path).2 := fields ▸ before
      obtain ⟨front, clusters, filed, apart⟩ := enters (unmarked_of_fields mark fields) absent
      rw [← same, insertNew_same held]
      exact ⟨front, slot, clusters, fields.symm ▸ filed, apart⟩
  · rw [insertNew_other same]
    apply before.kept exactVolume directories member kept known
    intro _ filled filling there taken
    obtain rfl := Option.some.inj filling
    rw [examine_congr entry] at taken
    -- The slot is one of the directory of the write, and has its name.
    by_cases here : start = write.start vol
    · exact same (here ▸ (key_of_created taken).symm)
    · exact directories.apart _ known _ member here (kept.target slot rfl).1 there

/-- A write that returned keeps the directories, and the files that it wrote are inserted into the
store. -/
theorem Stores.step (volume : LowVolume vol) (directories : Directories vol drive chain starts)
    (stores : Stores vol drive chain starts files) (known : write.start vol ∈ starts)
    (step : WriteStep vol drive write after) :
    Directories vol after chain starts ∧
      Stores vol after chain starts (insertAll files (written vol [write])) := by
  by_cases success : write.code = 0
  · have inserted : insertAll files (written vol [write]) =
        insertNew files (fileKey (write.start vol) write.path) write.file := by
      simp [written, success, insertAll]
    rw [inserted]
    exact stores.inserted volume directories known step success
  · obtain ⟨fuel, wrote⟩ := step
    have kept := @fatWrite_kept vol drive after (chain (write.start vol)) write.parent write.path
      write.file.data write.file.size fuel write.code volume wrote success
    have inserted : insertAll files (written vol [write]) = files := by
      simp [written, success, insertAll]
    rw [inserted]
    exact ⟨directories.kept volume.paired.exact kept, fun start member path mark =>
      (stores start member path mark).kept volume.paired.exact directories member kept known
        fun _ _ none => by cases none⟩

/-- Any calls of `FatWrite` to the directories insert the files that they wrote, in their order. -/
theorem Stores.run (volume : LowVolume vol) {run : List FileWrite}
    (directories : Directories vol drive chain starts)
    (stores : Stores vol drive chain starts files)
    (known : ∀ write ∈ run, write.start vol ∈ starts)
    (writes : Run (WriteStep vol) drive run after) :
    Directories vol after chain starts ∧
      Stores vol after chain starts (insertAll files (written vol run)) := by
  induction writes with
  | nil => exact ⟨directories, stores⟩
  | @snoc _ _ before write _ step ih =>
    obtain ⟨middleDirectories, middleStores⟩ := ih fun earlier member =>
      known earlier (List.mem_append_left _ member)
    have last := middleStores.step volume middleDirectories (known write (by simp)) step
    rw [written, List.filterMap_append, insertAll_append]
    exact last

end Files

/-! ## Reading -/

section Reading

variable {vol : FATVolume} {drive after : Drive} {chain : BitVec 32 → List (BitVec 32)}
  {starts front clusters directory : List (BitVec 32)} {parent : Option FATDirectory}
  {path : List (BitVec 8)} {slot : Slot} {name ext : Nat → BitVec 8} {file : File}
  {files : FileKey → Option File} {width : Nat}

/-- `FatLocateInDir` finds the entry of a file: it passes the slots in front of it. -/
theorem Filed.located (volume : LowVolume vol) (accepted : refused parent = false)
    (links : ClusterChain vol drive (directoryCluster vol parent) directory)
    (filed : Filed vol drive directory name ext file front slot clusters) :
    ∀ more, front.length < more → fatLocateInDir more name ext vol drive parent =
      .ok (front ++ [slot.cluster], slotLocation vol drive slot) := by
  obtain ⟨behind, rfl⟩ := filed.split
  have goes : ∀ cluster ∈ front ++ slot.cluster :: behind, inChain cluster = true :=
    fun cluster member => volume.formatted.inChain_data (links.allData cluster member)
  obtain ⟨stop, whole, _⟩ := links.path volume.paired.exact goes
  obtain ⟨middle, before, rest⟩ := Path.append_iff.mp whole
  obtain rfl : middle = slot.cluster := rest.1
  have passed : ∀ other, slot.Ahead vol front other →
      examine name ext (slotEntry vol drive other) = none := by
    intro other ahead
    obtain ⟨used, unnamed⟩ := filed.ahead other ahead
    exact examine_used (fun free => used ⟨ahead.1, free⟩) unnamed
  have there : locateInCluster name ext vol drive slot.cluster =
      some (slotLocation vol drive slot) := by
    have named := filed.named
    apply firstEntry_some filed.inside
    · unfold slotEntry at named
      dsimp only
      rw [named]
      rfl
    · intro other inside before
      have none := passed ⟨slot.cluster, other.s, other.index⟩ ⟨inside, .inr ⟨rfl, before⟩⟩
      unfold slotEntry at none
      dsimp only at none ⊢
      rw [none]
      rfl
  have nothing : ∀ cluster ∈ front, locateInCluster name ext vol drive cluster = none := by
    intro cluster member
    apply firstEntry_none
    intro s sInside index indexInside
    have none := passed ⟨cluster, s, index⟩ ⟨⟨sInside, indexInside⟩, .inl member⟩
    unfold slotEntry at none
    dsimp only at none ⊢
    rw [none]
    rfl
  exact fun more enough => fatLocateInDir_of_path accepted before (goes _ (by simp)) there nothing
    enough

/-- `FatRead` returns a file that a directory has. -/
theorem Filed.read (volume : LowVolume vol) (accepted : refused parent = false)
    (links : ClusterChain vol drive (directoryCluster vol parent) directory)
    (filed : Filed vol drive directory name ext file front slot clusters)
    (short : toLong width (file.size + 1) ≤ 0x7FFFFFFF) (block : Nat → BitVec 8) :
    ∃ visited contents, (∀ index < file.size.toNat, contents index = file.data index) ∧
      ∀ more, front.length + 1 + clusters.length < more →
        fatRead width more name ext vol drive parent block = .ok (visited, some contents) := by
  have exactVolume := volume.paired.exact
  have fileData := filed.chain.allData
  obtain ⟨stop, path, stops⟩ := filed.chain.path exactVolume fun cluster member =>
    volume.formatted.inChain_data (fileData cluster member)
  have cleared : memset block 0 (toLong width ((slotEntry vol drive slot).size + 1)) =
      .ok (overwrite block 0 (toLong width ((slotEntry vol drive slot).size + 1)).toNat
        fun _ => 0) := by
    rw [filed.size]
    exact if_pos short
  have reads := @readClusters_reads vol drive clusters exactVolume fileData
    ⟨overwrite block 0 (toLong width ((slotEntry vol drive slot).size + 1)).toNat fun _ => 0, 0,
      (slotEntry vol drive slot).size.toNat⟩
  refine ⟨_, _, fun index below => ?_, fun more enough => fatRead_of_path accepted
    (filed.located volume accepted links more (by omega)) rfl cleared path stops (by omega)⟩
  have fit := filed.fit
  have read := reads.contents index (by
    rw [filed.size]
    dsimp only
    omega)
  rw [Nat.zero_add] at read
  exact read.trans (filed.contents index below)

/-- `FatLocateInDir` finds nothing for a name that is absent in a directory. -/
theorem Absent.located (volume : LowVolume vol) (accepted : refused parent = false)
    (links : ClusterChain vol drive (directoryCluster vol parent) directory)
    (absent : Absent vol drive directory name ext) :
    ∃ entered, ∀ more, directory.length < more →
      fatLocateInDir more name ext vol drive parent = .ok (entered, .zero) := by
  obtain ⟨stop, path, stops⟩ := links.path volume.paired.exact fun cluster member =>
    volume.formatted.inChain_data (links.allData cluster member)
  obtain ⟨entered, located⟩ := @fatLocateInDir_slots name ext vol drive directory parent stop
    accepted path stops
  -- The search ends with the end mark, or behind the last slot.
  have zero : ((slotsOf vol directory).findSome? (examineSlot name ext vol drive)).getD .zero =
      .zero := by
    cases found : (slotsOf vol directory).findSome? (examineSlot name ext vol drive) with
    | none => rfl
    | some location =>
      obtain ⟨slot, member, examined⟩ := List.exists_of_findSome?_eq_some found
      obtain ⟨taken, result, rfl⟩ := Option.map_eq_some_iff.mp examined
      cases taken with
      | true => exact absurd result (absent slot member)
      | false => rfl
  rw [zero] at located
  exact ⟨entered, fun more enough => fatLocateInDir_mono enough located⟩

/-- `FatRead` returns nothing for a name that is absent in a directory. -/
theorem Absent.read (volume : LowVolume vol) (accepted : refused parent = false)
    (links : ClusterChain vol drive (directoryCluster vol parent) directory)
    (absent : Absent vol drive directory name ext) (block : Nat → BitVec 8) :
    ∃ visited, ∀ more, directory.length < more →
      fatRead width more name ext vol drive parent block = .ok (visited, none) := by
  obtain ⟨entered, located⟩ := absent.located volume accepted links
  refine ⟨(entered, []), fun more enough => ?_⟩
  rw [fatRead, accepted]
  exact except_bind_ok.mpr ⟨_, located more enough, rfl⟩

/-- `FatRead` returns what a directory holds under a path. -/
theorem HoldsUnder.read (volume : LowVolume vol) (accepted : refused parent = false)
    (links : ClusterChain vol drive (directoryCluster vol parent)
      (chain (directoryCluster vol parent))) {expected : Option File}
    (holds : HoldsUnder vol drive chain starts (directoryCluster vol parent) path expected)
    (short : ∀ file ∈ expected, toLong width (file.size + 1) ≤ 0x7FFFFFFF)
    (block : Nat → BitVec 8) :
    ∃ enough visited contents, Returns expected contents ∧ ∀ more, enough < more →
      fatRead width more (fatConvert83 path).1 (fatConvert83 path).2 vol drive parent block =
        .ok (visited, contents) := by
  cases expected with
  | some file =>
    obtain ⟨front, slot, clusters, filed, _⟩ := holds
    obtain ⟨visited, contents, same, reads⟩ :=
      filed.read volume accepted links (short file rfl) block
    exact ⟨_, visited, some contents, same, reads⟩
  | none =>
    have absent : Absent vol drive (chain (directoryCluster vol parent)) (fatConvert83 path).1
        (fatConvert83 path).2 := holds
    obtain ⟨visited, reads⟩ := absent.read volume accepted links block
    exact ⟨_, visited, none, trivial, reads⟩

end Reading

/-! ## A run -/

/-- A write of the file `Q` of one byte to the root. -/
def sampleWrite (value : BitVec 8) : FileWrite := ⟨none, [0x51], ⟨1, fun _ => value⟩, 0⟩

/-- The drive after such a write. -/
def writtenDrive (value : BitVec 8) (drive : Drive) : Drive :=
  stateAfter (fatWrite 2 [0x51] (fun _ => value) 1 sampleVolume none) drive

/-- The small volume ends below 4 GiB. -/
theorem sampleVolume_lowVolume : LowVolume sampleVolume :=
  ⟨sampleVolume_formatted, by decide +kernel, by decide +kernel, by decide +kernel⟩

/-- The root of the small volume begins with cluster 2. -/
theorem directoryCluster_root : directoryCluster sampleVolume none = 2 := by decide +kernel

/-- The root is the only directory. -/
theorem emptyDrive_directories : Directories sampleVolume emptyDrive (fun _ => [2]) [2] where
  chains := fun start member => by
    obtain rfl := List.mem_singleton.mp member
    exact directoryCluster_root ▸ emptyDrive_root
  apart := fun start member other otherMember different => by
    obtain rfl := List.mem_singleton.mp member
    exact absurd (List.mem_singleton.mp otherMember) different
  near := fun start _ cluster inside => by
    obtain rfl := List.mem_singleton.mp inside
    decide

/-- It holds no files. -/
theorem emptyDrive_stores : Stores sampleVolume emptyDrive (fun _ => [2]) [2] fun _ => none := by
  have empty : ∀ slot ∈ slotsOf sampleVolume [2],
      (slotEntry sampleVolume emptyDrive slot).name 0 = 0 := by
    decide +kernel
  intro start _ path _ slot member
  rw [examine_end (empty slot member)]
  decide

end Unarddeg.Fat
