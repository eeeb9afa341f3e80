import Unarddeg.Modules.Fat.Geometry

/-!
# The bytes of a file

The loops of `FatRead` go from sector to sector, and copy as much of each as remains of the size. In
all they copy the bytes of the chain, as far as the chain and the size reach (`file_loaded`). The
byte behind the file is the zero of `memset` (`end_written`).
-/

namespace Unarddeg.Fat

open Library

/-- Rounds that read a number of bytes, or what remained of them. -/
structure Reads (source : Nat → BitVec 8) (count : Nat) (state last : ReadState) : Prop where
  /-- The pointer moves by the bytes that were read. -/
  p : last.p = state.p + min state.remaining count
  /-- Fewer bytes remain. -/
  remaining : last.remaining = state.remaining - min state.remaining count
  /-- The bytes are those of the source. -/
  contents : ∀ index < min state.remaining count, last.data (state.p + index) = source index
  /-- No other byte is written. -/
  frame : ∀ position,
    position < state.p ∨ state.p + min state.remaining count ≤ position →
      last.data position = state.data position

namespace Reads

variable {source other : Nat → BitVec 8} {count further : Nat} {state middle last : ReadState}

/-- Reading nothing. -/
theorem refl (source : Nat → BitVec 8) (state : ReadState) : Reads source 0 state state where
  p := by simp
  remaining := by simp
  contents := by simp
  frame _ _ := rfl

/-- Only the bytes that are read matter. -/
theorem congr (reads : Reads source count state last)
    (same : ∀ index < count, source index = other index) : Reads other count state last where
  p := reads.p
  remaining := reads.remaining
  contents index small :=
    (reads.contents index small).trans (same index (Nat.lt_of_lt_of_le small (Nat.min_le_right ..)))
  frame := reads.frame

/-- Reading some bytes and then those behind them. -/
theorem trans (first : Reads source count state middle)
    (second : Reads (slice source count) further middle last) :
    Reads source (count + further) state last := by
  obtain ⟨firstP, firstRemaining, firstContents, firstFrame⟩ := first
  obtain ⟨secondP, secondRemaining, secondContents, secondFrame⟩ := second
  refine ⟨by omega, by omega, fun index small => ?_, fun position outside => ?_⟩
  · by_cases old : index < count
    · rw [secondFrame _ (.inl (by omega))]
      exact firstContents index (by omega)
    · obtain ⟨later, rfl⟩ := Nat.exists_eq_add_of_le (Nat.le_of_not_lt old)
      have place : state.p + (count + later) = middle.p + later := by omega
      rw [place, secondContents later (by omega), slice]
  · rw [secondFrame position (by omega)]
    exact firstFrame position (by omega)

end Reads

section Loops

variable {vol : FATVolume} {drive : Drive} {cluster : BitVec 32} {file : List (BitVec 32)}

/-- A round of the inner loop reads a sector. -/
theorem readSectorOf_reads (vol : FATVolume) (drive : Drive) (cluster : BitVec 32) (off : Nat)
    (state : ReadState) :
    Reads (readSector vol drive (fatFirstSectorForCluster vol cluster + .ofNat 32 off))
      vol.bytes.toNat state (readSectorOf vol drive cluster state off) := by
  by_cases more : state.remaining > 0
  · rw [readSectorOf, if_pos more]
    exact ⟨rfl, rfl, fun index small => overwrite_inside small,
      fun position outside => overwrite_outside outside⟩
  · obtain none := Nat.eq_zero_of_not_pos more
    rw [readSectorOf, if_neg more]
    refine ⟨by omega, by omega, fun index small => ?_, fun _ _ => rfl⟩
    omega

/-- The first rounds of the inner loop read the beginning of the cluster. -/
theorem readSectors_reads (volume : ExactVolume vol) (isData : vol.IsData cluster)
    {rounds : Nat} (few : rounds ≤ vol.perCluster.toNat) (state : ReadState) :
    Reads (slice drive (clusterStart vol cluster)) (rounds * vol.bytes.toNat) state
      ((List.range rounds).foldl (readSectorOf vol drive cluster) state) := by
  induction rounds with
  | zero =>
    rw [Nat.zero_mul]
    exact .refl _ state
  | succ rounds ih =>
    rw [List.range_succ, List.foldl_concat, Nat.succ_mul]
    apply (ih (by omega)).trans
    apply (readSectorOf_reads vol drive cluster rounds _).congr
    intro index _
    rw [volume.readSector_data isData (by omega), slice_slice, slice]

/-- The outer loop reads the chain. -/
theorem readClusters_reads (volume : ExactVolume vol)
    (inside : ∀ cluster ∈ file, vol.IsData cluster) (state : ReadState) :
    Reads (chainByte vol drive file) (file.length * clusterBytes vol) state
      (file.foldl (readCluster vol drive) state) := by
  induction file generalizing state with
  | nil =>
    rw [List.length_nil, Nat.zero_mul]
    exact .refl _ state
  | cons cluster file ih =>
    have isData := inside cluster List.mem_cons_self
    have first : Reads (chainByte vol drive (cluster :: file)) (clusterBytes vol) state
        (readCluster vol drive state cluster) := by
      apply (readSectors_reads volume isData (Nat.le_refl _) state).congr
      intro index small
      exact (volume.chainByte_head isData small).symm
    have later := ih (fun other member => inside other (List.mem_cons_of_mem _ member))
      (readCluster vol drive state cluster)
    rw [List.length_cons, Nat.succ_mul, Nat.add_comm, List.foldl_cons]
    apply first.trans
    apply later.congr
    intro index _
    exact volume.chainByte_tail.symm

end Loops

/-! ## The whole read -/

/-- What a read of a file leaves in its block. -/
structure Loaded (vol : FATVolume) (drive : Drive) (file : List (BitVec 32)) (size : Nat)
    (block contents : Nat → BitVec 8) : Prop where
  /-- The bytes of the chain, as far as the chain and the size reach. -/
  whole : ∀ index < min size (file.length * clusterBytes vol),
    contents index = chainByte vol drive file index
  /-- Then zeros, to the one behind the file. -/
  rest : ∀ index ≤ size, min size (file.length * clusterBytes vol) ≤ index → contents index = 0
  /-- Behind it the block is as it was. -/
  behind : ∀ index > size, contents index = block index

section Files

variable {vol : FATVolume} {drive : Drive} {width fuel : Nat} {name ext : Nat → BitVec 8}
  {parent : Option FATDirectory} {block : Nat → BitVec 8} {start : BitVec 32}
  {entered file : List (BitVec 32)} {location : FATFileLocation}

/-- The loops go along a chain of clusters below the end marks, and stop behind it. -/
theorem ClusterChain.path (volume : ExactVolume vol) (chain : ClusterChain vol drive start file)
    (goes : ∀ cluster ∈ file, inChain cluster = true) :
    ∃ stop, Path inChain (fatNextCluster vol drive) start file stop ∧ inChain stop = false := by
  induction file generalizing start with
  | nil =>
    have mark : (fatIdentify vol).endMark ≤ start := chain
    rw [volume.wide] at mark
    exact ⟨start, rfl, inChain_endMark mark⟩
  | cons cluster file ih =>
    obtain ⟨rfl, isData, rest⟩ := chain
    obtain ⟨stop, path, stops⟩ := ih rest fun other member =>
      goes other (List.mem_cons_of_mem _ member)
    exact ⟨stop, ⟨rfl, goes _ List.mem_cons_self, _, volume.fatNextCluster_eq isData.inTable, path⟩,
      stops⟩

/-- The clusters of a chain have data. -/
theorem ClusterChain.allData (chain : ClusterChain vol drive start file) :
    ∀ cluster ∈ file, vol.IsData cluster := by
  intro cluster member
  obtain ⟨front, behind, rfl⟩ := List.append_of_mem member
  exact chain.isData

/-- A size below the limit of `memset` is cleared with the byte behind it. -/
theorem memset_size (long : 32 ≤ width) {size : BitVec 32} (short : size.toNat < 2 ^ 31 - 1) :
    memset block 0 (toLong width (size + 1)) =
      .ok (overwrite block 0 (size.toNat + 1) fun _ => 0) := by
  have sum : (size + 1).toNat = size.toNat + 1 := by
    rw [BitVec.toNat_add, show (1 : BitVec 32).toNat = 1 from rfl, Nat.mod_eq_of_lt (by omega)]
  have half : 2 ^ 31 ≤ 2 ^ (width - 1) := Nat.pow_le_pow_right (by decide) (by omega)
  have double : 2 ^ width = 2 * 2 ^ (width - 1) := by
    rw [← Nat.pow_succ', Nat.succ_eq_add_one, Nat.sub_add_cancel (by omega)]
  have value : toLong width (size + 1) = (size.toNat + 1 : Nat) := by
    rw [toLong, BitVec.toInt_eq_toNat_of_lt, BitVec.toNat_setWidth_of_le long, sum]
    rw [BitVec.toNat_setWidth_of_le long, sum]
    omega
  rw [memset, value, if_pos (by omega), Int.toNat_natCast]

/-- Reading a chain into a cleared block loads the file. -/
theorem Reads.loaded {size : Nat} {last : ReadState}
    (reads : Reads (chainByte vol drive file) (file.length * clusterBytes vol)
      ⟨overwrite block 0 (size + 1) fun _ => 0, 0, size⟩ last) :
    Loaded vol drive file size block last.data where
  whole index small := by
    have read := reads.contents index small
    rwa [Nat.zero_add] at read
  rest index inside behind := by
    rw [reads.frame index (.inr (by dsimp only; omega))]
    exact if_pos ⟨Nat.zero_le _, by omega⟩
  behind index beyond := by
    rw [reads.frame index (.inr (by dsimp only; omega))]
    exact if_neg fun inside => by omega

/-- **Loaded files.** `FatRead` of a file that is found returns the bytes of its chain, as far as
the chain and the size reach, and zeros behind them. Only the byte behind the file is written beyond
the size, and not by the loops. -/
theorem file_loaded (volume : ExactVolume vol) (long : 32 ≤ width)
    (located : fatLocateInDir fuel name ext vol drive parent = .ok (entered, location))
    (found : location.found = true) (short : location.dir.size.toNat < 2 ^ 31 - 1)
    (chain : ClusterChain vol drive location.dir.firstCluster file)
    (goes : ∀ cluster ∈ file, inChain cluster = true) (block : Nat → BitVec 8) :
    (∃ contents, Loaded vol drive file location.dir.size.toNat block contents ∧
      ∀ more, fuel ≤ more → file.length < more →
        fatRead width more name ext vol drive parent block =
          .ok ((entered, file), some contents)) ∧
      ∀ data index, location.dir.size.toNat ≤ index →
        (file.foldl (readCluster vol drive) ⟨data, 0, location.dir.size.toNat⟩).data index =
          data index := by
  have reads := fun data => @readClusters_reads vol drive file volume chain.allData
    ⟨data, 0, location.dir.size.toNat⟩
  refine ⟨⟨_, (reads _).loaded, fun more enough longer => ?_⟩, fun data index behind => ?_⟩
  · obtain ⟨stop, path, stops⟩ := chain.path volume goes
    exact fatRead_of_path (accepted_of_found located found) (fatLocateInDir_mono enough located)
      found (memset_size long short) path stops longer
  · apply (reads data).frame
    exact .inr (by dsimp only; omega)

end Files

/-! ## The small volume -/

/-- The file of the small volume. -/
def sampleFile : FATFileLocation := sampleLocation sampleVolume sampleDrive

/-- The offsets of the small volume are exact. -/
theorem sampleVolume_exact : ExactVolume sampleVolume :=
  (LowVolume.paired ⟨sampleVolume_formatted, by decide +kernel, by decide +kernel,
    by decide +kernel⟩).exact

/-- The file is found in the first cluster of the root. -/
theorem sampleFile_located :
    fatLocateInDir 1 sampleName sampleExt sampleVolume sampleDrive none =
      .ok ([2], sampleFile) := by
  have there := sampleLocation_eq
    (by decide +kernel :
      (locateInCluster sampleName sampleExt sampleVolume sampleDrive 2).isSome = true)
  have root : Path inChain (fatNextCluster sampleVolume sampleDrive)
      (directoryCluster sampleVolume none) [] 2 :=
    (by decide +kernel : directoryCluster sampleVolume none = 2)
  exact fatLocateInDir_of_path rfl root (by decide) there (by simp) (by decide)

/-- It has one cluster. -/
theorem sampleFile_chain :
    ClusterChain sampleVolume sampleDrive sampleFile.dir.firstCluster [3] :=
  ⟨by decide +kernel, ⟨by decide +kernel, by decide +kernel⟩,
    (by decide +kernel : FATType.endMark _ ≤ fatEntry sampleVolume sampleDrive 3)⟩

/-- The read of the file. -/
theorem file_loaded_sample : ∃ contents,
    Loaded sampleVolume sampleDrive [3] sampleFile.dir.size.toNat (fun _ => 0xFF) contents ∧
      fatRead 64 2 sampleName sampleExt sampleVolume sampleDrive none (fun _ => 0xFF) =
        .ok (([2], [3]), some contents) := by
  obtain ⟨⟨contents, loaded, read⟩, _⟩ := file_loaded sampleVolume_exact (Nat.le_add_left 32 32)
    sampleFile_located (by decide +kernel) (by decide +kernel) sampleFile_chain
    (by simp [inChain]) fun _ => 0xFF
  exact ⟨contents, loaded, read 2 (by decide) (by decide)⟩

/-- The byte behind a file is written: it was not zero, and is zero. -/
theorem end_written : ¬ ∀ (vol : FATVolume) (drive : Drive) (width fuel : Nat)
    (name ext : Nat → BitVec 8) (parent : Option FATDirectory) (block : Nat → BitVec 8)
    (entered file : List (BitVec 32)) (location : FATFileLocation), ExactVolume vol → 32 ≤ width →
    fatLocateInDir fuel name ext vol drive parent = .ok (entered, location) →
    location.found = true → location.dir.size.toNat < 2 ^ 31 - 1 →
    ClusterChain vol drive location.dir.firstCluster file →
    (∀ cluster ∈ file, inChain cluster = true) →
    ∃ more contents, fatRead width more name ext vol drive parent block =
        .ok ((entered, file), some contents) ∧
      Loaded vol drive file location.dir.size.toNat block contents ∧
      ∀ index, location.dir.size.toNat ≤ index → contents index = block index := by
  intro claim
  obtain ⟨_, contents, _, loaded, unwritten⟩ := claim sampleVolume sampleDrive 64 1 sampleName
    sampleExt none (fun _ => 0xFF) [2] [3] sampleFile sampleVolume_exact (by decide)
    sampleFile_located (by decide +kernel) (by decide +kernel) sampleFile_chain (by simp [inChain])
  have cleared := loaded.rest sampleFile.dir.size.toNat (Nat.le_refl _) (Nat.min_le_left ..)
  rw [unwritten _ (Nat.le_refl _)] at cleared
  exact absurd cleared (by decide)

end Unarddeg.Fat
