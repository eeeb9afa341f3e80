import Unarddeg.Modules.Fat.Write

/-!
# Free slots of a directory

`FatFindFreeEntry` and `FatWriteDirectoryEntry` of `modules/fat/main.c`. The first returns a slot as
one word, in which 16 bits are left for the cluster and eight for the index; the second takes the
word apart again. A slot arrives exactly when it fits (`free_slot_iff`).
-/

namespace Unarddeg.Fat

open Library

/-- A place for an entry of a directory. -/
@[ext]
structure Slot where
  /-- The cluster. -/
  cluster : BitVec 32
  /-- The sector in the cluster. -/
  s : Nat
  /-- The index in the sector. -/
  index : Nat
  deriving DecidableEq

/-- The word that `FatFindFreeEntry` returns for a slot. -/
def Slot.location (slot : Slot) : BitVec 32 := packLocation slot.cluster slot.s slot.index

/-- The slot for which `FatWriteDirectoryEntry` takes a word. -/
def slotAt (location : BitVec 32) : Slot where
  cluster := location >>> 16
  s := ((location >>> 8) &&& 0xFF).toNat
  index := (location &&& 0xFF).toNat

/-- Another entry in a slot. -/
def writeSlot (vol : FATVolume) (slot : Slot) (entry : FATDirectory) : Kernel Drive Unit := do
  let sector := fatFirstSectorForCluster vol slot.cluster + .ofNat 32 slot.s
  let drive ← get
  if 32 * slot.index + 32 ≤ vol.bytes.toNat then
    set (writeSector vol drive sector
      (overwrite (readSector vol drive sector) (32 * slot.index) 32 entry))
  else throw .outOfBounds

/-- The slots of a cluster. -/
def Slot.Inside (vol : FATVolume) (slot : Slot) : Prop :=
  slot.s < vol.perCluster.toNat ∧ slot.index < vol.bytes.toNat / 32

/-- A slot that holds no entry. -/
def Slot.Free (vol : FATVolume) (drive : Drive) (slot : Slot) : Prop :=
  slot.Inside vol ∧ isFree (clusterEntry vol drive slot.cluster slot.s slot.index) = true

/-- A slot comes before another one of the same cluster. -/
def Slot.Before (slot other : Slot) : Prop :=
  slot.s < other.s ∨ slot.s = other.s ∧ slot.index < other.index

/-- The first free slot of the chain of a directory; the clusters before its own have none. -/
structure FirstFree (vol : FATVolume) (drive : Drive) (dirCluster : BitVec 32)
    (front : List (BitVec 32)) (slot : Slot) : Prop where
  /-- The chain leads to the cluster. -/
  path : Path inChain (fatNextCluster vol drive) dirCluster front slot.cluster
  /-- The cluster is no end mark. -/
  goes : inChain slot.cluster = true
  /-- The slot is free. -/
  free : slot.Free vol drive
  /-- No slot of a cluster before it is free. -/
  full : ∀ other : Slot, other.cluster ∈ front → ¬ other.Free vol drive
  /-- No slot before it in the cluster is free. -/
  first : ∀ other : Slot, other.cluster = slot.cluster → other.Before slot → ¬ other.Free vol drive

/-! ## Packing -/

section Packing

variable {vol : FATVolume} {slot : Slot}

/-- `FatWriteDirectoryEntry` writes the slot that it takes from the word. -/
theorem fatWriteDirectoryEntry_eq (vol : FATVolume) (location : BitVec 32) (entry : FATDirectory) :
    fatWriteDirectoryEntry vol location entry = writeSlot vol (slotAt location) entry := by
  unfold fatWriteDirectoryEntry writeSlot slotAt
  simp only [BitVec.ofNat_toNat, BitVec.setWidth_eq]

/-- A sector of a cluster has a number of eight bits, and an entry of a sector one of eleven. -/
theorem Slot.Inside.small (inside : slot.Inside vol) : slot.s < 2 ^ 8 ∧ slot.index < 2 ^ 11 := by
  have sectors : vol.perCluster.toNat < 2 ^ 8 := by
    rw [FATVolume.perCluster, BitVec.toNat_setWidth_of_le (by decide)]
    exact vol.sectorsPerCluster.isLt
  have bytes : vol.bytes.toNat < 2 ^ 16 := by
    rw [vol.bytes_toNat]
    exact vol.bytesPerSector.isLt
  obtain ⟨sector, entry⟩ := inside
  constructor
  · omega
  · omega

/-- A bit of the word. -/
theorem getLsbD_location (slot : Slot) {place : Nat} (small : place < 32) :
    slot.location.getLsbD place =
      (decide (16 ≤ place) && slot.cluster.getLsbD (place - 16) ||
        (decide (8 ≤ place) && slot.s.testBit (place - 8)) || slot.index.testBit place) := by
  unfold Slot.location packLocation
  have shift : place - 8 < 32 := by omega
  simp only [BitVec.getLsbD_or, BitVec.getLsbD_shiftLeft, BitVec.getLsbD_ofNat, small, shift,
    decide_true, Bool.true_and]
  have middle : (!decide (place < 8)) = decide (8 ≤ place) := by
    rw [Bool.eq_iff_iff]
    simp only [Bool.not_eq_true', decide_eq_false_iff_not, decide_eq_true_eq, Nat.not_lt]
  have high : (!decide (place < 16)) = decide (16 ≤ place) := by
    rw [Bool.eq_iff_iff]
    simp only [Bool.not_eq_true', decide_eq_false_iff_not, decide_eq_true_eq, Nat.not_lt]
  rw [middle, high]

/-- The upper half of the word is the lower half of the cluster. -/
theorem location_cluster (inside : slot.Inside vol) :
    (slot.location >>> 16).toNat = slot.cluster.toNat % 2 ^ 16 := by
  obtain ⟨sector, entry⟩ := inside.small
  apply Nat.eq_of_testBit_eq
  intro place
  rw [Nat.testBit_mod_two_pow, BitVec.testBit_toNat, BitVec.testBit_toNat,
    BitVec.getLsbD_ushiftRight]
  by_cases low : place < 16
  · have noSector : slot.s.testBit (16 + place - 8) = false :=
      Nat.testBit_lt_two_pow (Nat.lt_of_lt_of_le sector (Nat.pow_le_pow_right (by decide)
        (by omega)))
    have noIndex : slot.index.testBit (16 + place) = false :=
      Nat.testBit_lt_two_pow (Nat.lt_of_lt_of_le entry (Nat.pow_le_pow_right (by decide)
        (by omega)))
    rw [getLsbD_location slot (by omega), noSector, noIndex, Nat.add_sub_cancel_left]
    simp [low]
  · rw [BitVec.getLsbD_of_ge _ _ (by omega)]
    simp [low]

/-- The lowest eight bits of the word are those of the index. -/
theorem location_index (slot : Slot) : (slot.location &&& 0xFF).toNat = slot.index % 2 ^ 8 := by
  have mask : ∀ place < 32, (0xFF : BitVec 32).getLsbD place = decide (place < 8) := by
    decide
  apply Nat.eq_of_testBit_eq
  intro place
  rw [Nat.testBit_mod_two_pow, BitVec.testBit_toNat, BitVec.getLsbD_and]
  by_cases low : place < 8
  · rw [mask place (by omega), getLsbD_location slot (by omega)]
    have noCluster : ¬ 16 ≤ place := by omega
    have noSector : ¬ 8 ≤ place := by omega
    simp [low, noCluster, noSector]
  · by_cases wide : place < 32
    · rw [mask place wide]
      simp [low]
    · rw [BitVec.getLsbD_of_ge _ _ (by omega)]
      simp [low]

/-- The bits between are those of the sector, if the index leaves them free. -/
theorem location_s (inside : slot.Inside vol) (fits : slot.index < 2 ^ 8) :
    ((slot.location >>> 8) &&& 0xFF).toNat = slot.s := by
  obtain ⟨sector, _⟩ := inside.small
  have mask : ∀ place < 32, (0xFF : BitVec 32).getLsbD place = decide (place < 8) := by
    decide
  apply Nat.eq_of_testBit_eq
  intro place
  rw [BitVec.testBit_toNat, BitVec.getLsbD_and, BitVec.getLsbD_ushiftRight]
  by_cases low : place < 8
  · have noIndex : slot.index.testBit (8 + place) = false :=
      Nat.testBit_lt_two_pow (Nat.lt_of_lt_of_le fits (Nat.pow_le_pow_right (by decide)
        (by omega)))
    have noCluster : ¬ 16 ≤ 8 + place := by omega
    rw [mask place (by omega), getLsbD_location slot (by omega), noIndex, Nat.add_sub_cancel_left]
    simp [low, noCluster]
  · have noSector : slot.s.testBit place = false :=
      Nat.testBit_lt_two_pow (Nat.lt_of_lt_of_le sector (Nat.pow_le_pow_right (by decide)
        (by omega)))
    rw [noSector]
    by_cases wide : place < 32
    · rw [mask place wide]
      simp [low]
    · rw [BitVec.getLsbD_of_ge (0xFF : BitVec 32) place (by omega), Bool.and_false]

/-- A slot is taken from its word exactly when it fits: the cluster 16 bits, the index eight. -/
theorem slotAt_location_iff (inside : slot.Inside vol) :
    slotAt slot.location = slot ↔ slot.cluster.toNat < 2 ^ 16 ∧ slot.index < 2 ^ 8 := by
  have cluster := location_cluster inside
  have index := location_index slot
  constructor
  · intro same
    have sameCluster : slot.location >>> 16 = slot.cluster := congrArg Slot.cluster same
    have sameIndex : (slot.location &&& 0xFF).toNat = slot.index := congrArg Slot.index same
    rw [sameCluster] at cluster
    rw [sameIndex] at index
    have clusterBelow := Nat.mod_lt slot.cluster.toNat (show 0 < 2 ^ 16 by decide)
    have indexBelow := Nat.mod_lt slot.index (show 0 < 2 ^ 8 by decide)
    constructor
    · omega
    · omega
  · intro ⟨clusterFits, indexFits⟩
    apply Slot.ext
    · apply BitVec.eq_of_toNat_eq
      exact cluster.trans (Nat.mod_eq_of_lt clusterFits)
    · exact location_s inside indexFits
    · exact index.trans (Nat.mod_eq_of_lt indexFits)

/-- The word of a slot that fits is not the one that stands for none. -/
theorem location_ne_zero (valid : 2 ≤ slot.cluster.toNat) (same : slotAt slot.location = slot) :
    slot.location ≠ 0 := by
  intro zero
  have cluster : slot.location >>> 16 = slot.cluster := congrArg Slot.cluster same
  rw [zero] at cluster
  rw [← cluster] at valid
  exact absurd valid (by decide)

end Packing

/-! ## The search -/

/-- A search through numbers stops at the first one that is accepted. -/
theorem findSome?_range {α : Type} {accept : Nat → Option α} {count : Nat} {result : α}
    (found : (List.range count).findSome? accept = some result) :
    ∃ number < count, accept number = some result ∧ ∀ less < number, accept less = none := by
  obtain ⟨front, number, back, split, accepted, before⟩ := List.findSome?_eq_some_iff.mp found
  have place : (List.range count)[front.length]? = some number := by
    rw [split]
    simp
  obtain ⟨below, value⟩ := List.getElem?_eq_some_iff.mp place
  rw [List.getElem_range] at value
  rw [List.length_range] at below
  refine ⟨number, by omega, accepted, ?_⟩
  intro less smaller
  apply before
  have member : (List.range count)[less]? = some less := List.getElem?_range (by omega)
  rw [split, List.getElem?_append_left (by omega)] at member
  exact List.mem_of_getElem? member

section Search

variable {vol : FATVolume} {drive : Drive} {cluster dirCluster stop : BitVec 32}
  {front : List (BitVec 32)} {slot : Slot} {fuel : Nat}

/-- A cluster gives nothing exactly when none of its slots is free. -/
theorem freeInCluster_none_iff : freeInCluster vol drive cluster = none ↔
    ∀ other : Slot, other.cluster = cluster → ¬ other.Free vol drive := by
  unfold freeInCluster firstEntry
  constructor
  · intro nothing other same free
    obtain ⟨⟨s, index⟩, entry⟩ := free
    have sector := List.findSome?_eq_none_iff.mp nothing other.s (List.mem_range.mpr s)
    have refused := List.findSome?_eq_none_iff.mp sector other.index (List.mem_range.mpr index)
    dsimp only at refused
    rw [← same, if_pos entry] at refused
    cases refused
  · intro full
    apply List.findSome?_eq_none_iff.mpr
    intro s sInside
    apply List.findSome?_eq_none_iff.mpr
    intro index indexInside
    apply if_neg
    intro free
    exact full ⟨cluster, s, index⟩ rfl
      ⟨⟨List.mem_range.mp sInside, List.mem_range.mp indexInside⟩, free⟩

/-- A cluster that gives something gives the word of its first free slot. -/
theorem freeInCluster_some {location : BitVec 32}
    (found : freeInCluster vol drive cluster = some location) :
    ∃ slot : Slot, slot.cluster = cluster ∧ slot.Free vol drive ∧ slot.location = location ∧
      ∀ other : Slot, other.cluster = cluster → other.Before slot → ¬ other.Free vol drive := by
  unfold freeInCluster firstEntry at found
  obtain ⟨s, sInside, sector, sectorsBefore⟩ := findSome?_range found
  obtain ⟨index, indexInside, accepted, entriesBefore⟩ := findSome?_range sector
  dsimp only at accepted sectorsBefore entriesBefore
  by_cases free : isFree (clusterEntry vol drive cluster s index) = true
  · rw [if_pos free] at accepted
    refine ⟨⟨cluster, s, index⟩, rfl, ⟨⟨sInside, indexInside⟩, free⟩,
      Option.some.inj accepted, ?_⟩
    intro other same before otherFree
    obtain ⟨⟨otherS, otherIndex⟩, otherEntry⟩ := otherFree
    rw [same] at otherEntry
    rcases before with earlier | ⟨sameS, earlier⟩
    · have nothing := List.findSome?_eq_none_iff.mp (sectorsBefore other.s earlier) other.index
        (List.mem_range.mpr otherIndex)
      rw [if_pos otherEntry] at nothing
      cases nothing
    · have nothing := entriesBefore other.index earlier
      dsimp only at sameS
      rw [← sameS, if_pos otherEntry] at nothing
      cases nothing
  · rw [if_neg free] at accepted
    cases accepted

/-- A chain with a free slot has a first one. -/
theorem exists_firstFree (path : Path inChain (fatNextCluster vol drive) dirCluster front stop)
    (goes : inChain stop = true) (free : ∃ slot : Slot, slot.cluster = stop ∧ slot.Free vol drive) :
    ∃ before slot, before.length ≤ front.length ∧ FirstFree vol drive dirCluster before slot ∧
      (slot.cluster ∈ front ∨ slot.cluster = stop) := by
  have first : ∀ link, inChain link = true →
      (∃ slot : Slot, slot.cluster = link ∧ slot.Free vol drive) →
      ∃ slot, FirstFree vol drive link [] slot ∧ slot.cluster = link := by
    intro link linkGoes ⟨slot, there, slotFree⟩
    cases found : freeInCluster vol drive link with
    | none => exact absurd slotFree (freeInCluster_none_iff.mp found slot there)
    | some location =>
      obtain ⟨slot, here, isFree, _, before⟩ := freeInCluster_some found
      refine ⟨slot, ⟨here.symm, here ▸ linkGoes, isFree, ?_, ?_⟩, here⟩
      · intro other member
        cases member
      · intro other same
        exact before other (same.trans here)
  induction front generalizing dirCluster with
  | nil =>
    obtain rfl := path
    obtain ⟨slot, found, here⟩ := first _ goes free
    exact ⟨[], slot, Nat.le_refl _, found, .inr here⟩
  | cons link front ih =>
    obtain ⟨rfl, linkGoes, after, leads, path⟩ := path
    by_cases here : ∃ slot : Slot, slot.cluster = dirCluster ∧ slot.Free vol drive
    · obtain ⟨slot, found, there⟩ := first _ linkGoes here
      exact ⟨[], slot, Nat.zero_le _, found, .inl (there ▸ List.mem_cons_self)⟩
    · obtain ⟨before, slot, shorter, found, inside⟩ := ih path
      refine ⟨dirCluster :: before, slot, ?_, ⟨⟨rfl, linkGoes, after, leads, found.path⟩,
        found.goes, found.free, ?_, found.first⟩, ?_⟩
      · simpa using shorter
      · intro other member otherFree
        rcases List.mem_cons.mp member with same | later
        · exact here ⟨other, same, otherFree⟩
        · exact found.full other later otherFree
      · exact inside.imp (List.mem_cons_of_mem _) id

/-- `FatFindFreeEntry` returns the word of the first free slot. -/
theorem FirstFree.fatFindFreeEntry_ok (first : FirstFree vol drive dirCluster front slot)
    (enough : front.length < fuel) :
    fatFindFreeEntry vol fuel dirCluster drive = .ok slot.location := by
  have nothing : ∀ link ∈ front, freeInCluster vol drive link = none := by
    intro link member
    apply freeInCluster_none_iff.mpr
    intro other same
    exact first.full other (same ▸ member)
  have there : freeInCluster vol drive slot.cluster = some slot.location := by
    cases found : freeInCluster vol drive slot.cluster with
    | none => exact absurd first.free (freeInCluster_none_iff.mp found slot rfl)
    | some location =>
      obtain ⟨other, same, otherFree, word, before⟩ := freeInCluster_some found
      -- Of two first free slots of a cluster none comes before the other.
      have notBefore : ¬ slot.Before other := fun earlier => before slot rfl earlier first.free
      have notBehind : ¬ other.Before slot := fun earlier =>
        first.first other same earlier otherFree
      have equal : other = slot := by
        unfold Slot.Before at notBefore notBehind
        apply Slot.ext
        · exact same
        · omega
        · omega
      rw [← word, equal]
  have scanned : scanChain inChain (fatNextCluster vol drive) (freeInCluster vol drive) .hang fuel
      dirCluster = .ok (front ++ [slot.cluster], some slot.location) :=
    scanChain_of_path first.path first.goes there nothing enough
  unfold fatFindFreeEntry
  rw [scanned]
  rfl

end Search

/-- The boot sector of a volume of 64 MiB with 32-bit entries. -/
def wideBoot : Nat → BitVec 8
  | 12 => 2
  | 13 => 1
  | 14 => 1
  | 16 => 2
  | 34 => 2
  | 37 => 4
  | 44 => 2
  | 66 => 0x29
  | _ => 0

/-- The volume of 64 MiB. -/
def wideVolume : FATVolume := ⟨wideBoot, 0⟩

/-- The boot sector describes the volume. -/
theorem wideVolume_formatted : Formatted wideVolume where
  sectorSize := by decide +kernel
  perCluster := by decide +kernel
  fatCount := by decide +kernel
  fits := by decide +kernel
  covers := by decide +kernel
  clusters := by decide +kernel

/-- The first slot of an empty cluster. -/
theorem free_emptySlot (cluster : BitVec 32) :
    Slot.Free wideVolume (fun _ => 0) ⟨cluster, 0, 0⟩ := by
  have sectors : 0 < wideVolume.perCluster.toNat := by decide +kernel
  have entries : 0 < wideVolume.bytes.toNat / 32 := by decide +kernel
  exact ⟨⟨sectors, entries⟩, decide_eq_true (.inl rfl)⟩

end Unarddeg.Fat
