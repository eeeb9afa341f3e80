import Unarddeg.Modules.Fat.RoundTrip

/-!
# Searching a directory

`FatLocateInDir` of `modules/fat/main.c` against a first-match search through the slots of a
directory. The function passes over an entry whose attribute is exactly `FAT_LONG_FILE_NAME`, takes
the label of a volume for a file, and compares names as strings, which end with their first zero
byte. It finds the wanted entry exactly when no entry in front of it is taken for it
(`first_match_iff`).
-/

namespace Unarddeg.Fat

open Library

/-- The slots of a directory, in the order of its chain. -/
def slotsOf (vol : FATVolume) (directory : List (BitVec 32)) : List Slot :=
  directory.flatMap fun cluster =>
    (List.range vol.perCluster.toNat).flatMap fun s =>
      (List.range (vol.bytes.toNat / 32)).map fun index => ⟨cluster, s, index⟩

/-- The entry in a slot. -/
def slotEntry (vol : FATVolume) (drive : Drive) (slot : Slot) : FATDirectory :=
  clusterEntry vol drive slot.cluster slot.s slot.index

/-- The location of the entry in a slot. -/
def slotLocation (vol : FATVolume) (drive : Drive) (slot : Slot) : FATFileLocation where
  dir := slotEntry vol drive slot
  cluster := slot.cluster
  offset := .ofNat 32 slot.s
  index := .ofNat 32 slot.index
  found := true

/-- The directory goes on at a slot: its entry is not the end mark. -/
def Live (vol : FATVolume) (drive : Drive) (slot : Slot) : Prop :=
  (slotEntry vol drive slot).name 0 ≠ 0

instance (vol : FATVolume) (drive : Drive) (slot : Slot) : Decidable (Live vol drive slot) :=
  inferInstanceAs (Decidable (_ ≠ _))

/-- `FAT_VOLUME_ID`. -/
def fatVolumeId : BitVec 8 := 0x08

/-- The entry of a file or a directory with a name and an extension. -/
structure Wanted (name ext : Nat → BitVec 8) (entry : FATDirectory) : Prop where
  /-- It is in use. -/
  used : entry.name 0 ≠ fatUnused
  /-- It is no fragment of a long file name. -/
  short : entry.flags &&& 0x0F ≠ 0x0F
  /-- It is no label of a volume. -/
  noLabel : entry.flags &&& fatVolumeId = 0
  /-- It has the name. -/
  name : ∀ place < 8, entry.name place = name place
  /-- It has the extension. -/
  ext : ∀ place < 3, entry.ext place = ext place

/-- The conditions on a wanted entry, one after the other. -/
theorem wanted_iff (name ext : Nat → BitVec 8) (entry : FATDirectory) : Wanted name ext entry ↔
    entry.name 0 ≠ fatUnused ∧ entry.flags &&& 0x0F ≠ 0x0F ∧ entry.flags &&& fatVolumeId = 0 ∧
      (∀ place < 8, entry.name place = name place) ∧ ∀ place < 3, entry.ext place = ext place :=
  ⟨fun wanted => ⟨wanted.used, wanted.short, wanted.noLabel, wanted.name, wanted.ext⟩,
    fun ⟨used, short, noLabel, sameName, sameExt⟩ => ⟨used, short, noLabel, sameName, sameExt⟩⟩

instance (name ext : Nat → BitVec 8) (entry : FATDirectory) : Decidable (Wanted name ext entry) :=
  decidable_of_iff _ (wanted_iff name ext entry).symm

/-- The location of the first wanted entry in front of the end mark. -/
def firstWanted (name ext : Nat → BitVec 8) (vol : FATVolume) (drive : Drive)
    (slots : List Slot) : FATFileLocation :=
  ((slots.takeWhile fun slot => Live vol drive slot).find? fun slot =>
    Wanted name ext (slotEntry vol drive slot)).elim .zero (slotLocation vol drive)

/-- The slots in front of the first wanted entry and of the end mark. -/
def slotsBefore (name ext : Nat → BitVec 8) (vol : FATVolume) (drive : Drive)
    (slots : List Slot) : List Slot :=
  (slots.takeWhile fun slot => Live vol drive slot).takeWhile fun slot =>
    ¬ Wanted name ext (slotEntry vol drive slot)

/-- `FatLocateInDir` takes an entry for the wanted one: it is in use, its attribute is not exactly
that of a long file name, and its name and extension compare equal. -/
structure Taken (name ext : Nat → BitVec 8) (entry : FATDirectory) : Prop where
  /-- It is in use. -/
  used : entry.name 0 ≠ fatUnused
  /-- Its attribute is not exactly that of a long file name. -/
  flags : entry.flags ≠ fatLongFileName
  /-- Its name and its extension compare equal. -/
  compares : entryMatches name ext entry

/-- What the rounds of `FatLocateInDir` give for a slot. -/
def examineSlot (name ext : Nat → BitVec 8) (vol : FATVolume) (drive : Drive) (slot : Slot) :
    Option FATFileLocation :=
  (examine name ext (slotEntry vol drive slot)).map fun found =>
    if found then slotLocation vol drive slot else .zero

/-! ## Entries -/

section Entries

variable {name ext : Nat → BitVec 8} {entry : FATDirectory}

/-- The end mark ends the search. -/
theorem examine_end (ends : entry.name 0 = 0) : examine name ext entry = some false :=
  if_pos ends

/-- Before the end mark the search ends with an entry that is taken. -/
theorem examine_taken (live : entry.name 0 ≠ 0) (taken : Taken name ext entry) :
    examine name ext entry = some true := by
  unfold examine
  rw [if_neg live, if_neg taken.used, if_neg taken.flags, if_pos taken.compares]

/-- Before the end mark the search goes on behind an entry that is not taken. -/
theorem examine_other (live : entry.name 0 ≠ 0) (other : ¬ Taken name ext entry) :
    examine name ext entry = none := by
  unfold examine
  rw [if_neg live]
  by_cases unused : entry.name 0 = fatUnused
  · exact if_pos unused
  rw [if_neg unused]
  by_cases long : entry.flags = fatLongFileName
  · exact if_pos long
  rw [if_neg long]
  apply if_neg
  intro compares
  exact other ⟨unused, long, compares⟩

/-- A wanted entry is taken. -/
theorem Wanted.taken (wanted : Wanted name ext entry) : Taken name ext entry where
  used := wanted.used
  flags := by
    intro long
    have label := wanted.noLabel
    rw [long] at label
    exact absurd label (by decide)
  compares := by
    have names : characters 8 entry.name = characters 8 name := by
      apply List.map_congr_left
      intro place member
      exact congrArg _ (wanted.name place (List.mem_range.mp member))
    have exts : characters 3 entry.ext = characters 3 ext := by
      apply List.map_congr_left
      intro place member
      exact congrArg _ (wanted.ext place (List.mem_range.mp member))
    unfold entryMatches
    rw [names, exts, strncmp_self, strncmp_self]
    exact ⟨rfl, rfl⟩

end Entries

/-! ## Slots -/

section Slots

variable {name ext : Nat → BitVec 8} {vol : FATVolume} {drive : Drive}
  {directory : List (BitVec 32)} {slot other : Slot} {slots : List Slot}

/-- The slots of a directory are those of its clusters. -/
theorem mem_slotsOf : slot ∈ slotsOf vol directory ↔
    slot.cluster ∈ directory ∧ slot.Inside vol := by
  simp only [slotsOf, List.mem_flatMap, List.mem_map, List.mem_range]
  constructor
  · intro ⟨cluster, member, s, sector, index, entry, same⟩
    rw [← same]
    exact ⟨member, sector, entry⟩
  · intro ⟨member, sector, entry⟩
    exact ⟨slot.cluster, member, slot.s, sector, slot.index, entry, rfl⟩

/-- A chain without a circle has each slot once. -/
theorem slotsOf_nodup (acyclic : directory.Nodup) : (slotsOf vol directory).Nodup := by
  apply List.nodup_flatMap.mpr
  constructor
  · intro cluster _
    apply List.nodup_flatMap.mpr
    constructor
    · intro s _
      apply List.nodup_range.map
      intro left right same
      exact congrArg Slot.index same
    · apply List.nodup_range.imp
      intro left right different slot inLeft inRight
      obtain ⟨_, _, rfl⟩ := List.mem_map.mp inLeft
      obtain ⟨_, _, same⟩ := List.mem_map.mp inRight
      exact different (congrArg Slot.s same).symm
  · apply acyclic.imp
    intro left right different slot inLeft inRight
    simp only [List.mem_flatMap, List.mem_map] at inLeft inRight
    obtain ⟨_, _, _, _, rfl⟩ := inLeft
    obtain ⟨_, _, _, _, same⟩ := inRight
    exact different (congrArg Slot.cluster same).symm

/-- Different slots have different locations. -/
theorem slotLocation_inj (inside : slot.Inside vol) (otherInside : other.Inside vol)
    (same : slotLocation vol drive slot = slotLocation vol drive other) : slot = other := by
  obtain ⟨sector, entry⟩ := inside.small
  obtain ⟨otherSector, otherEntry⟩ := otherInside.small
  have number : ∀ left right : Nat, left < 2 ^ 11 → right < 2 ^ 11 →
      BitVec.ofNat 32 left = BitVec.ofNat 32 right → left = right := by
    intro left right leftSmall rightSmall words
    have values := congrArg BitVec.toNat words
    rw [BitVec.toNat_ofNat, BitVec.toNat_ofNat, Nat.mod_eq_of_lt (by omega),
      Nat.mod_eq_of_lt (by omega)] at values
    exact values
  apply Slot.ext
  · exact congrArg FATFileLocation.cluster same
  · exact number _ _ (by omega) (by omega) (congrArg FATFileLocation.offset same)
  · exact number _ _ entry otherEntry (congrArg FATFileLocation.index same)

/-- A search through lists one behind the other is a search for the first list with something. -/
theorem findSome?_flatMap {α β γ : Type} (items : List α) (parts : α → List β)
    (accept : β → Option γ) : (items.flatMap parts).findSome? accept =
      items.findSome? fun item => (parts item).findSome? accept := by
  induction items with
  | nil => rfl
  | cons item items ih =>
    rw [List.flatMap_cons, List.findSome?_append, ih, List.findSome?_cons]
    cases (parts item).findSome? accept with
    | none => rfl
    | some found => rfl

/-- The rounds in a cluster are a search through its slots. -/
theorem locateInCluster_eq (cluster : BitVec 32) :
    locateInCluster name ext vol drive cluster =
      (slotsOf vol [cluster]).findSome? (examineSlot name ext vol drive) := by
  unfold slotsOf locateInCluster firstEntry
  simp only [List.flatMap_cons, List.flatMap_nil, List.append_nil, findSome?_flatMap,
    List.findSome?_map]
  rfl

/-- `FatLocateInDir` is a search through the slots of the directory. -/
theorem fatLocateInDir_slots {parent : Option FATDirectory} {stop : BitVec 32}
    (accepted : refused parent = false)
    (path : Path inChain (fatNextCluster vol drive) (directoryCluster vol parent) directory stop)
    (stops : inChain stop = false) :
    ∃ entered, fatLocateInDir (directory.length + 1) name ext vol drive parent =
      .ok (entered, ((slotsOf vol directory).findSome? (examineSlot name ext vol drive)).getD
        .zero) := by
  have whole : directory.findSome? (locateInCluster name ext vol drive) =
      (slotsOf vol directory).findSome? (examineSlot name ext vol drive) := by
    unfold slotsOf
    rw [findSome?_flatMap]
    congr 1
    funext cluster
    rw [locateInCluster_eq, slotsOf, List.flatMap_cons, List.flatMap_nil, List.append_nil]
  obtain ⟨entered, scanned⟩ := @scanChain_findSome Stop (BitVec 32) FATFileLocation inChain
    (fatNextCluster vol drive) (locateInCluster name ext vol drive) .hang
    (directoryCluster vol parent) stop directory path stops
  refine ⟨entered, ?_⟩
  rw [fatLocateInDir, accepted]
  exact except_bind_ok.mpr ⟨_, scanned, by rw [whole]; rfl⟩

/-- Nothing is wanted behind the end mark. -/
theorem first_of_end (ends : ¬ Live vol drive slot) :
    firstWanted name ext vol drive (slot :: slots) = .zero ∧
      slotsBefore name ext vol drive (slot :: slots) = [] := by
  simp [firstWanted, slotsBefore, ends]

/-- A wanted entry before the end mark is the first one. -/
theorem first_of_wanted (live : Live vol drive slot)
    (wanted : Wanted name ext (slotEntry vol drive slot)) :
    firstWanted name ext vol drive (slot :: slots) = slotLocation vol drive slot ∧
      slotsBefore name ext vol drive (slot :: slots) = [] := by
  simp [firstWanted, slotsBefore, live, wanted]

/-- Behind an entry that is not wanted the search goes on. -/
theorem first_of_other (live : Live vol drive slot)
    (other : ¬ Wanted name ext (slotEntry vol drive slot)) :
    firstWanted name ext vol drive (slot :: slots) = firstWanted name ext vol drive slots ∧
      slotsBefore name ext vol drive (slot :: slots) =
        slot :: slotsBefore name ext vol drive slots := by
  simp [firstWanted, slotsBefore, live, other]

/-- The first wanted entry is in none of the slots, or is none. -/
theorem firstWanted_cases (name ext : Nat → BitVec 8) (vol : FATVolume) (drive : Drive)
    (slots : List Slot) : firstWanted name ext vol drive slots = .zero ∨
      ∃ slot ∈ slots, firstWanted name ext vol drive slots = slotLocation vol drive slot := by
  unfold firstWanted
  cases found : (slots.takeWhile fun slot => Live vol drive slot).find? fun slot =>
      Wanted name ext (slotEntry vol drive slot) with
  | none => exact .inl rfl
  | some slot =>
    have member := (List.takeWhile_sublist _).mem (List.mem_of_find?_eq_some found)
    exact .inr ⟨slot, member, rfl⟩

/-- The first slot that is examined with a result is the first wanted one exactly when no slot in
front of that is taken. -/
theorem examined_first_iff (nodup : slots.Nodup) (inside : ∀ slot ∈ slots, slot.Inside vol) :
    (slots.findSome? (examineSlot name ext vol drive)).getD .zero =
        firstWanted name ext vol drive slots ↔
      ∀ slot ∈ slotsBefore name ext vol drive slots,
        ¬ Taken name ext (slotEntry vol drive slot) := by
  induction slots with
  | nil => simp [firstWanted, slotsBefore]
  | cons slot rest ih =>
    obtain ⟨apart, nodupRest⟩ := List.nodup_cons.mp nodup
    have insideRest := fun other member => inside other (List.mem_cons_of_mem slot member)
    rw [List.findSome?_cons]
    by_cases live : Live vol drive slot
    swap
    · -- The end mark ends both searches.
      have examined : examineSlot name ext vol drive slot = some .zero := by
        rw [examineSlot, examine_end (not_not.mp live)]
        rfl
      obtain ⟨first, before⟩ := @first_of_end name ext vol drive slot rest live
      rw [examined, first, before]
      simp
    by_cases wanted : Wanted name ext (slotEntry vol drive slot)
    · have examined : examineSlot name ext vol drive slot = some (slotLocation vol drive slot) := by
        rw [examineSlot, examine_taken live wanted.taken]
        rfl
      obtain ⟨first, before⟩ := @first_of_wanted name ext vol drive slot rest live wanted
      rw [examined, first, before]
      simp
    obtain ⟨first, before⟩ := @first_of_other name ext vol drive slot rest live wanted
    rw [first, before, List.forall_mem_cons]
    by_cases taken : Taken name ext (slotEntry vol drive slot)
    · -- Its location is none that lies behind it.
      have examined : examineSlot name ext vol drive slot = some (slotLocation vol drive slot) := by
        rw [examineSlot, examine_taken live taken]
        rfl
      rw [examined]
      constructor
      · intro same
        rcases firstWanted_cases name ext vol drive rest with none | ⟨other, member, there⟩
        · rw [none] at same
          cases congrArg FATFileLocation.found same
        · rw [there] at same
          have equal := slotLocation_inj (inside slot List.mem_cons_self)
            (insideRest other member) same
          exact absurd (equal ▸ member) apart
      · intro condition
        exact absurd taken condition.1
    · have examined : examineSlot name ext vol drive slot = none := by
        rw [examineSlot, examine_other live taken]
        rfl
      rw [examined]
      dsimp only
      rw [ih nodupRest insideRest]
      simp [taken]

end Slots

/-! ## Directories -/

/-- `FatLocateInDir` returns the location of the first wanted entry of a directory. -/
def FindsFirst (name ext : Nat → BitVec 8) (vol : FATVolume) (drive : Drive)
    (parent : Option FATDirectory) (directory : List (BitVec 32)) : Prop :=
  ∃ fuel entered, fatLocateInDir fuel name ext vol drive parent =
    .ok (entered, firstWanted name ext vol drive (slotsOf vol directory))

/-- No entry in front of the first wanted one and of the end mark is taken for it. -/
def NoneTaken (name ext : Nat → BitVec 8) (vol : FATVolume) (drive : Drive)
    (directory : List (BitVec 32)) : Prop :=
  ∀ slot ∈ slotsBefore name ext vol drive (slotsOf vol directory),
    ¬ Taken name ext (slotEntry vol drive slot)

section Directories

variable {name ext : Nat → BitVec 8} {vol : FATVolume} {drive : Drive}
  {parent : Option FATDirectory} {directory : List (BitVec 32)}

/-- Along a chain without a circle the first wanted entry is found exactly when none in front of it
is taken. -/
theorem findsFirst_iff {stop : BitVec 32} (accepted : refused parent = false)
    (acyclic : directory.Nodup)
    (path : Path inChain (fatNextCluster vol drive) (directoryCluster vol parent) directory stop)
    (stops : inChain stop = false) :
    FindsFirst name ext vol drive parent directory ↔ NoneTaken name ext vol drive directory := by
  unfold NoneTaken
  rw [← examined_first_iff (slotsOf_nodup acyclic) fun slot member => (mem_slotsOf.mp member).2]
  obtain ⟨entered, returned⟩ := @fatLocateInDir_slots name ext vol drive directory parent stop
    accepted path stops
  constructor
  · intro ⟨fuel, visited, found⟩
    have more := fatLocateInDir_mono (Nat.le_max_left fuel (directory.length + 1)) found
    have same := fatLocateInDir_mono (Nat.le_max_right fuel (directory.length + 1)) returned
    exact (Prod.mk.inj (Except.ok.inj (same.symm.trans more))).2
  · intro same
    exact ⟨_, entered, same ▸ returned⟩

end Directories

/-- The chain of the root of the small volume. -/
theorem sampleDrive_root :
    ClusterChain sampleVolume sampleDrive (directoryCluster sampleVolume none) [2] :=
  ⟨by decide +kernel, ⟨by decide +kernel, by decide +kernel⟩,
    (by decide +kernel : FATType.endMark _ ≤ fatEntry sampleVolume sampleDrive 2)⟩

/-- The small volume whose root has the label `A` in front of the file `A`. -/
def labelledDrive : Drive := driveOf
  ([(520, 0xF8), (521, 0xFF), (522, 0xFF), (523, 0x0F), (524, 0xF8), (525, 0xFF), (526, 0xFF),
    (527, 0x0F), (1547, 0x08)] ++ sampleEntry 1536 ++ sampleEntry 1568)

end Unarddeg.Fat
