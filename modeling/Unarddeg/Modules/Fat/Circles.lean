import Unarddeg.Library.Circle
import Unarddeg.Modules.Fat.Write

/-!
# Chains that never end

`FatLocateInDir`, `FatFindFreeEntry` and `FatRead` follow the entries of the table as they find
them. They end exactly when no cluster is entered twice on the way to an end mark, or to what they
look for (`fat_ends_iff`). A function that stops elsewhere, at an entry across the end of a sector
or a size that overflows, has ended.
-/

namespace Unarddeg.Fat

open Library

/-- A function that may run out of fuel ends. -/
def Ends {α : Type} (run : (fuel : Nat) → Except Stop α) : Prop := ∃ fuel, run fuel ≠ .error .hang

/-- The clusters of a directory without a result go in a circle. -/
def DirectoryCircles (vol : FATVolume) (drive : Drive) {α : Type}
    (find : BitVec 32 → Option α) (start : BitVec 32) : Prop :=
  Circles inChain (fatNextCluster vol drive) (fun cluster => find cluster = none) start

/-- The clusters of a file go in a circle. -/
def FileCircles (vol : FATVolume) (drive : Drive) (start : BitVec 32) : Prop :=
  Circles inChain (fatNextCluster vol drive) (fun _ => True) start

/-- A file lies behind some clusters of a directory in which it is not. -/
def Holds (vol : FATVolume) (drive : Drive) (name ext : Nat → BitVec 8) (start : BitVec 32)
    (location : FATFileLocation) : Prop :=
  ∃ front here, Path inChain (fatNextCluster vol drive) start front here ∧
    inChain here = true ∧ locateInCluster name ext vol drive here = some location ∧
    ∀ cluster ∈ front, locateInCluster name ext vol drive cluster = none

section Ends

variable {vol : FATVolume} {drive : Drive} {name ext : Nat → BitVec 8} {start : BitVec 32}
  {parent : Option FATDirectory} {location : FATFileLocation} {fuel : Nat}

/-- The words of a sector do not hang. -/
theorem sectorWord_quiet (width : Nat) (sector : Nat → BitVec 8) (offset : BitVec 32) :
    sectorWord vol width sector offset ≠ .error .hang := by
  unfold sectorWord
  split <;> simp

/-- `FatNextCluster` does not hang. -/
theorem fatNextCluster_quiet (cluster : BitVec 32) :
    fatNextCluster vol drive cluster ≠ .error .hang := by
  have quiet : ∀ {α β : Type} {first : Except Stop α} {rest : α → β}, first ≠ .error .hang →
      (do return rest (← first) : Except Stop β) ≠ .error .hang := by
    intro α β first rest calm
    cases first <;> simp_all [bind, Except.bind, pure, Except.pure]
  unfold fatNextCluster
  split
  · simp
  · exact quiet (quiet (sectorWord_quiet _ _ _))
  · exact quiet (sectorWord_quiet _ _ _)
  · exact quiet (sectorWord_quiet _ _ _)

/-- A search ends exactly when it does not go in a circle. -/
theorem scan_ends_iff {α : Type} (find : BitVec 32 → Option α) :
    Ends (fun fuel => scanChain inChain (fatNextCluster vol drive) find .hang fuel start) ↔
      ¬ DirectoryCircles vol drive find start := by
  rw [DirectoryCircles, ← scanChain_stuck_iff fatNextCluster_quiet, not_forall]
  rfl

/-- A loop through a file ends exactly when it does not go in a circle. -/
theorem fold_ends_iff {σ : Type} (collect : σ → BitVec 32 → σ) (state : σ) :
    Ends (fun fuel => foldChain inChain (fatNextCluster vol drive) collect .hang fuel start state) ↔
      ¬ FileCircles vol drive start := by
  have stuck := @scanChain_stuck_iff _ _ _ inChain (fatNextCluster vol drive)
    (fun _ => (none : Option Unit)) Stop.hang start _ fatNextCluster_quiet
  simp only [eq_self] at stuck
  rw [FileCircles, ← stuck, not_forall]
  exact exists_congr fun fuel => not_congr foldChain_error

/-- A search hangs where its loop does. -/
theorem locate_hang_iff (accepted : refused parent = false) :
    fatLocateInDir fuel name ext vol drive parent = .error .hang ↔
      scanChain inChain (fatNextCluster vol drive) (locateInCluster name ext vol drive) .hang fuel
        (directoryCluster vol parent) = .error .hang := by
  rw [fatLocateInDir, accepted, if_neg Bool.false_ne_true]
  cases scanChain inChain (fatNextCluster vol drive) (locateInCluster name ext vol drive) .hang fuel
    (directoryCluster vol parent) <;> simp [bind, Except.bind, pure, Except.pure]

/-- `FatLocateInDir` ends exactly when it refuses its parent or does not go in a circle. -/
theorem locate_ends_iff : Ends (fun fuel => fatLocateInDir fuel name ext vol drive parent) ↔
    (refused parent = false →
      ¬ DirectoryCircles vol drive (locateInCluster name ext vol drive)
        (directoryCluster vol parent)) := by
  cases accepted : refused parent with
  | true =>
    have returns : fatLocateInDir 0 name ext vol drive parent ≠ .error .hang := by
      simp [fatLocateInDir, accepted]
    exact ⟨fun _ never => absurd never (by decide), fun _ => ⟨0, returns⟩⟩
  | false =>
    rw [← scan_ends_iff, imp_iff_right rfl]
    exact exists_congr fun fuel => not_congr (locate_hang_iff accepted)

/-- `FatFindFreeEntry` ends exactly when it does not go in a circle. -/
theorem findFree_ends_iff : Ends (fun fuel => fatFindFreeEntry vol fuel start drive) ↔
    ¬ DirectoryCircles vol drive (freeInCluster vol drive) start := by
  rw [← scan_ends_iff]
  refine exists_congr fun fuel => not_congr ?_
  show fatFindFreeEntry vol fuel start drive = .error .hang ↔ scanChain inChain
    (fatNextCluster vol drive) (freeInCluster vol drive) .hang fuel start = .error .hang
  unfold fatFindFreeEntry
  cases scanChain inChain (fatNextCluster vol drive) (freeInCluster vol drive) .hang fuel
    start <;> simp [bind, Except.bind, pure, Except.pure]

/-- `FatLocateInDir` finds a file where it lies, if it ends. -/
theorem locate_of_holds (accepted : refused parent = false)
    (holds : Holds vol drive name ext (directoryCluster vol parent) location)
    (ended : fatLocateInDir fuel name ext vol drive parent ≠ .error .hang) :
    ∃ entered, fatLocateInDir fuel name ext vol drive parent = .ok (entered, location) := by
  obtain ⟨front, here, path, goes, there, nothing⟩ := holds
  have more := scanChain_more (mt (locate_hang_iff accepted).mpr ended)
    (Nat.le_add_right fuel (front.length + 1))
  have whole := @scanChain_of_path _ _ _ _ _ _ Stop.hang (fuel + (front.length + 1)) _ _ _ _ path
    goes there nothing (by omega)
  refine ⟨front ++ [here], ?_⟩
  rw [fatLocateInDir, accepted, if_neg Bool.false_ne_true, ← more, whole]
  rfl

/-- What `FatLocateInDir` finds lies there. -/
theorem holds_of_locate {entered : List (BitVec 32)} (accepted : refused parent = false)
    (returned : fatLocateInDir fuel name ext vol drive parent = .ok (entered, location))
    (found : location.found = true) :
    Holds vol drive name ext (directoryCluster vol parent) location := by
  obtain ⟨front, here, _, path, goes, there, nothing⟩ :=
    fatLocateInDir_found accepted returned found
  exact ⟨front, here, path, goes, there, nothing⟩

/-- `FatRead` after the file was found. -/
def readFound (width fuel : Nat) (vol : FATVolume) (drive : Drive) (block : Nat → BitVec 8)
    (location : FATFileLocation) : Except Stop (List (BitVec 32) × ReadState) := do
  let data ← memset block 0 (toLong width (location.dir.size + 1))
  foldChain inChain (fatNextCluster vol drive) (readCluster vol drive) .hang fuel
    location.dir.firstCluster ⟨data, 0, location.dir.size.toNat⟩

/-- `FatRead` hangs in its search, or in its loop. -/
theorem read_hang_iff {width : Nat} {block : Nat → BitVec 8} (accepted : refused parent = false) :
    fatRead width fuel name ext vol drive parent block = .error .hang ↔
      fatLocateInDir fuel name ext vol drive parent = .error .hang ∨
      ∃ entered location, fatLocateInDir fuel name ext vol drive parent = .ok (entered, location) ∧
        location.found = true ∧ readFound width fuel vol drive block location = .error .hang := by
  rw [fatRead, accepted, if_neg Bool.false_ne_true]
  cases searched : fatLocateInDir fuel name ext vol drive parent with
  | error reason => simp [bind, Except.bind]
  | ok result =>
    obtain ⟨entered, location⟩ := result
    cases found : location.found with
    | false => simp [bind, Except.bind, pure, Except.pure, found]
    | true =>
      -- The file that was found is the only one.
      have only : ((.ok (entered, location) : Except Stop _) = .error .hang ∨
          ∃ entered' location', (.ok (entered, location) : Except Stop _) =
              .ok (entered', location') ∧ location'.found = true ∧
            readFound width fuel vol drive block location' = .error .hang) ↔
          readFound width fuel vol drive block location = .error Stop.hang := by
        constructor
        · rintro (stops | ⟨_, _, same, _, stuck⟩)
          · cases stops
          · obtain ⟨_, rfl⟩ := Prod.mk.inj (Except.ok.inj same)
            exact stuck
        · exact fun stuck => .inr ⟨entered, location, rfl, found, stuck⟩
      rw [only]
      unfold readFound
      simp only [bind, Except.bind, found, if_true]
      generalize memset block 0 (toLong width (location.dir.size + 1)) = cleared
      cases cleared with
      | error reason => simp
      | ok data =>
        dsimp only
        generalize foldChain inChain (fatNextCluster vol drive) (readCluster vol drive) .hang
          fuel location.dir.firstCluster ⟨data, 0, location.dir.size.toNat⟩ = folded
        cases folded <;> simp [pure, Except.pure]

/-- The loop of a file that was found ends exactly when its size is none for the block or its
clusters do not go in a circle. -/
theorem readFound_ends_iff {width : Nat} {block : Nat → BitVec 8} :
    Ends (fun fuel => readFound width fuel vol drive block location) ↔
      (toLong width (location.dir.size + 1) ≤ 0x7FFFFFFF →
        ¬ FileCircles vol drive location.dir.firstCluster) := by
  unfold readFound memset
  by_cases short : toLong width (location.dir.size + 1) ≤ 0x7FFFFFFF
  · rw [imp_iff_right short, if_pos short]
    exact fold_ends_iff _ _
  · rw [if_neg short]
    exact ⟨fun _ fits => absurd fits short, fun _ => ⟨0, by simp [bind, Except.bind]⟩⟩

/-- A loop of a file that ended ends with more fuel. -/
theorem readFound_more {width more : Nat} {block : Nat → BitVec 8} (above : fuel ≤ more)
    (ended : readFound width fuel vol drive block location ≠ .error .hang) :
    readFound width more vol drive block location ≠ .error .hang := by
  unfold readFound at ended ⊢
  cases cleared : memset block 0 (toLong width (location.dir.size + 1)) with
  | error reason =>
    rw [cleared] at ended
    exact ended
  | ok data =>
    rw [cleared] at ended
    intro stuck
    exact ended (foldChain_error.mpr
      (scanChain_stuck_less fatNextCluster_quiet (foldChain_error.mp stuck) above))

/-- `FatRead` ends exactly when it refuses its parent, or neither its search goes in a circle nor
the clusters of the file that it finds. -/
theorem read_ends_iff {width : Nat} {block : Nat → BitVec 8} :
    Ends (fun fuel => fatRead width fuel name ext vol drive parent block) ↔
      (refused parent = false →
        ¬ DirectoryCircles vol drive (locateInCluster name ext vol drive)
            (directoryCluster vol parent) ∧
          ∀ location, Holds vol drive name ext (directoryCluster vol parent) location →
            location.found = true → toLong width (location.dir.size + 1) ≤ 0x7FFFFFFF →
              ¬ FileCircles vol drive location.dir.firstCluster) := by
  cases accepted : refused parent with
  | true =>
    have returns : fatRead width 0 name ext vol drive parent block ≠ .error .hang := by
      simp [fatRead, accepted]
    exact ⟨fun _ never => absurd never (by decide), fun _ => ⟨0, returns⟩⟩
  | false =>
    have searches := @locate_ends_iff vol drive name ext parent
    rw [accepted, imp_iff_right rfl] at searches
    rw [imp_iff_right rfl, ← searches]
    constructor
    · rintro ⟨fuel, ended⟩
      rw [ne_eq, read_hang_iff accepted, not_or] at ended
      refine ⟨⟨fuel, ended.1⟩, fun location holds found =>
        (@readFound_ends_iff vol drive location width block).mp ⟨fuel, ?_⟩⟩
      intro stuck
      obtain ⟨entered, located⟩ := locate_of_holds accepted holds ended.1
      exact ended.2 ⟨entered, location, located, found, stuck⟩
    · rintro ⟨⟨fuel, searched⟩, files⟩
      cases located : fatLocateInDir fuel name ext vol drive parent with
      | error reason =>
        refine ⟨fuel, fun stuck => ?_⟩
        rcases (read_hang_iff accepted).mp stuck with stops | ⟨_, _, returned, _⟩
        · exact searched stops
        · cases located.symm.trans returned
      | ok result =>
        obtain ⟨entered, location⟩ := result
        cases found : location.found with
        | false =>
          refine ⟨fuel, fun stuck => ?_⟩
          rcases (read_hang_iff accepted).mp stuck with stops | ⟨_, _, returned, here, _⟩
          · exact searched stops
          · obtain ⟨_, rfl⟩ := Prod.mk.inj (Except.ok.inj (located.symm.trans returned))
            rw [found] at here
            cases here
        | true =>
          -- Enough fuel for the search and for the file.
          have holds := holds_of_locate accepted located found
          obtain ⟨more, ended⟩ :=
            (@readFound_ends_iff vol drive location width block).mpr (files location holds found)
          have searchedMore : fatLocateInDir (fuel + more) name ext vol drive parent ≠
              .error .hang := fun stuck =>
            searched ((locate_hang_iff accepted).mpr (scanChain_stuck_less fatNextCluster_quiet
              ((locate_hang_iff accepted).mp stuck) (Nat.le_add_right fuel more)))
          obtain ⟨entered', locatedMore⟩ := locate_of_holds accepted holds searchedMore
          refine ⟨fuel + more, fun stuck => ?_⟩
          rcases (read_hang_iff accepted).mp stuck with stops | ⟨_, _, returned, _, stops⟩
          · exact searchedMore stops
          · obtain ⟨_, rfl⟩ := Prod.mk.inj (Except.ok.inj (locatedMore.symm.trans returned))
            exact readFound_more (Nat.le_add_left more fuel) ended stops

end Ends

/-- The small volume whose root is full and leads back to itself. -/
def circleDrive : Drive := fun position =>
  if position < 1536 then driveOf [(520, 2)] position else 0x41

/-- The root of the volume is a circle. -/
theorem circleDrive_circles {α : Type} {find : BitVec 32 → Option α} (nothing : find 2 = none) :
    DirectoryCircles sampleVolume circleDrive find 2 := by
  have next : fatNextCluster sampleVolume circleDrive 2 = .ok 2 := by
    decide +kernel
  refine ⟨[], [2], 2, by simp, rfl, ⟨rfl, by decide, 2, next, rfl⟩, ?_⟩
  intro cluster member
  obtain rfl := List.mem_singleton.mp member
  exact nothing

end Unarddeg.Fat
