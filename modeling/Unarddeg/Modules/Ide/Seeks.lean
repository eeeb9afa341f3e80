import Unarddeg.Kernel.Vfs.Seek
import Unarddeg.Modules.Ide.Faults

/-!
# Runs of descriptor calls on a drive

`open`, `lseek`, `read`, `write` and `close` on the node of a drive. `lseek` stores any `long` in
`FileOffset`, and the loops of the drive walk it as an `unsigned long`: from a position in front of
the drive they come behind the end of the address space to its start. `Careful` is what keeps a run
away from there, and `careful_stays` what it then does.
-/

namespace Unarddeg.Ide

open Library

variable {width : Nat}

/-- A node of a drive, and whether it has `VFS_OPENED`. -/
structure DriveFile (width : Nat) where
  /-- Whether it is opened. -/
  opened : Bool
  /-- The node. -/
  node : DriveNode width

/-- A call on a descriptor of the node. -/
inductive FileCall (width : Nat)
  /-- `open`. -/
  | openFile
  /-- `close`. -/
  | closeFile
  /-- `lseek`. -/
  | lseek (offset : BitVec width) (whence : Int)
  /-- `read`. -/
  | read (count : BitVec width)
  /-- `write`, and what comes of its reads. -/
  | write (faults : ReadFaults) (src : Nat → BitVec 8) (count : BitVec width)

/-- A call returns. `read` and `write` pass the number of bytes as `Size` and one as `Elements`. -/
def FileServed (file : DriveFile width) : FileCall width → DriveFile width → Prop
  | .openFile, next => file.opened = false ∧ next = { file with opened := true }
  | .closeFile, next => file.opened = true ∧ next = { file with opened := false }
  | .lseek offset whence, next => file.opened = true ∧ next.opened = true ∧
      ∃ moved, seekTo file.node.fileOffset offset whence = .ok moved ∧
        next.node = { file.node with fileOffset := moved }
  | .read count, next => file.opened = true ∧ next.opened = true ∧ ∃ dest stale answer,
      ideReadFunction (some dest) count 1 stale file.node = .ok answer next.node
  | .write faults src count, next => file.opened = true ∧ next.opened = true ∧ ∃ stale value,
      ideWriteFunctionWith faults (some src) count 1 stale file.node = .ok value next.node

/-- `IDEWriteFunction` refuses the drive, which is a present ATAPI drive. -/
def Refuses (node : DriveNode width) : Prop :=
  isDrivePresent node.drives node.drive = true ∧
    (node.drives.ideDev node.drive).type = ideAtapi

/-- The bytes from the position on end in front of the greatest position. -/
def EndsInside (node : DriveNode width) (count : BitVec width) : Prop :=
  node.fileOffset.toNat + count.toNat < 2 ^ (width - 1)

instance (node : DriveNode width) (count : BitVec width) : Decidable (EndsInside node count) :=
  inferInstanceAs (Decidable (_ < _))

/-- A seek ends at a position; the bytes of a call do, and the sectors that an ATA drive cannot read
hold zeros around those that are written. -/
def Careful (node : DriveNode width) : FileCall width → Prop
  | .openFile => True
  | .closeFile => True
  | .lseek offset whence => SeekInside node.fileOffset offset whence
  | .read count => EndsInside node count
  | .write faults _ count => Refuses node ∨ EndsInside node count ∧
      (Ready node.drives node.drive →
        BlankWhereFailed faults node.drives node.drive node.fileOffset.toNat count.toNat)

/-- A write changes only the bytes of its drive in its range. -/
def StaysInside (node next : DriveNode width) : FileCall width → Prop
  | .write _ _ count => Elsewhere node.drives next.drives node.drive ∧
      KeepsOutside node.drives next.drives node.drive node.fileOffset.toNat count.toNat
  | _ => True

/-- A call returns, and it is a careful one. -/
def CarefulStep (file : DriveFile width) (call : FileCall width) (next : DriveFile width) : Prop :=
  Careful file.node call ∧ FileServed file call next

/-! ## Drives without sectors to write -/

section Others

variable {faults : ReadFaults} {drive : Fin 4} {drives : Drives} {src : Nat → BitVec 8}

/-- Only the result of the last transfer differs. -/
def OnlyPackage (before after : Drives) : Prop := ∃ package, after = { before with package }

/-- Nothing else differs in the end either. -/
theorem OnlyPackage.trans {before middle after : Drives} (first : OnlyPackage before middle)
    (second : OnlyPackage middle after) : OnlyPackage before after := by
  obtain ⟨_, rfl⟩ := first
  obtain ⟨package, rfl⟩ := second
  exact ⟨package, rfl⟩

/-- Reading a sector changes the result of the last transfer only. -/
theorem ideReadSectorsWith_package (lba : BitVec 32) (buffer : Nat → BitVec 8) :
    OnlyPackage drives (ideReadSectorsWith faults drive lba buffer drives).2 := by
  unfold ideReadSectorsWith
  dsimp only
  split_ifs <;> exact ⟨_, rfl⟩

/-- Loading a sector does so too. -/
theorem loadSectorWith_package (bytesPerSector sector : BitVec width) (stale : Nat → BitVec 8) :
    OnlyPackage drives (loadSectorWith faults drive bytesPerSector sector stale drives).2 := by
  have read := @ideReadSectorsWith_package faults drive drives (sector.setWidth 32) stale
  unfold loadSectorWith
  split
  · exact ⟨drives.package, rfl⟩
  · dsimp only
    split
    · exact read.trans ⟨0, rfl⟩
    · exact read

/-- A sector of a drive that is no ATA drive is not written. -/
theorem ideWriteSectors_package (other : (drives.ideDev drive).type ≠ ideAta) (lba : BitVec 32)
    (buffer : Nat → BitVec 8) : OnlyPackage drives (ideWriteSectors drive lba buffer drives) := by
  unfold ideWriteSectors
  dsimp only
  rw [if_neg other]
  split_ifs <;> exact ⟨_, rfl⟩

/-- Storing a sector of such a drive writes nothing, if it is stored. -/
theorem storeSector_package (other : (drives.ideDev drive).type ≠ ideAta) (test : Prop)
    [Decidable test] (lba : BitVec 32) (buffer : Nat → BitVec 8) :
    OnlyPackage drives
      (if test then { ideWriteSectors drive lba buffer drives with package := 0 } else drives) := by
  split
  · exact (ideWriteSectors_package other lba buffer).trans ⟨0, rfl⟩
  · exact ⟨drives.package, rfl⟩

/-- A round on such a drive writes nothing. -/
theorem writeRoundWith_package {state : WriteState width} {bytes : BitVec width}
    (other : (state.drives.ideDev drive).type ≠ ideAta) (stale : Nat → BitVec 8) :
    OnlyPackage state.drives (writeRoundWith faults drive bytes src stale state).drives := by
  unfold writeRoundWith
  dsimp only
  split
  · have loaded := @loadSectorWith_package width faults drive state.drives 512
      (state.currentOffset / 512) stale
    refine loaded.trans (storeSector_package ?_ _ _ _)
    obtain ⟨package, same⟩ := loaded
    rw [same]
    exact other
  · exact storeSector_package other _ _ _

/-- The loop on such a drive writes nothing. -/
theorem writeLoopWith_package {bytes : BitVec width} (stale : Nat → Nat → BitVec 8) (rounds : Nat)
    {state : WriteState width} (other : (state.drives.ideDev drive).type ≠ ideAta) :
    OnlyPackage state.drives (writeLoopWith faults drive bytes src stale rounds state).drives := by
  induction rounds generalizing state with
  | zero => exact ⟨state.drives.package, rfl⟩
  | succ rounds ih =>
    unfold writeLoopWith
    split
    · have round := @writeRoundWith_package width faults drive src state bytes other (stale rounds)
      refine round.trans (ih ?_)
      obtain ⟨package, same⟩ := round
      rw [same]
      exact other
    · exact ⟨state.drives.package, rfl⟩

end Others

/-! ## One call -/

section Calls

variable {faults : ReadFaults} {node next : DriveNode width} {size elements : BitVec width}
  {src : Nat → BitVec 8} {stale : Nat → Nat → BitVec 8}

/-- Where only the result of the last transfer differs, a write stayed inside. -/
theorem OnlyPackage.staysInside {after : Drives} (package : OnlyPackage node.drives after)
    {offset count : Nat} : Elsewhere node.drives after node.drive ∧
      KeepsOutside node.drives after node.drive offset count := by
  obtain ⟨package, rfl⟩ := package
  exact ⟨elsewhere_package, fun _ _ _ => rfl⟩

/-- `IDEReadFunction` moves the position by its bytes. -/
theorem ideReadFunction_position {dest : Nat → BitVec 8} {answer : BitVec 32 × (Nat → BitVec 8)}
    (returned : ideReadFunction (some dest) size elements stale node = .ok answer next) :
    next.fileOffset = node.fileOffset + size * elements := by
  unfold ideReadFunction at returned
  dsimp only at returned
  by_cases empty : size = 0 ∨ elements = 0
  · rw [if_pos empty] at returned
    cases returned
    exact (empty_bytes empty).2.symm
  · rw [if_neg empty, bind_of_ok (get_ok.mpr ⟨rfl, rfl⟩)] at returned
    split at returned
    · obtain ⟨_, _, _, rest⟩ := bind_ok.mp returned
      obtain ⟨_, _, moved, same⟩ := bind_ok.mp rest
      rw [← (pure_ok.mp same).2, ← set_ok.mp moved]
    · obtain ⟨_, _, moved, same⟩ := bind_ok.mp returned
      rw [← (pure_ok.mp same).2, ← set_ok.mp moved]

/-- A write to a drive that is no ATA drive moves the position, unless the drive is refused, and
stays inside. -/
theorem ideWriteFunctionWith_other {value : BitVec 32} (other : ¬ Ready node.drives node.drive)
    (returned : ideWriteFunctionWith faults (some src) size elements stale node = .ok value next) :
    OnlyPackage node.drives next.drives ∧ (next.fileOffset = node.fileOffset ∨
      ¬ Refuses node ∧ next.fileOffset = node.fileOffset + size * elements) := by
  unfold ideWriteFunctionWith at returned
  dsimp only at returned
  by_cases empty : size = 0 ∨ elements = 0
  · rw [if_pos empty] at returned
    cases returned
    exact ⟨⟨node.drives.package, rfl⟩, .inl rfl⟩
  · rw [if_neg empty, bind_of_ok (get_ok.mpr ⟨rfl, rfl⟩)] at returned
    split at returned
    · next absent =>
      obtain ⟨_, _, moved, same⟩ := bind_ok.mp returned
      rw [← (pure_ok.mp same).2, ← set_ok.mp moved]
      exact ⟨⟨node.drives.package, rfl⟩, .inr ⟨fun refuses => absent refuses.1, rfl⟩⟩
    · next present =>
      split at returned
      · obtain ⟨_, rfl⟩ := pure_ok.mp returned
        exact ⟨⟨node.drives.package, rfl⟩, .inl rfl⟩
      · next atapi =>
        obtain ⟨_, _, moved, same⟩ := bind_ok.mp returned
        rw [← (pure_ok.mp same).2, ← set_ok.mp moved]
        refine ⟨writeLoopWith_package stale _ fun ata => other ?_,
          .inr ⟨fun refuses => atapi refuses.2, rfl⟩⟩
        have there := of_decide_eq_true (not_not.mp present)
        exact ⟨there.1, there.2, ata⟩

variable {count : BitVec width}

/-- Twice the end of the bytes of a call is a word. -/
theorem EndsInside.double (wide : 32 ≤ width) (inside : EndsInside node count) :
    2 * (node.fileOffset.toNat + count.toNat) < 2 ^ width := by
  obtain ⟨less, rfl⟩ : ∃ less, width = less + 1 := ⟨width - 1, by omega⟩
  unfold EndsInside at inside
  rw [Nat.add_sub_cancel] at inside
  rw [Nat.pow_succ]
  omega

/-- A position at the end of the bytes of a call is not negative. -/
theorem EndsInside.nonneg (wide : 32 ≤ width) (inside : EndsInside node count) :
    0 ≤ (node.fileOffset + count).toInt := by
  have double := inside.double wide
  rw [BitVec.toInt_pos_iff, BitVec.toNat_add_of_lt (by omega)]
  exact double

/-- The number of bytes that `write` passes, with one as `Elements`. -/
theorem one_element (wide : 32 ≤ width) : count.toNat * (1 : BitVec width).toNat = count.toNat := by
  have one : (1 : BitVec width).toNat = 1 := by
    rw [show (1 : BitVec width) = BitVec.ofNat width 1 from rfl, BitVec.toNat_ofNat]
    exact Nat.mod_eq_of_lt (Nat.one_lt_two_pow (by omega))
  rw [one, Nat.mul_one]

/-- A careful write ends at a position that is not negative, and stays inside. -/
theorem careful_write (wide : 32 ≤ width) {value : BitVec 32}
    (start : 0 ≤ node.fileOffset.toInt) (careful : Careful node (.write faults src count))
    (returned : ideWriteFunctionWith faults (some src) count 1 stale node = .ok value next) :
    0 ≤ next.fileOffset.toInt ∧ StaysInside node next (.write faults src count) := by
  have whole : count * 1 = count := BitVec.mul_one count
  by_cases ready : Ready node.drives node.drive
  · -- The drive is an ATA drive, which is not refused.
    have ata : ¬ Refuses node := fun refuses => ready.ata refuses.2
    obtain ⟨inside, blank⟩ := careful.resolve_left ata
    have double := inside.double wide
    have fits : Fits node.fileOffset count 1 := by
      rw [Fits, one_element wide]
      omega
    obtain ⟨_, after, ok, frame, written⟩ :=
      @Ready.ideWriteFunctionWith width faults node count 1 stale ready wide fits src
    rw [ok] at returned
    cases returned
    rw [one_element wide] at written
    dsimp only
    rw [whole]
    exact ⟨inside.nonneg wide, frame, (keepsOutside_iff written).mpr (blank ready)⟩
  · obtain ⟨package, moved⟩ := ideWriteFunctionWith_other ready returned
    refine ⟨?_, package.staysInside⟩
    rcases moved with same | ⟨taken, moved⟩
    · rw [same]
      exact start
    · rw [moved, whole]
      exact (careful.resolve_left taken).1.nonneg wide

end Calls

/-! ## Runs -/

section Runs

variable {first file next : DriveFile width} {call : FileCall width}
  {calls : List (FileCall width)}

/-- A careful call ends at a position that is not negative, and stays inside. -/
theorem CarefulStep.stays (wide : 32 ≤ width) (start : 0 ≤ file.node.fileOffset.toInt)
    (step : CarefulStep file call next) :
    0 ≤ next.node.fileOffset.toInt ∧ StaysInside file.node next.node call := by
  obtain ⟨careful, served⟩ := step
  cases call with
  | openFile =>
    obtain ⟨_, rfl⟩ := served
    exact ⟨start, trivial⟩
  | closeFile =>
    obtain ⟨_, rfl⟩ := served
    exact ⟨start, trivial⟩
  | lseek offset whence =>
    obtain ⟨_, _, moved, sought, node⟩ := served
    rw [node]
    exact ⟨careful.nonneg start sought, trivial⟩
  | read count =>
    obtain ⟨_, _, dest, stale, answer, returned⟩ := served
    have whole : count * 1 = count := BitVec.mul_one count
    rw [ideReadFunction_position returned, whole]
    exact ⟨EndsInside.nonneg wide careful, trivial⟩
  | write faults src count =>
    obtain ⟨_, _, stale, value, returned⟩ := served
    exact careful_write wide start careful returned

/-- **Careful runs.** In every run of descriptor calls on a drive in which each seek ends at a
position and each read and write does, the position is never negative, and no write changes a byte
outside its range. -/
theorem careful_stays (wide : 32 ≤ width) (start : 0 ≤ first.node.fileOffset.toInt)
    (run : Run CarefulStep first calls file) :
    0 ≤ file.node.fileOffset.toInt ∧ ∀ call next, CarefulStep file call next →
      0 ≤ next.node.fileOffset.toInt ∧ StaysInside file.node next.node call := by
  have nonneg : 0 ≤ file.node.fileOffset.toInt :=
    run.invariant (fun file => 0 ≤ file.node.fileOffset.toInt)
      (fun _ _ _ before step => (CarefulStep.stays wide before step).1) start
  exact ⟨nonneg, fun call next step => step.stays wide nonneg⟩

end Runs

/-- The drive of one sector, opened and at a position. -/
def openedAt (offset : BitVec 32) : DriveFile 32 := ⟨true, { oneSector with fileOffset := offset }⟩

/-- Two sevens are written. -/
def writeTwo : Kernel (DriveNode 32) (BitVec 32) :=
  ideWriteFunctionWith .never (some fun _ => 7) 2 1 fun _ _ => 0

/-- A write of two bytes at the end of the sector is careful. -/
theorem careful_stays_end :
    0 ≤ (stateAfter writeTwo (openedAt 510).node).fileOffset.toInt ∧
      ∀ call next, CarefulStep ⟨true, stateAfter writeTwo (openedAt 510).node⟩ call next →
        0 ≤ next.node.fileOffset.toInt ∧
          StaysInside (stateAfter writeTwo (openedAt 510).node) next.node call := by
  have opened : CarefulStep ⟨false, oneSector⟩ .openFile (openedAt 0) := ⟨trivial, rfl, rfl⟩
  have sought : CarefulStep (openedAt 0) (.lseek 510 seekSet) (openedAt 510) :=
    ⟨show SeekInside 0 510 seekSet by decide, rfl, rfl, 510, rfl, rfl⟩
  have returned : resultOf writeTwo (openedAt 510).node = some 1 := by decide +kernel
  have careful : Careful (openedAt 510).node (.write .never (fun _ => 7) 2) := by
    refine .inr ⟨by decide, fun _ position below apart spoiled => ?_⟩
    exact absurd rfl spoiled.2.2.2
  have written : CarefulStep (openedAt 510) (.write .never (fun _ => 7) 2)
      ⟨true, stateAfter writeTwo (openedAt 510).node⟩ :=
    ⟨careful, rfl, rfl, _, 1, ok_of_resultOf returned⟩
  exact careful_stays (by decide) (by decide) (.snoc (.snoc (.snoc (.nil _) opened) sought) written)

/-- A seek leads in front of the drive, and a write from there changes its first byte. -/
theorem wrapped_to_start :
    (¬ ∀ calls file, Run FileServed ⟨false, oneSector⟩ calls file →
      0 ≤ file.node.fileOffset.toInt) ∧
    ¬ ∀ calls file call next, Run FileServed ⟨false, oneSector⟩ calls file →
      FileServed file call next → StaysInside file.node next.node call := by
  have run : Run FileServed ⟨false, oneSector⟩ [.openFile, .lseek (-1) seekSet] (openedAt (-1)) :=
    .snoc (.snoc (.nil _) ⟨rfl, rfl⟩) ⟨rfl, rfl, -1, rfl, rfl⟩
  constructor
  · intro claim
    exact absurd (claim _ _ run) (by decide)
  · intro claim
    have returned : resultOf writeTwo (openedAt (-1)).node = some 1 := by decide +kernel
    have served : FileServed (openedAt (-1)) (.write .never (fun _ => 7) 2)
        ⟨true, stateAfter writeTwo (openedAt (-1)).node⟩ :=
      ⟨rfl, rfl, _, 1, ok_of_resultOf returned⟩
    have kept : content (stateAfter writeTwo (openedAt (-1)).node).drives 0 0 =
        content (openedAt (-1)).node.drives 0 0 :=
      (claim _ _ _ _ run served).2 0 (by decide) (by decide)
    have before : content (openedAt (-1)).node.drives 0 0 = 0 := by decide +kernel
    have after : content (stateAfter writeTwo (openedAt (-1)).node).drives 0 0 = 7 := by
      decide +kernel
    rw [after, before] at kept
    cases kept

end Unarddeg.Ide
