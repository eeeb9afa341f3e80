import Unarddeg.Modules.Devices

/-!
# One contract for all devices

The read and write functions that the kernel and its modules install, as one family. For each the
contract of a call, whatever the call finds in memory and whatever arrives, holds exactly under an
arithmetic condition on `Size` and `Elements` and on the device.
-/

namespace Unarddeg

open Library

section Uniform

variable {width : Nat}

/-- A read or write function that is installed on a node. -/
inductive Installed (width : Nat)
  | nullRead
  | nullWrite
  | randomRead
  | randomWrite
  | serialRead (flags : BitVec width)
  | serialWrite (flags : BitVec width)
  /-- For the `sizeof(Task)` of the port. -/
  | taskRead (taskSize : Nat)
  | taskWrite (taskSize : Nat)
  | ideRead (node : Ide.DriveNode width)
  | ideWrite (node : Ide.DriveNode width)
  | pciRead
  | pciWrite
  | keyboardRead (flags : BitVec width)
  | mouseRead

/-- What a call finds. -/
structure Surroundings where
  /-- The memory from `Buf` on. -/
  buf : Nat → BitVec 8
  /-- The memory that `DriverData` points to. -/
  driverData : Nat → BitVec 8
  /-- The characters that arrive. -/
  input : List (BitVec 8)
  /-- The packet that the mouse completes. -/
  packet : Option (Nat → BitVec 8)
  /-- `Ticks`. -/
  ticks : BitVec 64
  /-- The generator. -/
  entropy : Entropy
  /-- The values that C leaves open. -/
  overlong : BitVec 8 → Nat → BitVec 32
  /-- The bytes that C leaves in the buffers of a drive. -/
  stale : Nat → Nat → BitVec 8

/-- A call with a buffer. -/
def Installed.call (function : Installed width) (around : Surroundings)
    (size elements : BitVec width) : Except Stop Transfer :=
  let buf := some around.buf
  match function with
  | nullRead => (nullReadFunction buf size elements).map Prod.fst
  | nullWrite => nullWriteFunction buf size elements
  | randomRead =>
    (randomReadFunction around.ticks around.entropy buf size elements).map Prod.fst
  | randomWrite =>
    (randomWriteFunction around.overlong around.entropy buf size elements).map Prod.fst
  | serialRead flags => (serialReadFunction flags around.input buf size elements).map Prod.fst
  | serialWrite flags => (serialWriteFunction flags buf size elements).map Prod.fst
  | taskRead taskSize => (taskReadBytes taskSize around.driverData buf size elements).map Prod.fst
  | taskWrite taskSize => (taskWriteBytes taskSize around.driverData buf size elements).map Prod.fst
  | ideRead node => ideReadCall around.stale node buf size elements
  | ideWrite node => ideWriteCall around.stale node buf size elements
  | pciRead => (pciReadFunction around.driverData buf size elements).map Prod.fst
  | pciWrite => (pciWriteFunction around.driverData buf size elements).map Prod.fst
  | keyboardRead flags => (ps2KeyboardRead flags around.input buf size elements).map Prod.fst
  | mouseRead => (ps2MouseRead around.packet buf size elements).map Prod.fst

/-- Only a terminal may poll for ever, and only when too few characters arrive. -/
def Installed.short (function : Installed width) (around : Surroundings)
    (size elements : BitVec width) : Prop :=
  match function with
  | serialRead _ | keyboardRead _ => TooShort size elements around.input
  | _ => False

/-- The contract of a function at a size and a number of elements, in all surroundings. -/
def Installed.Uniform (function : Installed width) (size elements : BitVec width) : Prop :=
  ∀ around, KeepsContract size elements (function.short around size elements)
    (function.call around size elements)

/-- The condition of a drive's function: an empty request asks for no elements, and any other one
is not refused and has its elements counted. -/
def driveMeets (refused : Prop) (size elements : BitVec width) : Prop :=
  if size = 0 ∨ elements = 0 then elements = 0
  else ¬ refused ∧ ElementsCounted size.toNat elements.toNat (size * elements).toNat

/-- When a function meets the contract. -/
def Installed.Meets (function : Installed width) (size elements : BitVec width) : Prop :=
  let bytes := size * elements
  match function with
  | nullRead => bytes.toInt ≤ 0x7FFFFFFF ∧
      ElementsCounted size.toNat elements.toNat bytes.toInt.toNat
  | nullWrite | randomRead | randomWrite =>
      ElementsCounted size.toNat elements.toNat bytes.toNat
  | serialRead _ => size ≠ 0 ∧ bytes.toNat / size.toNat < 2 ^ 31
  | serialWrite _ => BytesCounted size.toNat elements.toNat bytes.toNat
  | taskRead taskSize | taskWrite taskSize =>
      bytes.toNat ≤ taskSize ∧ BytesCounted size.toNat elements.toNat bytes.toNat
  | ideRead node =>
      driveMeets (¬ Ide.isDrivePresent node.drives node.drive ∧ 0x7FFFFFFF < bytes.toInt)
        size elements
  | ideWrite node =>
      driveMeets (Ide.isDrivePresent node.drives node.drive ∧
        (node.drives.ideDev node.drive).type = Ide.ideAtapi) size elements
  | pciRead | pciWrite =>
      ElementsCounted size.toNat elements.toNat (min bytes.toNat sizeofPci)
  | keyboardRead flags =>
      size ≠ 0 ∧ bytes.toNat / size.toNat < 2 ^ 31 ∧ (bytes ≠ 0 → ¬ isSet flags ttyEcho)
  | mouseRead => size ≠ 0

variable {size elements : BitVec width} {function : Installed width}

/-- Surroundings in which nothing arrives. -/
instance inhabitedSurroundings : Inhabited Surroundings :=
  ⟨⟨fun _ => 0, fun _ => 0, [], none, 0, ⟨0, 0⟩, fun _ _ => 0, fun _ _ => 0⟩⟩

/-- Where the surroundings do not matter, one call decides the contract. -/
theorem uniform_of_same {condition : Prop}
    (same : ∀ around, KeepsContract size elements (function.short around size elements)
      (function.call around size elements) ↔ condition) :
    function.Uniform size elements ↔ condition :=
  ⟨fun keeps => (same default).mp (keeps default), fun holds around => (same around).mpr holds⟩

/-- A drive's function that returns `Elements` and goes on by all bytes. -/
theorem transferOf_iff {α : Type} {result : α → BitVec 32} {value : α} {short : Prop}
    {node after : Ide.DriveNode width} (counts : result value = asInt elements)
    (moved : after.fileOffset = node.fileOffset + size * elements) :
    KeepsContract size elements short (transferOf result node (.ok value after)) ↔
      ElementsCounted size.toNat elements.toNat (size * elements).toNat := by
  have difference : after.fileOffset - node.fileOffset = size * elements := by
    rw [moved, BitVec.add_comm, BitVec.add_sub_cancel]
  simp only [transferOf, counts, difference]
  exact elements_iff

/-- An empty request of a drive returns 0 and stays. -/
theorem transferOf_empty {α : Type} {result : α → BitVec 32} {value : α} {short : Prop}
    {node : Ide.DriveNode width} (empty : size = 0 ∨ elements = 0) (zero : result value = 0) :
    KeepsContract size elements short (transferOf result node (.ok value node)) ↔
      elements = 0 := by
  have nothing : size.toNat * elements.toNat = 0 := by
    cases empty with
    | inl none => simp [none]
    | inr none => simp [none]
  have stays : (node.fileOffset - node.fileOffset).toNat = 0 := by simp
  simp only [transferOf, KeepsContract, wholeElements, nothing, stays, if_true, zero]
  rw [BitVec.toNat_eq]
  constructor
  · intro same
    exact (Int.natCast_eq_zero.mp same.symm)
  · intro none
    exact (Int.natCast_eq_zero.mpr none).symm

/-- A read of elements that an absent drive's `memset` can clear returns `Elements`. -/
theorem ideRead_returns {node : Ide.DriveNode width} {stale : Nat → Nat → BitVec 8}
    (dest : Nat → BitVec 8) (asked : ¬ (size = 0 ∨ elements = 0))
    (accepted : ¬ (¬ Ide.isDrivePresent node.drives node.drive ∧
      0x7FFFFFFF < (size * elements).toInt)) :
    ∃ stored drives, Ide.ideReadFunction (some dest) size elements stale node =
      .ok (asInt elements, stored)
        { node with fileOffset := node.fileOffset + size * elements, drives } := by
  unfold Ide.ideReadFunction
  by_cases present : Ide.isDrivePresent node.drives node.drive
  · let last := Ide.readLoop node.drive
      (if (node.drives.ideDev node.drive).type = Ide.ideAtapi then 2048 else 512) (size * elements)
      stale (size * elements).toNat ⟨size * elements, node.fileOffset, dest, node.drives⟩
    refine ⟨last.dest, last.drives,
      (congrFun (if_neg asked) node).trans (bind_ok.mpr ⟨node, node, rfl, ?_⟩)⟩
    dsimp only
    rw [if_neg (not_not.mpr present)]
    exact bind_ok.mpr ⟨⟨⟩, _, rfl, rfl⟩
  · have fits : (size * elements).toInt ≤ 0x7FFFFFFF :=
      Int.not_lt.mp fun long => accepted ⟨present, long⟩
    refine ⟨overwrite dest 0 (size * elements).toInt.toNat fun _ => 0, node.drives,
      (congrFun (if_neg asked) node).trans (bind_ok.mpr ⟨node, node, rfl, ?_⟩)⟩
    dsimp only
    rw [if_pos present, memset, if_pos fits]
    exact bind_ok.mpr ⟨_, _, rfl, bind_ok.mpr ⟨⟨⟩, _, rfl, rfl⟩⟩

/-- A longer read from an absent drive overflows the counter of `memset`. -/
theorem ideRead_stops {node : Ide.DriveNode width} {stale : Nat → Nat → BitVec 8}
    (dest : Nat → BitVec 8) (asked : ¬ (size = 0 ∨ elements = 0))
    (absent : ¬ Ide.isDrivePresent node.drives node.drive)
    (long : 0x7FFFFFFF < (size * elements).toInt) :
    Ide.ideReadFunction (some dest) size elements stale node = .error .outOfBounds node := by
  unfold Ide.ideReadFunction
  refine (congrFun (if_neg asked) node).trans ((bind_of_ok rfl).trans ?_)
  dsimp only
  rw [if_pos absent, memset, if_neg (Int.not_le.mpr long)]
  exact bind_of_error rfl

/-- A write to a drive that is not a present ATAPI drive returns `Elements`. -/
theorem ideWrite_returns {node : Ide.DriveNode width} {stale : Nat → Nat → BitVec 8}
    (src : Nat → BitVec 8) (asked : ¬ (size = 0 ∨ elements = 0))
    (accepted : ¬ (Ide.isDrivePresent node.drives node.drive ∧
      (node.drives.ideDev node.drive).type = Ide.ideAtapi)) :
    ∃ drives, Ide.ideWriteFunction (some src) size elements stale node =
      .ok (asInt elements)
        { node with fileOffset := node.fileOffset + size * elements, drives } := by
  unfold Ide.ideWriteFunction
  by_cases present : Ide.isDrivePresent node.drives node.drive
  · have ata : ¬ (node.drives.ideDev node.drive).type = Ide.ideAtapi := fun same =>
      accepted ⟨present, same⟩
    let last := Ide.writeLoop node.drive (size * elements) src stale (size * elements).toNat
      ⟨size * elements, node.fileOffset, node.drives⟩
    refine ⟨last.drives, (congrFun (if_neg asked) node).trans (bind_ok.mpr ⟨node, node, rfl, ?_⟩)⟩
    dsimp only
    rw [if_neg (not_not.mpr present), if_neg ata]
    exact bind_ok.mpr ⟨⟨⟩, _, rfl, rfl⟩
  · refine ⟨node.drives, (congrFun (if_neg asked) node).trans (bind_ok.mpr ⟨node, node, rfl, ?_⟩)⟩
    dsimp only
    rw [if_pos present]
    exact bind_ok.mpr ⟨⟨⟩, _, rfl, rfl⟩

/-- A write to a present ATAPI drive is refused. -/
theorem ideWrite_refused {node : Ide.DriveNode width} {stale : Nat → Nat → BitVec 8}
    (src : Nat → BitVec 8) (asked : ¬ (size = 0 ∨ elements = 0))
    (present : Ide.isDrivePresent node.drives node.drive)
    (atapi : (node.drives.ideDev node.drive).type = Ide.ideAtapi) :
    Ide.ideWriteFunction (some src) size elements stale node = .ok (-1) node := by
  unfold Ide.ideWriteFunction
  refine (congrFun (if_neg asked) node).trans ((bind_of_ok rfl).trans ?_)
  dsimp only
  rw [if_neg (not_not.mpr present), if_pos atapi]
  rfl

/-- `IDEReadFunction`. -/
theorem ideRead_iff {node : Ide.DriveNode width} {around : Surroundings} :
    KeepsContract size elements False
        (ideReadCall around.stale node (some around.buf) size elements) ↔
      (Installed.ideRead node).Meets size elements := by
  simp only [Installed.Meets, driveMeets]
  by_cases empty : size = 0 ∨ elements = 0
  · rw [if_pos empty]
    have returned : Ide.ideReadFunction (some around.buf) size elements around.stale node =
        .ok (0, around.buf) node := congrFun (if_pos empty) node
    rw [ideReadCall, returned]
    exact transferOf_empty empty rfl
  · rw [if_neg empty]
    by_cases accepted : ¬ (¬ Ide.isDrivePresent node.drives node.drive ∧
        0x7FFFFFFF < (size * elements).toInt)
    · obtain ⟨stored, drives, returned⟩ := ideRead_returns around.buf empty accepted
      rw [ideReadCall, returned, and_iff_right accepted]
      exact transferOf_iff rfl rfl
    · have absent := not_not.mp accepted
      rw [ideReadCall, ideRead_stops around.buf empty absent.1 absent.2]
      exact iff_of_false id fun both => accepted both.1

/-- `IDEWriteFunction`. -/
theorem ideWrite_iff {node : Ide.DriveNode width} {around : Surroundings} :
    KeepsContract size elements False
        (ideWriteCall around.stale node (some around.buf) size elements) ↔
      (Installed.ideWrite node).Meets size elements := by
  simp only [Installed.Meets, driveMeets]
  by_cases empty : size = 0 ∨ elements = 0
  · rw [if_pos empty]
    have returned : Ide.ideWriteFunction (some around.buf) size elements around.stale node =
        .ok 0 node := congrFun (if_pos empty) node
    rw [ideWriteCall, returned]
    exact transferOf_empty empty rfl
  · rw [if_neg empty]
    by_cases accepted : ¬ (Ide.isDrivePresent node.drives node.drive ∧
        (node.drives.ideDev node.drive).type = Ide.ideAtapi)
    · obtain ⟨drives, returned⟩ := ideWrite_returns around.buf empty accepted
      rw [ideWriteCall, returned, and_iff_right accepted]
      exact transferOf_iff rfl rfl
    · have atapi := not_not.mp accepted
      rw [ideWriteCall, ideWrite_refused around.buf empty atapi.1 atapi.2]
      refine iff_of_false ?_ fun both => accepted both.1
      intro kept
      have negative : ((-1 : BitVec 32)).toInt = -1 := by decide
      have result : (-1 : Int) = _ := negative.symm.trans kept
      omega

/-- `ps2_keyboard_read`: with `TTY_ECHO` its first character is a panic. -/
theorem keyboardRead_iff {flags : BitVec width} :
    (Installed.keyboardRead flags).Uniform size elements ↔
      (Installed.keyboardRead flags).Meets size elements := by
  have quiet : (size * elements ≠ 0 → ¬ isSet flags ttyEcho) →
      size * elements ≠ 0 → (keyboardTerminal flags).Echoes := by
    intro clear nonempty chr
    exact ⟨[], if_neg (clear nonempty)⟩
  constructor
  · intro keeps
    have clear : size * elements ≠ 0 → ¬ isSet flags ttyEcho := by
      intro nonempty echo
      have more : (0 : BitVec width) < size * elements := by
        have positive := Nat.pos_of_ne_zero fun zero => nonempty (BitVec.eq_of_toNat_eq zero)
        simpa [BitVec.lt_def] using positive
      have stops := @readChars_stops _ (keyboardTerminal flags) (size * elements) [] 97
        ⟨0, (default : Surroundings).buf, []⟩ (.panic .unintendedCall) more (if_pos echo)
      have kept := keeps { (default : Surroundings) with input := [97] }
      simp only [Installed.call, ps2KeyboardRead, readLine, checked, bind, Except.bind] at kept
      rw [stops] at kept
      exact kept
    have line := (@lineCall_iff _ _ size elements (quiet clear)).mp fun dest input =>
      keeps { (default : Surroundings) with buf := dest, input }
    exact ⟨line.1, line.2, clear⟩
  · intro meets around
    obtain ⟨nonzero, counted, clear⟩ := meets
    exact (@lineCall_iff _ _ size elements (quiet clear)).mpr ⟨nonzero, counted⟩ around.buf
      around.input

/-- `ps2_mouse_read`: a packet is only divided by a size that is not zero. -/
theorem mouseRead_iff :
    (Installed.mouseRead : Installed width).Uniform size elements ↔ size ≠ 0 := by
  constructor
  · intro keeps zero
    have kept := keeps { (default : Surroundings) with packet := some fun _ => 0 }
    simp only [Installed.call, ps2MouseRead, checked, bind, Except.bind, perSize] at kept
    rw [if_pos zero] at kept
    exact kept
  · intro nonzero around
    have positive : size.toNat ≠ 0 := fun zero => nonzero (BitVec.eq_of_toNat_eq zero)
    simp only [Installed.call, ps2MouseRead, checked, bind, Except.bind, perSize]
    cases around.packet with
    | none =>
      show (0 : BitVec 32).toInt = _
      rw [wholeElements_of_le positive, Nat.zero_div]
      rfl
    | some packet =>
      rw [if_neg nonzero]
      apply (quotient_iff nonzero).mpr
      rw [BitVec.toNat_ofNat]
      have few : min (size * elements).toNat sizeofPacket ≤ 8 := Nat.min_le_right ..
      have fewer := Nat.mod_le (min (size * elements).toNat sizeofPacket) (2 ^ width)
      have quotient := Nat.div_le_self
        (min (size * elements).toNat sizeofPacket % 2 ^ width) size.toNat
      omega

/-- The read and write functions of all devices: each one keeps the contract of a call, in all
surroundings, exactly under its condition. -/
theorem uniform_iff (function : Installed width) (size elements : BitVec width) :
    function.Uniform size elements ↔ function.Meets size elements := by
  cases function with
  | nullRead =>
    apply uniform_of_same
    intro around
    simp only [Installed.call, nullReadFunction, checked, memset, bind, Except.bind,
      Installed.Meets]
    by_cases fits : (size * elements).toInt ≤ 0x7FFFFFFF
    · rw [if_pos fits, and_iff_right fits]
      exact elements_iff
    · rw [if_neg fits]
      exact iff_of_false id fun both => fits both.1
  | nullWrite => exact uniform_of_same fun around => elements_iff
  | randomRead => exact uniform_of_same fun around => elements_iff
  | randomWrite => exact uniform_of_same fun around => elements_iff
  | serialRead flags =>
    have line := @lineCall_iff _ (serialTerminal flags) size elements fun _ =>
      serialTerminal_echoes flags
    rw [Installed.Meets, ← line]
    constructor
    · intro keeps dest input
      exact keeps { (default : Surroundings) with buf := dest, input }
    · exact fun keeps around => keeps around.buf around.input
  | serialWrite flags => exact uniform_of_same fun around => bytes_iff
  | taskRead taskSize =>
    apply uniform_of_same
    intro around
    simp only [Installed.call, taskReadBytes, Installed.Meets]
    by_cases long : (size * elements).toNat > taskSize
    · rw [if_pos long]
      exact iff_of_false id fun both => absurd both.1 (Nat.not_le.mpr long)
    · rw [if_neg long, and_iff_right (Nat.not_lt.mp long)]
      exact bytes_iff
  | taskWrite taskSize =>
    apply uniform_of_same
    intro around
    simp only [Installed.call, taskWriteBytes, Installed.Meets]
    by_cases long : (size * elements).toNat > taskSize
    · rw [if_pos long]
      exact iff_of_false id fun both => absurd both.1 (Nat.not_le.mpr long)
    · rw [if_neg long, and_iff_right (Nat.not_lt.mp long)]
      exact bytes_iff
  | ideRead node => exact uniform_of_same fun around => ideRead_iff
  | ideWrite node => exact uniform_of_same fun around => ideWrite_iff
  | pciRead =>
    apply uniform_of_same
    intro around
    simp only [Installed.Meets, Nat.min_def]
    exact elements_iff
  | pciWrite =>
    apply uniform_of_same
    intro around
    simp only [Installed.Meets, Nat.min_def]
    exact elements_iff
  | keyboardRead flags => exact keyboardRead_iff
  | mouseRead => exact mouseRead_iff

/-- On `/dev/tty0` a read with `Size` 0 divides by zero, and a write of one element of two bytes
returns 2. -/
theorem tty_breaks_contract :
    ¬ (Installed.serialRead (30 : BitVec 64)).Uniform 0 1 ∧
      ¬ (Installed.serialWrite (30 : BitVec 64)).Uniform 2 1 := by
  constructor
  · exact fun keeps => keeps default
  · intro keeps
    have kept : (2 : BitVec 32).toInt = wholeElements 2 1 2 := keeps default
    exact absurd kept (by decide)

end Uniform

end Unarddeg
